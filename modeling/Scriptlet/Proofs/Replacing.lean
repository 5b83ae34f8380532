import Scriptlet.Method
import Scriptlet.Proofs.Expansion
import Scriptlet.Proofs.Scanning
import Scriptlet.Proofs.Splicing

/-!
# Replacing a text in a text

A text is looked for in another in two ways. To split a text or to tell an offset, it is compared
with what stands at one place after another. To replace it, it is first made into a pattern, one
test for each code point, and the matches of the pattern are gone through.

Both find the same occurrences: each time the first one behind the one before. So replacing all of
them is splitting the text at them and joining the pieces, and joining the pieces with what they
were split at gives back the text. What is put in must be free of dollar signs, for with them it is
a template; what is looked for may be any text but the empty one.
-/

namespace Scriptlet

/-- **The occurrences of a text**, as signs that are replaced by another text. -/
def Rewriting.literal (p r : Text) : Rewriting Unit where
  spelling _ := p
  replacement _ := r
  Stands _ _ _ := True

variable {p r t u before after : Text}

/-- Where no occurrence stands in front, the text is no prefix. -/
theorem Rewriting.not_isPrefixOf {t : Text}
    (none : ∀ (x : Unit) back, (literal p r).spelling x ++ back = t → ¬ (literal p r).Stands x before back) :
    ¬ p.isPrefixOf t = true := fun there =>
  none () _ (List.prefix_iff_eq_append.mp (List.isPrefixOf_iff_prefix.mp there)) trivial

/-- A text that is replaced by itself stays. -/
theorem Rewriting.RewritesFrom.eq_of_same (h : (literal p p).RewritesFrom before t u) : u = t := by
  induction h with
  | nil before => rfl
  | sign x _ _ ih => rw [ih]; rfl
  | keep _ _ ih => rw [ih]

/-! ## Pieces -/

namespace Text

theorem splitAux_ne_nil (separator : Text) (skip : Nat) (piece t : Text) :
    splitAux separator skip piece t ≠ [] := by
  induction t generalizing skip piece with
  | nil => cases skip <;> exact List.cons_ne_nil _ _
  | cons c t ih =>
    cases skip with
    | succ skip => exact ih skip piece
    | zero =>
      rw [splitAux]
      split
      · exact List.cons_ne_nil _ _
      · exact ih 0 _

theorem splitAux_skip (separator : Text) (skip : Nat) (piece t : Text) :
    splitAux separator skip piece t = splitAux separator 0 piece (t.drop skip) := by
  induction t generalizing skip with
  | nil => rw [List.drop_nil]; cases skip <;> rfl
  | cons c t ih =>
    cases skip with
    | zero => rfl
    | succ skip => exact ih skip

theorem join_cons {separator piece : Text} {pieces : List Text} (some : pieces ≠ []) :
    join separator (piece :: pieces) = piece ++ separator ++ join separator pieces := by
  cases pieces with
  | nil => exact absurd rfl some
  | cons next pieces => rfl

/-- **Joining the pieces rewrites the occurrences** of what a text has been split at. -/
theorem join_splitAux (some : p ≠ []) (h : (Rewriting.literal p r).RewritesFrom before t u)
    (piece : Text) : join r (splitAux p 0 piece t) = piece.reverse ++ u := by
  induction h generalizing piece with
  | nil before => rw [List.append_nil]; rfl
  | @sign before after result _ _ _ ih =>
    obtain ⟨c, rest, rfl⟩ := List.exists_cons_of_ne_nil some
    show join r (splitAux (c :: rest) 0 piece (c :: (rest ++ after))) =
      piece.reverse ++ (r ++ result)
    have there : List.isPrefixOf (c :: rest) (c :: (rest ++ after)) = true :=
      List.isPrefixOf_iff_prefix.mpr (List.prefix_append (c :: rest) after)
    have behind : (rest ++ after).drop ((c :: rest).length - 1) = after := List.drop_left
    rw [splitAux, if_pos there, splitAux_skip, behind, join_cons (splitAux_ne_nil _ _ _ _), ih,
      List.append_assoc]
    rfl
  | @keep before rest result c none _ ih =>
    rw [splitAux, if_neg (Rewriting.not_isPrefixOf none), ih, List.reverse_cons, List.append_assoc]
    rfl

theorem join_splitOn (some : p ≠ []) (h : (Rewriting.literal p r).Rewrites t u) :
    join r (t.splitOn p) = u :=
  join_splitAux some h []

end Text

/-! ## Matches -/

theorem Text.isPrefixOf_cons_drop (c : CodePoint) (p t : Text) (n : Nat) :
    List.isPrefixOf (c :: p) (t.drop n) = (t[n]? == some c && p.isPrefixOf (t.drop (n + 1))) := by
  rw [← List.drop_drop, ← List.head?_drop]
  cases t.drop n with
  | nil => rfl
  | cons d rest =>
    show (c == d && p.isPrefixOf rest) = (some d == some c && p.isPrefixOf rest)
    rw [Bool.beq_comm]
    rfl

theorem Pattern.matcher_char (t : Text) (c : CodePoint) (k : Continuation) (s : MatchState) :
    (Pattern.char (.literal .exact c false)).matcher t.toArray k s =
      if t[s.place]? == some c then k (s.moveTo (s.place + 1)) else none := by
  have passes (d : CodePoint) : (CharTest.literal .exact c false).passes d = (d == c) := by
    show ([c].contains d != false) = (d == c)
    rw [List.contains_cons, List.contains_nil, Bool.or_false, Bool.bne_false]
  show (if (t.toArray[s.place]?).any ((CharTest.literal .exact c false).passes ·) then _ else _) = _
  rw [List.getElem?_toArray]
  cases t[s.place]? with
  | none => rfl
  | some d =>
    rw [Option.any_some, passes]
    rfl

/-- **The pattern of a text matches that text** and nothing else. -/
theorem Pattern.matcher_ofText (t p : Text) (k : Continuation) (s : MatchState) :
    (ReadPattern.ofText p).pattern.matcher t.toArray k s =
      if p.isPrefixOf (t.drop s.place) then k (s.moveTo (s.place + p.length)) else none := by
  induction p generalizing s with
  | nil => rfl
  | cons c p ih =>
    rw [Text.isPrefixOf_cons_drop]
    match p with
    | [] =>
      rw [List.isPrefixOf_nil_left, Bool.and_true]
      exact matcher_char t c k s
    | d :: rest =>
      have first : (ReadPattern.ofText (c :: d :: rest)).pattern.matcher t.toArray k s =
          (Pattern.char (.literal .exact c false)).matcher t.toArray
            ((ReadPattern.ofText (d :: rest)).pattern.matcher t.toArray k) s := rfl
      rw [first, matcher_char, ih]
      cases t[s.place]? == some c with
      | false => rfl
      | true =>
        show (if List.isPrefixOf (d :: rest) (t.drop (s.place + 1)) then
            k ((s.moveTo (s.place + 1)).moveTo (s.place + 1 + (d :: rest).length)) else none) = _
        rw [Nat.add_right_comm]
        rfl

namespace ReadPattern

/-- The first way a text matches at a place is the only one. -/
theorem matchAt_ofText (some : p ≠ []) (t : Text) (mustAdvance : Bool) (place : Nat) :
    matchAt ((ofText p).pattern.matcher t.toArray) mustAdvance place =
      if p.isPrefixOf (t.drop place) then .some ⟨place + p.length, [], []⟩ else none := by
  have moves : (place + p.length == place) = false := by
    have := List.length_pos_iff.mpr some
    exact beq_false_of_ne (by omega)
  rw [matchAt, Pattern.matcher_ofText]
  show (if p.isPrefixOf (t.drop place) then
    (if (mustAdvance && place + p.length == place) = true then none else _) else _) = _
  rw [moves, Bool.and_false]
  rfl

theorem searchFrom_ofText (some : p ≠ []) (mustAdvance : Bool) {place : Nat} {rest : Text}
    (left : t.drop place = rest) :
    searchFrom ((ofText p).pattern.matcher t.toArray) mustAdvance place rest.length =
      (Text.findFrom p place rest).map fun i => (i, ⟨i + p.length, [], []⟩) := by
  induction rest generalizing mustAdvance place with
  | nil =>
    obtain ⟨c, p, rfl⟩ := List.exists_cons_of_ne_nil some
    rw [List.length_nil, searchFrom, matchAt_ofText some, left]
    rfl
  | cons c rest ih =>
    rw [List.length_cons, searchFrom, matchAt_ofText some, left, Text.findFrom]
    have next : t.drop (place + 1) = rest := by
      rw [← List.drop_drop, left]
      rfl
    cases List.isPrefixOf p (c :: rest) with
    | true => rfl
    | false => exact ih false next

/-- **The matches of a text are its occurrences.** -/
theorem searchAt_ofText (some : p ≠ []) (t : Text) (mustAdvance : Bool) (place : Nat) :
    (ofText p).searchAt t ((ofText p).pattern.matcher t.toArray) mustAdvance place =
      (Text.findFrom p place (t.drop place)).map fun i => ⟨t, i, i + p.length, []⟩ := by
  rw [searchAt, ← List.length_drop, searchFrom_ofText some mustAdvance rfl, Option.map_map]
  rfl

/-- An occurrence that stands at a place is the match there. -/
theorem searchAt_ofText_here (some : p ≠ []) (whole : before ++ (p ++ after) = t) (mustAdvance : Bool) :
    (ofText p).searchAt t ((ofText p).pattern.matcher t.toArray) mustAdvance before.length =
      .some ⟨t, before.length, before.length + p.length, []⟩ := by
  have here : Text.findFrom p before.length (p ++ after) = .some before.length := by
    obtain ⟨c, p, rfl⟩ := List.exists_cons_of_ne_nil some
    exact if_pos (List.isPrefixOf_iff_prefix.mpr (List.prefix_append (c :: p) after))
  rw [searchAt_ofText some, ← whole, List.drop_left, here]
  rfl

/-- Where none stands, the search goes on behind the place. -/
theorem searchAt_ofText_next (some : p ≠ []) {c : CodePoint} (whole : before ++ c :: after = t)
    (none : ¬ List.isPrefixOf p (c :: after) = true) (mustAdvance : Bool) :
    (ofText p).searchAt t ((ofText p).pattern.matcher t.toArray) mustAdvance before.length =
      (ofText p).searchAt t ((ofText p).pattern.matcher t.toArray) mustAdvance
        (before ++ [c]).length := by
  have behind : t.drop (before ++ [c]).length = after := by
    rw [← whole, List.append_cons before c after, List.drop_left]
  rw [searchAt_ofText some, searchAt_ofText some, behind, ← whole, List.drop_left, Text.findFrom,
    if_neg none, List.length_append]
  rfl

theorem matchesFrom_ofText_next (some : p ≠ []) {c : CodePoint} (whole : before ++ c :: after = t)
    (none : ¬ List.isPrefixOf p (c :: after) = true) (count : Nat) (mustAdvance : Bool) :
    (ofText p).matchesFrom t ((ofText p).pattern.matcher t.toArray) count mustAdvance before.length =
      (ofText p).matchesFrom t ((ofText p).pattern.matcher t.toArray) count mustAdvance
        (before ++ [c]).length := by
  cases count with
  | zero => rfl
  | succ count => rw [matchesFrom, matchesFrom, searchAt_ofText_next some whole none]

end ReadPattern

theorem Text.slice_append_cons {c : CodePoint} {place : Nat} (within : place ≤ before.length) :
    Text.slice (before ++ c :: after) place (before ++ [c]).length =
      Text.slice (before ++ c :: after) place before.length ++ [c] := by
  have longer : (before ++ [c]).length - place = (before.drop place ++ [c]).length := by
    rw [List.length_append, List.length_append, List.length_drop, List.length_singleton]
    omega
  rw [slice, slice, List.drop_append_of_le_length within, longer, ← List.length_drop,
    List.take_left, List.append_cons (before.drop place) c after, List.take_left]

/-- Replacing the matches from a place on **rewrites the occurrences** behind it. What stands
between the place and the one that the search has come to is kept. -/
theorem replaceMatches_ofText (some : p ≠ []) (h : (Rewriting.literal p r).RewritesFrom before after u)
    (whole : before ++ after = t) {place count : Nat} (passed : place ≤ before.length)
    (many : after.length < count) (mustAdvance : Bool) :
    replaceMatches t place
        (((ReadPattern.ofText p).matchesFrom t ((ReadPattern.ofText p).pattern.matcher t.toArray)
          count mustAdvance before.length).map fun m => (m, r)) =
      t.slice place before.length ++ u := by
  induction h generalizing place count mustAdvance with
  | nil before =>
    obtain ⟨count, rfl⟩ := Nat.exists_eq_add_one.mpr many
    rw [List.append_nil] at whole
    subst whole
    have nothing : Text.findFrom p before.length [] = none :=
      if_neg (by rwa [List.isEmpty_iff])
    rw [ReadPattern.matchesFrom, ReadPattern.searchAt_ofText some, List.drop_length, nothing,
      List.append_nil, Text.slice_length]
    rfl
  | @sign before after result _ _ _ ih =>
    obtain ⟨count, rfl⟩ := Nat.exists_eq_add_one.mpr (Nat.zero_lt_of_lt many)
    have fewer : after.length < count := by
      have length := List.length_pos_iff.mpr some
      have many : (p ++ after).length < count + 1 := many
      rw [List.length_append] at many
      omega
    have behind := ih (by rw [List.append_assoc]; exact whole) (Nat.le_refl _) fewer
      (before.length == before.length + p.length)
    rw [Text.slice_self, List.nil_append, Rewriting.literal, List.length_append] at behind
    rw [ReadPattern.matchesFrom, ReadPattern.searchAt_ofText_here some whole]
    show t.slice place before.length ++ r ++ replaceMatches t (before.length + p.length) _ = _
    rw [behind, List.append_assoc]
    rfl
  | @keep before rest result c none _ ih =>
    have behind := ih (by rwa [← List.append_cons])
      (Nat.le_trans passed (List.prefix_append before [c]).length_le) (Nat.lt_of_succ_lt many)
      mustAdvance
    rw [ReadPattern.matchesFrom_ofText_next some whole (Rewriting.not_isPrefixOf none), behind,
      ← whole, Text.slice_append_cons passed, List.append_assoc]
    rfl

/-! ## The first occurrence -/

/-- A text **stands first** in a text between what is before it and what is after it. -/
structure Text.StandsFirst (p t before after : Text) : Prop where
  /-- The three parts make the text. -/
  whole : before ++ p ++ after = t
  /-- It does not stand further in front. -/
  first : ∀ front back, front ++ p ++ back = t → before.length ≤ front.length

/-- A text that is not found occurs nowhere. -/
theorem Text.not_infix_of_findFrom_eq_none {base : Nat} (h : Text.findFrom p base t = none) :
    ¬ p <:+: t := by
  induction t generalizing base with
  | nil =>
    rw [List.infix_nil]
    rintro rfl
    cases h
  | cons c t ih =>
    rw [findFrom] at h
    split at h
    · cases h
    · rename_i notHere
      rw [List.infix_cons_iff, not_or]
      exact ⟨fun here => notHere (List.isPrefixOf_iff_prefix.mpr here), ih h⟩

/-- **What is found stands first.** -/
theorem Text.standsFirst_of_find? {i : Nat} (h : t.find? p = some i) :
    p.StandsFirst t (t.take i) (t.drop (i + p.length)) ∧ (t.take i).length = i := by
  obtain ⟨k, same, ⟨after, there⟩, none⟩ := Text.findFrom_eq_some h
  rw [Nat.zero_add] at same
  subst same
  have within : i < t.length + 1 := by
    by_contra beyond
    have nothing : p = [] ∧ after = [] := by
      rw [List.drop_of_length_le (by omega)] at there
      exact List.append_eq_nil_iff.mp there
    refine none t.length (by omega) ?_
    rw [nothing.1]
    exact List.nil_prefix
  have length : (t.take i).length = i := List.length_take_of_le (Nat.le_of_lt_succ within)
  refine ⟨⟨?_, fun front back parts => ?_⟩, length⟩
  · rw [List.append_assoc, ← List.drop_drop, ← there, List.drop_left, there, List.take_append_drop]
  · rw [length]
    refine Nat.not_lt.mp fun earlier => none _ earlier ⟨back, ?_⟩
    rw [← parts, List.append_assoc, List.drop_left]

/-- Replacing the first match replaces **what is found**. -/
theorem replaceMatches_first (some : p ≠ []) (t r : Text) :
    replaceMatches t 0 (((ReadPattern.ofText p).matchesOf t (.some 1)).map fun m => (m, r)) =
      match t.find? p with
      | none => t
      | .some i => t.take i ++ r ++ t.drop (i + p.length) := by
  have once : (ReadPattern.ofText p).matchesOf t (.some 1) =
      ((t.find? p).map fun i => ⟨t, i, i + p.length, []⟩).toList := by
    have one : min (2 * t.length + 2) 1 = 1 := by omega
    show ReadPattern.matchesFrom _ t _ (min (2 * t.length + 2) 1) false 0 = _
    rw [one, ReadPattern.matchesFrom, ReadPattern.searchAt_ofText some, List.drop_zero, Text.find?]
    cases Text.findFrom p 0 t <;> rfl
  rw [once]
  cases t.find? p with
  | none => rfl
  | some i =>
    show t.slice 0 i ++ r ++ t.drop (i + p.length) = _
    rw [Text.slice, Nat.sub_zero, List.drop_zero]

/-! ## Methods -/

theorem Step.mapM_of_ok {f : α → Step β} {g : α → β} {s : Store} (h : ∀ a, f a s = .ok (g a) s)
    (xs : List α) : xs.mapM f s = .ok (xs.map g) s := by
  induction xs with
  | nil => rfl
  | cons x xs ih =>
    rw [List.mapM_cons, bind_of_ok (h x), bind_of_ok ih]
    rfl

/-- A text is replaced by another, which is no template, by replacing the matches of its pattern. -/
theorem replaceIn_text (run : Runner) (s : Store) (t p : Text) (plain : ('$' : CodePoint) ∉ r)
    (all : Bool) :
    replaceIn run t [.text p, .text r] all s =
      .ok (replaceMatches t 0 (((ReadPattern.ofText p).matchesOf t
        (if all then none else some 1)).map fun m => (m, r))) s := by
  have pattern : searched (.text p) all s = .ok (ReadPattern.ofText p, all) s :=
    Step.bind_of_ok (Step.read_of_ok (s.textOf_text p))
  have replaced (m : Match) : m.replacement run (.text r) s = .ok r s := by
    have given : (Step.textOf (.text r) >>= fun template => pure (m.expand template)) s =
        .ok (m.expand r) s :=
      Step.bind_of_ok (Step.read_of_ok (s.textOf_text r))
    rw [m.expand_of_plain plain] at given
    exact given
  refine (Step.bind_of_ok pattern).trans ((Step.bind_of_ok (Step.mapM_of_ok (fun m => ?_) _)).trans rfl)
  exact Step.bind_of_ok (replaced m)

namespace TextMethod

/-- What splitting a text and joining the pieces gives. -/
def splitAndJoin (run : Runner) (t separator between : Text) : Step Value := do
  let pieces ← Step.callMethod run (.text t) "split" [.text separator]
  Step.callMethod run pieces "join" [.text between]

variable {run : Runner} {s : Store}

theorem pieces_text (some : p ≠ []) (s : Store) (t : Text) :
    pieces s t (.text p) = .ok ((t.splitOn p).map .text) := by
  obtain ⟨c, p, rfl⟩ := List.exists_cons_of_ne_nil some
  show (do
    let between ← s.textOf (.text (c :: p))
    if between.isEmpty then return t.map fun c => Value.text [c]
    else return (t.splitOn between).map Value.text : Except Unmet (List Value)) = _
  rw [Store.textOf_text]
  rfl

theorem call_split (run : Runner) (s : Store) (t : Text) (some : p ≠ []) :
    (Step.callMethod run (.text t) "split" [.text p]).MakesList s ((t.splitOn p).map .text) :=
  (Step.bind_of_ok (Step.read_of_ok (pieces_text some s t))).trans
    (Step.bind_of_ok (Step.read_of_ok rfl))

/-- Texts are joined as they are. -/
theorem joined_texts (s : Store) (between : Text) (texts : List Text) :
    ListMethod.joined s (.text between) (texts.map .text) = .ok (Text.join between texts) := by
  have each : (texts.map Value.text).mapM (fun item =>
      if item.isNullish then .ok [] else s.textOf item) = Except.ok (ε := Unmet) texts := by
    induction texts with
    | nil => rfl
    | cons t texts ih =>
      have first : (if (Value.text t).isNullish then .ok [] else s.textOf (.text t)) =
          Except.ok (ε := Unmet) t := s.textOf_text t
      rw [List.map_cons, List.mapM_cons, first, ih]
      rfl
  show (do
    let between ← s.textOf (.text between)
    let texts ← (texts.map Value.text).mapM fun item =>
      if item.isNullish then .ok [] else s.textOf item
    return Text.join between texts : Except Unmet Text) = _
  rw [Store.textOf_text, each]
  rfl

theorem call_join (run : Runner) {s : Store} {ref : ListRef} {texts : List Text}
    (items : s.items ref = texts.map .text) (between : Text) :
    Step.callMethod run (.list ref) "join" [.text between] s =
      .ok (.text (Text.join between texts)) s := by
  have joined := joined_texts s between texts
  rw [← items] at joined
  exact Step.bind_of_ok (Step.read_of_ok joined)

theorem splitAndJoin_eq (run : Runner) (s : Store) (some : p ≠ []) (t r : Text) :
    splitAndJoin run t p r s =
      .ok (.text (Text.join r (t.splitOn p))) (s.newList ((t.splitOn p).map .text)).2 :=
  (Step.bind_of_ok (call_split run s t some)).trans (call_join run Store.items_newList_self r)

/-- A method that replaces gives the text that comes of it. -/
theorem call_of_replaceMatches (run : Runner) (s : Store) (plain : ('$' : CodePoint) ∉ r) {all : Bool}
    (h : replaceMatches t 0 (((ReadPattern.ofText p).matchesOf t
      (if all then none else some 1)).map fun m => (m, r)) = u) :
    (.text <$> replaceIn run t [.text p, .text r] all : Step Value) s = .ok (.text u) s := by
  show EStateM.map _ _ _ = _
  rw [EStateM.map, replaceIn_text run s t p plain, h]

theorem call_replaceAll (run : Runner) (s : Store) (some : p ≠ []) (plain : ('$' : CodePoint) ∉ r)
    (h : (Rewriting.literal p r).Rewrites t u) :
    Step.callMethod run (.text t) "replaceAll" [.text p, .text r] s = .ok (.text u) s := by
  have replaced := replaceMatches_ofText some h (List.nil_append t) (Nat.le_refl 0)
    (by omega : t.length < 2 * t.length + 2) false
  rw [List.length_nil, Text.slice_self] at replaced
  exact call_of_replaceMatches run s plain replaced

theorem call_replace (run : Runner) (s : Store) (some : p ≠ []) (t : Text)
    (plain : ('$' : CodePoint) ∉ r) :
    Step.callMethod run (.text t) "replace" [.text p, .text r] s =
      .ok (.text (match t.find? p with
        | none => t
        | .some i => t.take i ++ r ++ t.drop (i + p.length))) s :=
  call_of_replaceMatches run s plain (replaceMatches_first some t r)

theorem call_indexOf (run : Runner) (s : Store) (t p : Text) :
    Step.callMethod run (.text t) "indexOf" [.text p] s =
      .ok (.int (match t.find? p with | none => -1 | .some i => i)) s := by
  have start : s.clampedOffset (argument [.text p] 1) t.length 0 = .ok 0 := rfl
  have index : indexFrom t p 0 = match t.find? p with | none => -1 | .some i => i := by
    rw [indexFrom, List.drop_zero, Text.find?]
    cases Text.findFrom p 0 t <;> rfl
  have text : Step.textOf (.text p) s = .ok p s := Step.read_of_ok (s.textOf_text p)
  rw [← index]
  exact (Step.bind_of_ok (Step.read_of_ok start)).trans (Step.bind_of_ok text)

/-- **Splitting and joining replaces all occurrences**, and so does replacing them. Joining with what
a text was split at gives it back. Replacing once replaces the occurrence that stands first, the one
whose offset is told. -/
theorem replaces_occurrences (run : Runner) (s : Store) (t : Text) (some : p ≠ [])
    (plain : ('$' : CodePoint) ∉ r) :
    (∃ u, (Rewriting.literal p r).Rewrites t u
      ∧ Step.callMethod run (.text t) "replaceAll" [.text p, .text r] s = .ok (.text u) s
      ∧ splitAndJoin run t p r s = .ok (.text u) (s.newList ((t.splitOn p).map .text)).2)
    ∧ splitAndJoin run t p p s = .ok (.text t) (s.newList ((t.splitOn p).map .text)).2
    ∧ ((∃ before after, p.StandsFirst t before after
        ∧ Step.callMethod run (.text t) "indexOf" [.text p] s = .ok (.int before.length) s
        ∧ Step.callMethod run (.text t) "replace" [.text p, .text r] s =
          .ok (.text (before ++ r ++ after)) s)
      ∨ (¬ p <:+: t
        ∧ Step.callMethod run (.text t) "indexOf" [.text p] s = .ok (.int (-1)) s
        ∧ Step.callMethod run (.text t) "replace" [.text p, .text r] s = .ok (.text t) s)) := by
  obtain ⟨u, rewritten⟩ := Rewriting.exists_rewritesFrom (ρ := Rewriting.literal p r)
    (fun _ => some) [] t
  obtain ⟨same, unchanged⟩ := Rewriting.exists_rewritesFrom (ρ := Rewriting.literal p p)
    (fun _ => some) [] t
  have joined := Text.join_splitOn some unchanged
  rw [unchanged.eq_of_same] at joined
  refine ⟨⟨u, rewritten, call_replaceAll run s some plain rewritten, ?_⟩, ?_, ?_⟩
  · rw [splitAndJoin_eq run s some, Text.join_splitOn some rewritten]
  · rw [splitAndJoin_eq run s some, joined]
  · have index := call_indexOf run s t p
    have replaced := call_replace run s some t plain
    cases found : t.find? p with
    | none =>
      rw [found] at index replaced
      exact .inr ⟨Text.not_infix_of_findFrom_eq_none found, index, replaced⟩
    | some i =>
      rw [found] at index replaced
      obtain ⟨stands, length⟩ := Text.standsFirst_of_find? found
      exact .inl ⟨_, _, stands, by rw [length]; exact index, replaced⟩

/-- Of three occurrences that overlap, the first and the last are replaced. -/
theorem replaces_occurrences_of_overlapping :
    ("(.(" : Text) ≠ [] ∧ ('$' : CodePoint) ∉ ("b" : Text)
    ∧ Step.callMethod (Task.runTo .bare 0) (.text "(.(.(.(") "replaceAll" [.text "(.(", .text "b"]
      .empty = .ok (.text "b.b") .empty
    ∧ ∃ t, splitAndJoin (Task.runTo .bare 0) "(.(.(.(" "(.(" "b" .empty = .ok (.text "b.b") t := by
  have some : ("(.(" : Text) ≠ [] := by decide
  have plain : ('$' : CodePoint) ∉ ("b" : Text) := by decide
  obtain ⟨⟨u, rewritten, replaced, joined⟩, -, -⟩ :=
    replaces_occurrences (Task.runTo .bare 0) .empty "(.(.(.(" some plain
  have all : u = Text.ofString "b.b" := by
    rw [← Text.join_splitOn some rewritten]
    decide +kernel
  subst all
  exact ⟨some, plain, replaced, _, joined⟩

end TextMethod

end Scriptlet
