import Mathlib.Data.List.TakeWhile
import Scriptlet.Proofs.Rewriting
import Scriptlet.Proofs.Splitting
import Scriptlet.Regexp

/-!
# Respelling what is named in a pattern

Groups with names are spelled differently in regular expressions and in patterns, and so are the
references to them. What looks like such a spelling is one only where the notation is free: a
backslash may hide it, and it may be among the members of a class. So whoever respells them has to
know for each place what the notation is there.

Respelling does not know it. It looks at one backslash in front of the opening of a group, at
nothing in front of a reference, and at no class at all. Both ways of respelling are rewritings of
the same signs; they differ in where these stand. As signs do not overlap and are not mistaken for
what they are replaced by, two such rewritings give the same text exactly if the same signs stand,
and this tells which sources are respelled as they are meant.
-/

namespace Scriptlet

namespace Regexp

/-! ## Signs -/

/-- What is **spelled differently** in a pattern. -/
inductive NamedSign where
  /-- The opening of a group with a name. -/
  | opening
  /-- A reference to a group with a name. -/
  | reference (name : Text)

namespace NamedSign

/-- How a sign is spelled in a source. -/
def spelling : NamedSign → Text
  | opening => "(?<"
  | reference name => "\\k<" ++ name ++ ">"

/-- How it is spelled in a pattern. -/
def respelled : NamedSign → Text
  | opening => "(?P<"
  | reference name => "(?P=" ++ name ++ ")"

/-- Whether a sign **is formed** before the text behind it: a reference needs a name, and what
looks like an opening can be that of a condition on what stands in front. -/
def IsFormed : NamedSign → Text → Prop
  | opening, after => after.head? ≠ some ('=' : CodePoint) ∧ after.head? ≠ some ('!' : CodePoint)
  | reference name, _ => name.head?.any startsName = true ∧ name.all continuesName = true

variable {x y : NamedSign} {before after rest : Text}

/-- What a bracketed name **consists of**. -/
theorem bracketedName?_eq_some {t name : Text} :
    bracketedName? t = some name ↔
      ∃ after, t = name ++ ">" ++ after ∧ (reference name).IsFormed after := by
  unfold bracketedName?
  dsimp only
  constructor
  · have continues : (t.takeWhile continuesName).all continuesName = true := List.all_takeWhile
    obtain ⟨left, whole⟩ := List.takeWhile_prefix continuesName (l := t)
    generalize t.takeWhile continuesName = read at continues whole ⊢
    subst whole
    intro h
    obtain ⟨closed, h⟩ := Option.ite_none_right_eq_some.mp h
    cases h
    rw [Bool.and_eq_true, beq_iff_eq, List.drop_left] at closed
    obtain ⟨after, rfl⟩ := List.head?_eq_some_iff.mp closed.2
    exact ⟨after, (List.append_assoc name ">" after).symm, closed.1, continues⟩
  · rintro ⟨after, rfl, starts, continues⟩
    have whole : (name ++ ">" ++ after).takeWhile continuesName = name := by
      have stops : ¬ continuesName ('>' : CodePoint) = true := by decide +kernel
      rw [List.append_assoc, List.takeWhile_append_of_pos (List.all_eq_true.mp continues)]
      exact (congrArg (name ++ ·) (List.takeWhile_cons_of_neg stops)).trans (List.append_nil name)
    rw [whole, starts, List.append_assoc, List.drop_left]
    rfl

/-- **A sign is told** from what it is spelled like. -/
theorem eq_of_append (hx : x.IsFormed rest) (hy : y.IsFormed after)
    (same : x.spelling ++ rest = y.spelling ++ after) : x = y ∧ rest = after := by
  cases x with
  | opening =>
    cases y with
    | opening => exact ⟨rfl, List.append_cancel_left same⟩
    | reference name => cases (List.cons.inj same).1
  | reference name =>
    cases y with
    | opening => cases (List.cons.inj same).1
    | reference name' =>
      have behind : name ++ ">" ++ rest = name' ++ ">" ++ after :=
        (List.cons.inj (List.cons.inj (List.cons.inj same).2).2).2
      have first := bracketedName?_eq_some.mpr ⟨rest, rfl, hx⟩
      have second := bracketedName?_eq_some.mpr ⟨after, rfl, hy⟩
      rw [behind, second] at first
      cases first
      exact ⟨rfl, List.append_cancel_left behind⟩

/-- The code points that signs **begin with**. -/
def IsMark (c : CodePoint) : Prop :=
  c = '(' ∨ c = '\\'

instance : DecidablePred IsMark := fun c =>
  inferInstanceAs (Decidable (c = '(' ∨ c = '\\'))

theorem not_continuesName_of_isMark {c : CodePoint} (h : IsMark c) : ¬ continuesName c = true := by
  obtain rfl | rfl := h <;> decide +kernel

theorem exists_spelling_eq_cons (x : NamedSign) :
    ∃ c rest, x.spelling = c :: rest ∧ IsMark c := by
  cases x with
  | opening => exact ⟨_, _, rfl, .inl rfl⟩
  | reference name => exact ⟨_, _, rfl, .inr rfl⟩

theorem isMark_of_append {c : CodePoint} (h : x.spelling ++ after = c :: rest) : IsMark c := by
  obtain ⟨d, behind, spelled, mark⟩ := x.exists_spelling_eq_cons
  rw [spelled] at h
  rwa [← (List.cons.inj h).1]

/-- **No sign begins within another one.** -/
theorem not_isMark_of_mem_tail (h : x.IsFormed after) {c : CodePoint} (hc : c ∈ x.spelling.tail) :
    ¬ IsMark c := by
  cases x with
  | opening =>
    have none : ∀ c ∈ opening.spelling.tail, ¬ IsMark c := by decide
    exact none c hc
  | reference name =>
    have before : ∀ c ∈ ("k<" : Text), ¬ IsMark c := by decide
    have behind : ∀ c ∈ (">" : Text), ¬ IsMark c := by decide
    have parts : c ∈ ("k<" : Text) ++ name ++ ">" := hc
    rw [List.mem_append, List.mem_append] at parts
    rcases parts with (hc | hc) | hc
    · exact before c hc
    · exact fun mark => not_continuesName_of_isMark mark (List.all_eq_true.mp h.2 c hc)
    · exact behind c hc

/-- So a sign that stands in a text which a sign begins **is this sign or stands behind it**. -/
theorem eq_or_behind (hx : x.IsFormed rest) (hy : y.IsFormed after) {front : Text}
    (same : front ++ y.spelling ++ after = x.spelling ++ rest) :
    (front = [] ∧ y = x ∧ after = rest)
      ∨ ∃ front', front = x.spelling ++ front' ∧ front' ++ y.spelling ++ after = rest := by
  cases front with
  | nil =>
    obtain ⟨rfl, rfl⟩ := eq_of_append hy hx same
    exact .inl ⟨rfl, rfl, rfl⟩
  | cons c front =>
    right
    rw [List.append_assoc] at same
    obtain ⟨more, whole, behind⟩ | ⟨front', whole, behind⟩ := List.append_eq_append_iff.mp same
    · cases more with
      | nil => exact ⟨[], by rw [whole, List.append_nil, List.append_nil], behind⟩
      | cons d more =>
        refine absurd (isMark_of_append behind) (not_isMark_of_mem_tail hx ?_)
        rw [whole]
        exact List.mem_append_right front List.mem_cons_self
    · exact ⟨front', whole, by rw [List.append_assoc]; exact behind.symm⟩

end NamedSign

/-! ## Rewritings of signs -/

/-- The rewriting of **the signs that stand in certain places**. -/
def respelling (places : NamedSign → Text → Prop) : Rewriting NamedSign where
  spelling := NamedSign.spelling
  replacement := NamedSign.respelled
  Stands x before after := x.IsFormed after ∧ places x before

section

variable {P Q : NamedSign → Text → Prop} {before after t result : Text} {x : NamedSign}

open NamedSign Rewriting

/-- What no sign begins with is kept. -/
theorem exists_of_rewritesFrom_cons {c : CodePoint} (plain : ¬ IsMark c)
    (h : (respelling P).RewritesFrom before (c :: t) result) :
    ∃ rest, result = c :: rest ∧ (respelling P).RewritesFrom (before ++ [c]) t rest := by
  generalize whole : c :: t = u at h
  cases h with
  | nil => cases whole
  | sign x _ _ => exact absurd (isMark_of_append whole.symm) plain
  | keep none more =>
    cases whole
    exact ⟨_, rfl, more⟩

/-- **A sign that has been replaced stands there**: what it is replaced by cannot have been kept. -/
theorem stands_of_rewritesFrom (formed : x.IsFormed after)
    (h : (respelling P).RewritesFrom before (x.spelling ++ after) (x.respelled ++ result)) :
    P x before ∧ (respelling P).RewritesFrom (before ++ x.spelling) after result := by
  generalize whole : x.spelling ++ after = t at h
  generalize replaced : x.respelled ++ result = u at h
  cases h with
  | nil =>
    obtain ⟨c, rest, spelled, -⟩ := x.exists_spelling_eq_cons
    rw [spelled] at whole
    cases whole
  | sign y stands rest =>
    obtain ⟨rfl, rfl⟩ := eq_of_append formed stands.1 whole
    rw [List.append_cancel_left replaced]
    exact ⟨stands.2, rest⟩
  | keep none more =>
    cases x with
    | reference name =>
      rw [(List.cons.inj whole).1.symm] at replaced
      cases (List.cons.inj replaced).1
    | opening =>
      cases whole
      cases replaced
      obtain ⟨_, same, more⟩ := exists_of_rewritesFrom_cons (by decide) more
      obtain ⟨_, rfl, -⟩ := exists_of_rewritesFrom_cons (by decide) more
      cases (List.cons.inj (List.cons.inj same).2).1

/-- The same signs **stand in** a text, behind the text before it. -/
def Agree (P Q : NamedSign → Text → Prop) (before t : Text) : Prop :=
  ∀ front x back, front ++ x.spelling ++ back = t → x.IsFormed back →
    (P x (before ++ front) ↔ Q x (before ++ front))

theorem agree_cons {c : CodePoint} :
    Agree P Q before (c :: t) ↔
      (∀ x back, x.spelling ++ back = c :: t → x.IsFormed back → (P x before ↔ Q x before))
        ∧ Agree P Q (before ++ [c]) t := by
  constructor
  · refine fun agree => ⟨fun x back same formed => ?_, fun front x back same formed => ?_⟩
    · have here := agree [] x back same formed
      rwa [List.append_nil] at here
    · have there := agree (c :: front) x back (congrArg (c :: ·) same) formed
      rwa [List.append_cons] at there
  · rintro ⟨here, there⟩ front x back same formed
    cases front with
    | nil =>
      rw [List.append_nil]
      exact here x back same formed
    | cons d front =>
      obtain ⟨rfl, behind⟩ := List.cons.inj same
      rw [List.append_cons]
      exact there front x back behind formed

theorem agree_append (formed : x.IsFormed after) :
    Agree P Q before (x.spelling ++ after) ↔
      (P x before ↔ Q x before) ∧ Agree P Q (before ++ x.spelling) after := by
  constructor
  · refine fun agree => ⟨?_, fun front y back same formed => ?_⟩
    · have here := agree [] x after rfl formed
      rwa [List.append_nil] at here
    · have there := agree (x.spelling ++ front) y back (by simp [← same]) formed
      rwa [← List.append_assoc] at there
  · rintro ⟨here, there⟩ front y back same hy
    obtain ⟨rfl, rfl, rfl⟩ | ⟨front, rfl, behind⟩ := eq_or_behind formed hy same
    · rwa [List.append_nil]
    · rw [← List.append_assoc]
      exact there front y back behind hy

/-- **Two rewritings of signs give the same text** exactly if the same signs stand. -/
theorem rewritesFrom_iff (h : (respelling P).RewritesFrom before t result) :
    (respelling Q).RewritesFrom before t result ↔ Agree P Q before t := by
  induction h with
  | nil before =>
    refine ⟨fun _ front x back same => ?_, fun _ => .nil before⟩
    obtain ⟨c, rest, spelled, -⟩ := x.exists_spelling_eq_cons
    rw [spelled] at same
    exact absurd same (by simp)
  | @sign before after result x stands _ ih =>
    refine Iff.trans ⟨fun other => ?_, fun agree => ?_⟩ (agree_append stands.1).symm
    · obtain ⟨also, rest⟩ := stands_of_rewritesFrom stands.1 other
      exact ⟨iff_of_true stands.2 also, ih.mp rest⟩
    · exact .sign x ⟨stands.1, agree.1.mp stands.2⟩ (ih.mpr agree.2)
  | @keep before rest result c none more ih =>
    refine Iff.trans ⟨fun other => ?_, fun agree => ?_⟩ agree_cons.symm
    · have kept := RewritesFrom.keep none more
      generalize whole : c :: rest = t at other kept
      generalize replaced : c :: result = u at other kept
      cases other with
      | nil => cases whole
      | sign y stands _ =>
        have also := (stands_of_rewritesFrom stands.1 kept).1
        exact absurd ⟨stands.1, also⟩ (none y _ whole.symm)
      | keep none' more' =>
        cases whole
        cases replaced
        refine ⟨fun x back same formed => iff_of_false ?_ ?_, ih.mp more'⟩
        · exact fun stands => none x back same ⟨formed, stands⟩
        · exact fun stands => none' x back same ⟨formed, stands⟩
    · refine .keep (fun x back same stands => ?_) (ih.mpr agree.2)
      exact none x back same ⟨stands.1, (agree.1 x back same stands.1).mpr stands.2⟩

end

/-! ## Where signs are respelled -/

/-- Where signs **are respelled**: the opening of a group unless a backslash stands directly in
front, and a reference anywhere. -/
def IsRespelledBehind : NamedSign → Text → Prop
  | .opening, before => before.getLast? ≠ some ('\\' : CodePoint)
  | .reference _, _ => True

section

variable {before after t u name : Text} {c last : CodePoint}

open NamedSign

theorem respellGroups_cons (plain : c ≠ '(') (last : CodePoint) (t : Text) :
    respellGroups last false (c :: t) = c :: respellGroups c false t := by
  show c :: respellGroups c (c == '(' && last != '\\' && opensName t) t = _
  rw [beq_false_of_ne plain]
  rfl

/-- Without a parenthesis nothing is an opening. -/
theorem respellGroups_append (plain : ('(' : CodePoint) ∉ u) (before t : Text) :
    respellGroups (before.getLastD 0) false (u ++ t) =
      u ++ respellGroups ((before ++ u).getLastD 0) false t := by
  induction u generalizing before with
  | nil => rw [List.append_nil]; rfl
  | cons c u ih =>
    obtain ⟨first, more⟩ := List.ne_and_not_mem_of_not_mem_cons plain
    have behind := ih more (before ++ [c])
    rw [List.getLastD_concat, ← List.append_cons] at behind
    rw [List.cons_append, respellGroups_cons (Ne.symm first), behind]
    rfl

/-- What has no parenthesis in it stands in a text if it stands in the respelled one. -/
theorem prefix_of_prefix_respellGroups (plain : ('(' : CodePoint) ∉ u)
    (h : u <+: respellGroups last false t) : u <+: t := by
  induction t generalizing u last with
  | nil => exact h
  | cons c t ih =>
    cases u with
    | nil => exact List.nil_prefix
    | cons d u =>
      obtain ⟨first, more⟩ := List.ne_and_not_mem_of_not_mem_cons plain
      have same : d = c := by
        obtain ⟨rest, whole⟩ := h
        exact (List.cons.inj whole).1
      subst same
      rw [respellGroups_cons (Ne.symm first), List.prefix_cons_inj] at h
      rw [List.prefix_cons_inj]
      exact ih more h

theorem not_mem_reference (formed : (reference name).IsFormed after) :
    ('(' : CodePoint) ∉ (reference name).spelling := by
  have first : ('(' : CodePoint) ≠ '\\' := by decide
  exact List.not_mem_cons_of_ne_of_not_mem first
    fun there => not_isMark_of_mem_tail formed there (.inl rfl)

theorem respellReferences_cons (plain : c ≠ '\\') (t : Text) :
    respellReferences 0 (c :: t) = c :: respellReferences 0 t := by
  rw [respellReferences, beq_false_of_ne plain, Bool.false_and, if_neg Bool.false_ne_true]

theorem respellReferences_drop (hidden : Nat) (t : Text) :
    respellReferences hidden t = respellReferences 0 (t.drop hidden) := by
  induction t generalizing hidden with
  | nil => rw [List.drop_nil]; rfl
  | cons c t ih =>
    cases hidden with
    | zero => rfl
    | succ hidden => exact ih hidden

/-- Behind its backslash, a reference is a letter, a bracket and what is read as a bracketed name. -/
theorem append_bracketed (name t : Text) :
    ("k<" ++ name ++ ">" : Text) ++ t = "k<" ++ (name ++ ">" ++ t) := by
  rw [List.append_assoc, List.append_assoc, List.append_assoc]

/-- A reference is respelled wherever it stands. -/
theorem respellReferences_reference (formed : (reference name).IsFormed t) :
    respellReferences 0 ((reference name).spelling ++ t) =
      (reference name).respelled ++ respellReferences 0 t := by
  have found : bracketedName? (name ++ ">" ++ t) = some name :=
    bracketedName?_eq_some.mpr ⟨t, rfl, formed⟩
  have behind : ("k<" ++ (name ++ ">" ++ t) : Text).drop (name.length + 3) = t := by
    have length : ("k<" ++ name ++ ">" : Text).length = name.length + 3 := by
      rw [List.length_append, List.length_append, Nat.add_comm (List.length _) name.length]
      rfl
    rw [← append_bracketed, ← length, List.drop_left]
  have same : (reference name).spelling ++ t =
      ('\\' : CodePoint) :: ("k<" ++ (name ++ ">" ++ t)) :=
    congrArg (List.cons _) (append_bracketed name t)
  rw [same, respellReferences]
  refine (if_pos rfl).trans ?_
  rw [show ("k<" ++ (name ++ ">" ++ t) : Text).drop 2 = name ++ ">" ++ t from rfl, found]
  dsimp only
  rw [respellReferences_drop (name.length + 3), behind]
  rfl

/-- A backslash without a reference is kept. -/
theorem respellReferences_backslash
    (none : ∀ name after, (reference name).IsFormed after → ("k<" ++ name ++ ">" : Text) ++ after ≠ t) :
    respellReferences 0 (('\\' : CodePoint) :: t) = ('\\' : CodePoint) :: respellReferences 0 t := by
  rw [respellReferences]
  split
  · rename_i there
    obtain ⟨after, rfl⟩ := List.isPrefixOf_iff_prefix.mp (Bool.and_eq_true_iff.mp there).2
    split
    · rename_i name found
      obtain ⟨rest, behind, formed⟩ := bracketedName?_eq_some.mp found
      have whole := append_bracketed name rest
      rw [← behind] at whole
      exact absurd whole (none name rest formed)
    · rfl
  · rfl

theorem getLastD_eq_iff (before : Text) :
    before.getLastD 0 = '\\' ↔ before.getLast? = some ('\\' : CodePoint) := by
  rw [List.getLastD_eq_getLast?]
  cases before.getLast? with
  | none => exact iff_of_false (by decide) nofun
  | some c => exact Option.some_inj.symm

theorem opensName_iff :
    opensName t = true ↔ ∃ after, t = "?<" ++ after ∧ opening.IsFormed after := by
  rw [opensName, Bool.and_eq_true, Bool.and_eq_true, bne_iff_ne, bne_iff_ne,
    List.isPrefixOf_iff_prefix]
  constructor
  · rintro ⟨⟨⟨after, rfl⟩, noCondition⟩, noNegation⟩
    exact ⟨after, rfl, noCondition, noNegation⟩
  · rintro ⟨after, rfl, noCondition, noNegation⟩
    exact ⟨⟨⟨after, rfl⟩, noCondition⟩, noNegation⟩

/-- An opening is respelled unless a backslash stands directly in front. -/
theorem respellGroups_opening (h : (respelling IsRespelledBehind).Stands .opening before after) :
    respellGroups (before.getLastD 0) false (opening.spelling ++ after) =
      opening.respelled ++ respellGroups ((before ++ opening.spelling).getLastD 0) false after := by
  have open' : (('(' : CodePoint) == '(' && before.getLastD 0 != '\\' && opensName ("?<" ++ after))
      = true := by
    rw [opensName_iff.mpr ⟨after, rfl, h.1⟩, bne_iff_ne.mpr (mt (getLastD_eq_iff before).mp h.2)]
    rfl
  have last : (before ++ opening.spelling).getLastD 0 = '<' := by
    rw [show opening.spelling = "(?" ++ "<" from rfl, ← List.append_assoc]
    exact List.getLastD_concat ..
  rw [last]
  show ('(' : CodePoint) :: respellGroups '(' (('(' : CodePoint) == '(' &&
    before.getLastD 0 != '\\' && opensName ("?<" ++ after)) ("?<" ++ after) = _
  rw [open']
  rfl

/-- A parenthesis that does not open a group with a name is kept. -/
theorem respellGroups_parenthesis
    (none : ∀ after, opening.spelling ++ after = ('(' : CodePoint) :: t →
      ¬ (respelling IsRespelledBehind).Stands .opening before after) :
    respellGroups (before.getLastD 0) false (('(' : CodePoint) :: t) =
      ('(' : CodePoint) :: respellGroups '(' false t := by
  have closed : (('(' : CodePoint) == '(' && before.getLastD 0 != '\\' && opensName t) = false := by
    rw [Bool.eq_false_iff, Ne, Bool.and_eq_true, Bool.and_eq_true, bne_iff_ne]
    rintro ⟨⟨-, behind⟩, opens⟩
    obtain ⟨after, rfl, formed⟩ := opensName_iff.mp opens
    exact none after rfl ⟨formed, mt (getLastD_eq_iff before).mpr behind⟩
  rw [respellGroups, closed, if_neg Bool.false_ne_true]

/-- **What respelling does**: openings and references are replaced where they are looked for. -/
theorem respell_of_rewritesFrom {result : Text}
    (h : (respelling IsRespelledBehind).RewritesFrom before t result) :
    respellReferences 0 (respellGroups (before.getLastD 0) false t) = result := by
  induction h with
  | nil before => rfl
  | @sign before after result x stands _ ih =>
    rw [← ih]
    cases x with
    | opening => exact congrArg (respellReferences 0) (respellGroups_opening stands)
    | reference name =>
      have kept := respellGroups_append (not_mem_reference stands.1) before after
      refine (congrArg (respellReferences 0) kept).trans ?_
      exact respellReferences_reference stands.1
  | @keep before rest result c none _ ih =>
    rw [List.getLastD_concat] at ih
    rw [← ih]
    by_cases parenthesis : c = '('
    · subst parenthesis
      rw [respellGroups_parenthesis fun after => none .opening after]
      exact respellReferences_cons (by decide) _
    · rw [respellGroups_cons parenthesis]
      by_cases backslash : c = '\\'
      · subst backslash
        refine respellReferences_backslash fun name after formed same => ?_
        have plain := (List.ne_and_not_mem_of_not_mem_cons (not_mem_reference formed)).2
        obtain ⟨after', rfl⟩ := prefix_of_prefix_respellGroups plain ⟨after, same⟩
        exact none (.reference name) after' rfl ⟨formed, trivial⟩
      · exact respellReferences_cons backslash _

theorem rewrites_respell (source : Text) :
    (respelling IsRespelledBehind).Rewrites source (respell source) := by
  obtain ⟨result, rewritten⟩ := Rewriting.exists_rewritesFrom
    (ρ := respelling IsRespelledBehind) (fun x empty => by
      obtain ⟨c, rest, spelled, -⟩ := x.exists_spelling_eq_cons
      cases spelled.symm.trans empty) [] source
  rwa [respell, show respellReferences 0 (respellGroups 0 false source) = result from
    respell_of_rewritesFrom rewritten]

example : respell "(?<n>a)\\k<n>" = "(?P<n>a)(?P=n)" := by decide +kernel

end

/-! ## Where signs are meant -/

/-- What a place in a source **belongs to**. -/
inductive Zone where
  /-- The pattern itself. -/
  | pattern
  /-- A class that has just been opened. -/
  | opened
  /-- A class behind the sign that negates it. -/
  | negated
  /-- A class that has a member. -/
  | members
  deriving DecidableEq

namespace Zone

/-- The zone behind a code point that is not escaped. Notations differ in whether a closing bracket
that comes first in a class is a member of it, and `leading` tells that it is. -/
def next (leading : Bool) (z : Zone) (c : CodePoint) : Zone :=
  match z with
  | pattern => if c = '[' then opened else pattern
  | opened => if c = '^' then negated else if c = ']' ∧ ¬ leading then pattern else members
  | negated => if c = ']' ∧ ¬ leading then pattern else members
  | members => if c = ']' then pattern else members

/-- The zone behind a code point that is escaped: in a class this is a member. -/
def nextEscaped : Zone → Zone
  | pattern => pattern
  | _ => members

/-- The zone **behind a text**. `hidden` tells that a backslash escapes its first code point. -/
def behind (leading : Bool) (z : Zone) (hidden : Bool) : Text → Zone
  | [] => z
  | c :: rest =>
    if hidden then z.nextEscaped.behind leading false rest
    else if c = '\\' then z.behind leading true rest
    else (z.next leading c).behind leading false rest

end Zone

/-- The notation **is free** behind a text if nothing escapes what comes there and no class has been
left open. -/
def IsFree (leading : Bool) (before : Text) : Prop :=
  ¬ before.HidesNext ∧ Zone.pattern.behind leading false before = .pattern

/-- The rewriting of the signs that are **meant as such**. -/
def meant (leading : Bool) : Rewriting NamedSign :=
  respelling fun _ before => IsFree leading before

/-- The pattern of a regular expression is read from the respelled source. -/
theorem parse_of_compile {named? : Text → Option CodePoint} {source flags : Text} {r : Regexp}
    (h : compile named? source flags = .ok r) :
    Pattern.parse named? (respell source) (flags.filter matchingFlags.contains)
      = .ok r.pattern := by
  unfold compile at h
  split at h
  · cases h
  · dsimp only at h
    split at h
    · rename_i parsed
      cases h
      exact parsed
    · cases h
    · cases h

/-- What is read as a pattern is the source with the signs replaced that respelling looks for, and
nothing else. **It is the source as it is meant** exactly if a backslash stands directly in front of
what looks like the opening of a group just where the notation is not free, and what looks like a
reference stands only where it is. -/
theorem respells_meant (leading : Bool) (source : Text) :
    (∀ named? flags r, compile named? source flags = .ok r →
      Pattern.parse named? (respell source) (flags.filter matchingFlags.contains) = .ok r.pattern)
    ∧ (respelling IsRespelledBehind).Rewrites source (respell source)
    ∧ ((meant leading).Rewrites source (respell source) ↔
      (∀ before after, before ++ NamedSign.opening.spelling ++ after = source →
        NamedSign.opening.IsFormed after →
          (before.getLast? = some ('\\' : CodePoint) ↔ ¬ IsFree leading before))
      ∧ ∀ before name after, before ++ (NamedSign.reference name).spelling ++ after = source →
        (NamedSign.reference name).IsFormed after → IsFree leading before) := by
  refine ⟨fun _ _ _ => parse_of_compile, rewrites_respell source,
    (rewritesFrom_iff (rewrites_respell source)).trans ?_⟩
  constructor
  · refine fun agree => ⟨fun before after whole formed => ?_, fun before name after whole formed => ?_⟩
    · exact (not_iff_comm.mp (agree before .opening after whole formed)).symm
    · exact (agree before (.reference name) after whole formed).mp trivial
  · rintro ⟨openings, references⟩ before x after whole formed
    cases x with
    | opening => exact not_iff_comm.mpr (openings before after whole formed).symm
    | reference name => exact iff_of_true trivial (references before name after whole formed)

/-- Behind a backslash that is escaped itself, the opening of a group is left as it is. -/
theorem not_respells_meant_of_escaped_backslash :
    ¬ ∃ leading, (meant leading).Rewrites "\\\\(?<n>x)" (respell "\\\\(?<n>x)") := by
  rintro ⟨leading, rewritten⟩
  have agree := (rewritesFrom_iff (rewrites_respell _)).mp rewritten
  have free : IsFree leading "\\\\" := ⟨by unfold Text.HidesNext; decide, rfl⟩
  have formed : NamedSign.opening.IsFormed "n>x)" := by unfold NamedSign.IsFormed; decide
  exact (agree "\\\\" .opening "n>x)" rfl formed).mpr free rfl

end Regexp

end Scriptlet
