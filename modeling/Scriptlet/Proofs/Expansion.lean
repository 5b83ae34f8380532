import Mathlib.Data.List.TakeWhile
import Scriptlet.Method.Replacement
import Scriptlet.Proofs.Rewriting

/-!
# Templates and what they expand to

In a template a dollar sign and a mark behind it refer to something: to a dollar sign, to what was
matched, to what stands before or after it, or to what one of the groups has matched. A group goes
by its number, and a number takes two digits whenever there are two. Other digits behind a dollar
sign refer to nothing, and then the dollar sign stands for itself like any code point.

The expansion of a template is the rewriting of these references: nothing but references is
replaced, from left to right, each by what it means. In particular a text without dollar signs
stands for itself, and so does every text once its dollar signs are doubled.
-/

namespace Scriptlet

/-! ## References -/

/-- What a template **refers to**. -/
inductive Reference where
  /-- A dollar sign. -/
  | dollar
  /-- What was matched. -/
  | whole
  /-- The text before the match. -/
  | before
  /-- The text after the match. -/
  | after
  /-- A group, by the digits of its number. -/
  | group (digits : Text)

namespace Reference

/-- What stands behind the dollar sign. -/
def mark : Reference → Text
  | dollar => ['$']
  | whole => ['&']
  | before => [backtick]
  | after => [singleQuote]
  | group digits => digits

/-- Whether there is such a reference, among so many groups and in front of the text that follows:
the number of a group is that of a group and has one digit or two, two whenever there are two. -/
def IsMeant (groups : Nat) (following : Text) : Reference → Prop
  | group digits =>
    (∀ c ∈ digits, Text.isDecimal c = true)
      ∧ (digits.length = 2
        ∨ digits.length = 1 ∧ ∀ c ∈ following.head?, Text.isDecimal c = false)
      ∧ 1 ≤ valueOfDecimals digits ∧ valueOfDecimals digits ≤ groups
  | _ => True

end Reference

/-- What a reference **means** for a match. A group that has not matched means nothing. -/
def Match.meaning (m : Match) : Reference → Text
  | .dollar => ['$']
  | .whole => m.text
  | .before => m.before
  | .after => m.after
  | .group digits => (m.captures.getD (valueOfDecimals digits - 1) none).getD []

/-- **The references of templates**, as signs that are rewritten to what they mean. -/
def Match.references (m : Match) : Rewriting Reference where
  spelling x := '$' :: x.mark
  replacement := m.meaning
  Stands x _ following := x.IsMeant m.groups.length following

/-- A text with its dollar signs **doubled**. -/
def Text.doubleDollars (t : Text) : Text :=
  t.flatMap fun c : CodePoint => if c == '$' then ['$', '$'] else [c]

/-! ## Expansion -/

namespace Match

variable {m : Match} {before t u rest result : Text}

theorem expandFrom_hidden (m : Match) (n : Nat) (t : Text) :
    m.expandFrom n t = m.expandFrom 0 (t.drop n) := by
  induction t generalizing n with
  | nil => rw [List.drop_nil]; rfl
  | cons c rest ih =>
    cases n with
    | zero => rfl
    | succ n => exact ih n

theorem expandFrom_cons {c : CodePoint} (plain : c ≠ '$') (rest : Text) :
    m.expandFrom 0 (c :: rest) = c :: m.expandFrom 0 rest := by
  rw [expandFrom, if_neg (by simpa using plain)]

theorem expandFrom_append (plain : ('$' : CodePoint) ∉ t) (rest : Text) :
    m.expandFrom 0 (t ++ rest) = t ++ m.expandFrom 0 rest := by
  induction t with
  | nil => rfl
  | cons c t ih =>
    rw [List.mem_cons, not_or] at plain
    rw [List.cons_append, expandFrom_cons (Ne.symm plain.1), ih plain.2, List.cons_append]

/-- A dollar sign is followed by what its reference means, if it has one. -/
theorem expandFrom_dollar {meaning : Text} {n : Nat} (h : m.reference? rest = some (meaning, n)) :
    m.expandFrom 0 ('$' :: rest) = meaning ++ m.expandFrom 0 (rest.drop n) := by
  rw [expandFrom, if_pos (by decide)]
  simp only [h]
  rw [expandFrom_hidden]

/-! ### Digits -/

theorem prefix_groupDigits (t : Text) : groupDigits t <+: t :=
  (List.takeWhile_prefix _).trans (List.take_prefix 2 t)

theorem isDecimal_of_mem_groupDigits {c : CodePoint} (h : c ∈ groupDigits t) :
    Text.isDecimal c = true :=
  List.all_eq_true.mp List.all_takeWhile c h

/-- Digits are no marks, nor dollar signs. -/
theorem ne_of_isDecimal {c d : CodePoint} (h : Text.isDecimal c = true)
    (mark : d ∈ [('$' : CodePoint), '&', backtick, singleQuote]) : c ≠ d := by
  rintro rfl
  have none : ∀ d ∈ [('$' : CodePoint), '&', backtick, singleQuote], Text.isDecimal d = false := by
    decide +kernel
  rw [none c mark] at h
  cases h

/-- The digits of a number are those that are taken for it, -/
theorem groupDigits_append {digits following : Text} (h : (Reference.group digits).IsMeant n following) :
    groupDigits (digits ++ following) = digits := by
  obtain ⟨decimal, two | ⟨one, last⟩, -⟩ := h
  · rw [groupDigits, ← two, List.take_left, List.takeWhile_eq_self_iff.mpr decimal]
  · obtain ⟨d, rfl⟩ := List.length_eq_one_iff.mp one
    rw [groupDigits, List.singleton_append, List.take_succ_cons,
      List.takeWhile_cons_of_pos (decimal d List.mem_cons_self)]
    cases following with
    | nil => rfl
    | cons c following =>
      rw [List.take_succ_cons, List.takeWhile_cons_of_neg]
      rw [last c rfl]
      exact Bool.false_ne_true

/-- and what is taken for a number are its digits. -/
theorem isMeant_groupDigits {n : Nat} (some : groupDigits t ≠ [])
    (least : 1 ≤ valueOfDecimals (groupDigits t)) (most : valueOfDecimals (groupDigits t) ≤ n) :
    (Reference.group (groupDigits t)).IsMeant n (t.drop (groupDigits t).length) := by
  refine ⟨fun c => isDecimal_of_mem_groupDigits, ?_, least, most⟩
  match t with
  | [] => exact absurd rfl some
  | [c] =>
    have taken : groupDigits [c] = [c] := by
      by_cases hc : Text.isDecimal c = true
      · exact List.takeWhile_cons_of_pos hc
      · exact absurd (List.takeWhile_cons_of_neg hc) some
    rw [taken]
    exact .inr ⟨rfl, nofun⟩
  | c :: d :: rest =>
    have first : Text.isDecimal c = true := by
      by_contra hc
      exact some (List.takeWhile_cons_of_neg hc)
    have taken : groupDigits (c :: d :: rest) = c :: List.takeWhile Text.isDecimal [d] :=
      List.takeWhile_cons_of_pos first
    rw [taken]
    cases hd : Text.isDecimal d with
    | true => exact .inl (by rw [List.takeWhile_cons_of_pos hd]; rfl)
    | false =>
      rw [List.takeWhile_cons_of_neg (by rw [hd]; exact Bool.false_ne_true)]
      exact .inr ⟨rfl, fun e he => by cases he; exact hd⟩

/-! ### Signs -/

/-- A reference is found behind its dollar sign. -/
theorem reference?_append {x : Reference} (meant : x.IsMeant m.groups.length rest) :
    m.reference? (x.mark ++ rest) = some (m.meaning x, x.mark.length) := by
  cases x with
  | dollar | whole | before | after => rfl
  | group digits =>
    have taken := groupDigits_append meant
    obtain ⟨decimal, length, number⟩ := meant
    match digits with
    | [] => rcases length with two | ⟨one, -⟩ <;> contradiction
    | c :: digits =>
      have mark (d : CodePoint) (hd : d ∈ [('$' : CodePoint), '&', backtick, singleQuote]) :
          (c == d) = false :=
        beq_false_of_ne (ne_of_isDecimal (decimal c List.mem_cons_self) hd)
      have inRange : (decide (1 ≤ valueOfDecimals (c :: digits)) &&
          decide (valueOfDecimals (c :: digits) ≤ m.groups.length)) = true := by
        rw [decide_eq_true number.1, decide_eq_true number.2]
        rfl
      show m.reference? (c :: (digits ++ rest)) = _
      unfold reference?
      simp only [mark '$' (by decide), mark '&' (by decide), mark backtick (by decide),
        mark singleQuote (by decide), Bool.false_eq_true, if_false]
      rw [← List.cons_append, taken]
      simp only [List.isEmpty_cons, Bool.false_eq_true, if_false, inRange, if_true]
      rfl

/-- A dollar sign that refers to nothing is followed by what follows it. -/
theorem expandFrom_dollar_of_not_meant
    (none : ∀ (x : Reference) after, x.mark ++ after = rest → ¬ x.IsMeant m.groups.length after) :
    m.expandFrom 0 ('$' :: rest) = ('$' : CodePoint) :: m.expandFrom 0 rest := by
  match rest with
  | [] => rfl
  | c :: after =>
    have mark (x : Reference) (meant : x.IsMeant m.groups.length after) (d : CodePoint)
        (hd : x.mark = [d]) : (c == d) = false :=
      beq_false_of_ne fun same => none x after (by rw [hd, same]; rfl) meant
    have found : m.reference? (c :: after) =
        if (groupDigits (c :: after)).isEmpty then Option.none
        else if 1 ≤ valueOfDecimals (groupDigits (c :: after)) &&
            valueOfDecimals (groupDigits (c :: after)) ≤ m.groups.length then
          some ((m.captures.getD (valueOfDecimals (groupDigits (c :: after)) - 1) Option.none).getD [],
            (groupDigits (c :: after)).length)
        else some ("$" ++ groupDigits (c :: after), (groupDigits (c :: after)).length) := by
      rw [reference?]
      simp only [mark .dollar trivial _ rfl, mark .whole trivial _ rfl, mark .before trivial _ rfl,
        mark .after trivial _ rfl, Bool.false_eq_true, if_false]
    generalize hd : groupDigits (c :: after) = digits at found
    split_ifs at found with empty inRange
    · rw [expandFrom, if_pos (by decide)]
      simp only [found]
    · have number : 1 ≤ valueOfDecimals digits ∧ valueOfDecimals digits ≤ m.groups.length := by
        simpa using inRange
      subst hd
      refine absurd (isMeant_groupDigits (by simpa using empty) number.1 number.2) (none _ _ ?_)
      exact List.prefix_iff_eq_append.mp (prefix_groupDigits _)
    · -- The digits are passed over together, but none of them is a dollar sign.
      subst hd
      have plain : ('$' : CodePoint) ∉ groupDigits (c :: after) := fun dollar =>
        ne_of_isDecimal (isDecimal_of_mem_groupDigits dollar) (by decide) rfl
      have whole := List.prefix_iff_eq_append.mp (prefix_groupDigits (c :: after))
      have passed : m.expandFrom 0 (c :: after) = groupDigits (c :: after) ++
          m.expandFrom 0 ((c :: after).drop (groupDigits (c :: after)).length) := by
        rw [← expandFrom_append plain, whole]
      rw [expandFrom_dollar found, passed]
      rfl

/-- **Expanding is rewriting the references.** -/
theorem expandFrom_of_rewritesFrom (h : m.references.RewritesFrom before t result) :
    m.expandFrom 0 t = result := by
  induction h with
  | nil before => rfl
  | sign x meant _ ih =>
    rw [← ih]
    exact (expandFrom_dollar (reference?_append meant)).trans (by rw [List.drop_left]; rfl)
  | @keep before rest result c none _ ih =>
    rw [← ih]
    by_cases plain : c = '$'
    · subst plain
      exact expandFrom_dollar_of_not_meant fun x after same => none x after (congrArg _ same)
    · exact expandFrom_cons plain rest

theorem rewrites_expand (m : Match) (t : Text) : m.references.Rewrites t (m.expand t) := by
  obtain ⟨result, rewritten⟩ := Rewriting.exists_rewritesFrom
    (ρ := m.references) (fun x => List.cons_ne_nil _ _) [] t
  rwa [expand, expandFrom_of_rewritesFrom rewritten]

/-- A template without dollar signs stands for itself. -/
theorem expand_of_plain (m : Match) (plain : ('$' : CodePoint) ∉ t) : m.expand t = t := by
  have whole := expandFrom_append (m := m) plain []
  rwa [List.append_nil, expandFrom, List.append_nil] at whole

/-- Doubled dollar signs are rewritten to single ones. -/
theorem rewritesFrom_doubleDollars (m : Match) (before t : Text) :
    m.references.RewritesFrom before t.doubleDollars t := by
  induction t generalizing before with
  | nil => exact .nil before
  | cons c t ih =>
    by_cases dollar : c = '$'
    · subst dollar
      exact .sign .dollar trivial (ih _)
    · have single : Text.doubleDollars (c :: t) = c :: Text.doubleDollars t := by
        unfold Text.doubleDollars
        rw [List.flatMap_cons, if_neg (by simpa using dollar), List.singleton_append]
      rw [single]
      refine .keep (fun x after same _ => ?_) (ih _)
      exact dollar (List.cons.inj same).1.symm

/-- **Nothing but references is replaced in a template, each by what it means**, from left to right;
and any text is the expansion of itself with the dollar signs doubled. -/
theorem expands_references (m : Match) (t : Text) :
    m.expand t.doubleDollars = t
      ∧ ∀ result, m.expand t = result ↔ m.references.Rewrites t result := by
  refine ⟨expandFrom_of_rewritesFrom (rewritesFrom_doubleDollars m [] t), fun result => ⟨?_, ?_⟩⟩
  · rintro rfl
    exact rewrites_expand m t
  · exact expandFrom_of_rewritesFrom

end Match

end Scriptlet
