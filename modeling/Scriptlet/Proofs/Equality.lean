import Mathlib.Order.Basic
import Scriptlet.Value.Equality

/-!
# The two equalities

Strict equality is symmetric because everything that it goes back to is: the comparison of numbers
across their two kinds, and being one and the same.

Loose equality is told in steps. As long as the values are of different categories one of them is
coerced, on the left before the right, and the rules apply again to what it has become; a truth value
next to a list meets it as a number first, and then the list has to become a text. What is coerced is
a truth value or compound, and it becomes a number or a text, which is never coerced. So there are at
most two steps, one on either side, and as neither looks at the other side but for its category, it
does not matter which comes first.
-/

namespace Scriptlet

open Float.Model (UnpackedFloat)

/-! ## Numbers -/

/-- Powers and mantissas compare the other way round when they are exchanged. -/
theorem compare_parts_swap (m n : Nat) (p q : Int) :
    (compare q p).then (compare n m) = ((compare p q).then (compare m n)).swap := by
  rw [Ordering.swap_then, Int.compare_swap, Nat.compare_swap]

theorem UnpackedFloat.compare_swap (a b : UnpackedFloat) :
    b.compare a = (a.compare b).map Ordering.swap := by
  cases a with
  | notANumber => rcases b with (_ | _) | _ | _ | ⟨_ | _, _⟩ <;> rfl
  | infinity sign => rcases sign with _ | _ <;> rcases b with (_ | _) | _ | _ | ⟨_ | _, _⟩ <;> rfl
  | zero sign => rcases b with (_ | _) | _ | _ | ⟨_ | _, _⟩ <;> rfl
  | finite sign m p =>
    cases b with
    | notANumber => cases sign <;> rfl
    | infinity other => cases sign <;> cases other <;> rfl
    | zero other => cases sign <;> rfl
    | finite other n q =>
      have flipped := compare_parts_swap m n p q
      cases sign <;> cases other
      · exact congrArg some (congrArg Ordering.swap flipped)
      · rfl
      · rfl
      · exact congrArg some flipped

/-- Two floats compare as the model of floats says. -/
theorem compareFloats_eq (x y : Float) :
    Number.compare? (.float x) (.float y) = x.toModel.unpack.compare y.toModel.unpack := by
  have less (x y : Float) : x < y ↔ x.toModel.unpack.compare y.toModel.unpack = some .lt := by
    show decide (x.toModel < y.toModel) = true ↔ _
    rw [decide_eq_true_iff]
    exact beq_iff_eq
  have equal : (x == y) = (x.toModel.unpack.compare y.toModel.unpack == some .eq) := rfl
  rw [Number.compare?, equal]
  simp only [less]
  rw [UnpackedFloat.compare_swap x.toModel.unpack]
  rcases x.toModel.unpack.compare y.toModel.unpack with _ | _ | _ | _ <;> rfl

/-- **Numbers compare the other way round when they are exchanged.** -/
theorem Number.compare?_swap (a b : Number) : b.compare? a = (a.compare? b).map Ordering.swap := by
  cases a with
  | int m =>
    cases b with
    | int n => exact congrArg some (Int.compare_swap m n).symm
    | float y => rfl
  | float x =>
    cases b with
    | int n =>
      rw [Number.compare?, Number.compare?, Option.map_map]
      rcases compareIntFloat n x with _ | _ | _ | _ <;> rfl
    | float y => rw [compareFloats_eq, compareFloats_eq, UnpackedFloat.compare_swap]

theorem Number.equal_comm (a b : Number) : a.equal b = b.equal a := by
  rw [Number.equal, Number.equal, Number.compare?_swap a b]
  rcases a.compare? b with _ | _ | _ | _ <;> rfl

/-! ## Strict equality -/

variable {s : Store} {a b a' b' : Value} {n : Nat} {u : Unmet}

theorem Value.isSame_comm (a b : Value) : a.isSame b = b.isSame a := by
  cases a <;> cases b <;> simp only [isSame, Bool.beq_comm]

theorem Value.strictlyEquals_comm (a b : Value) : a.strictlyEquals b = b.strictlyEquals a := by
  unfold Value.strictlyEquals
  have categories : (a.category == b.category) = (b.category == a.category) := Bool.beq_comm
  rw [categories]
  congr 1
  cases a with
  | bool x =>
    cases b with
    | bool y => exact Bool.beq_comm
    | _ => rfl
  | number x =>
    cases b with
    | number y => exact x.equal_comm y
    | _ => rfl
  | text x =>
    cases b with
    | text y => exact Bool.beq_comm
    | _ => rfl
  | _ => cases b <;> exact Value.isSame_comm _ _

theorem Value.category_eq_of_strictlyEquals (h : a.strictlyEquals b = true) :
    a.category = b.category :=
  beq_iff_eq.mp (Bool.and_eq_true_iff.mp h).1

/-! ## Coercions -/

/-- Whether values of a category **yield** to those of another, that is whether they are coerced next
to them: truth values yield to all but undefined, null and other truth values, and what is compound
yields to numbers and texts. -/
def Category.yieldsTo : Category → Category → Bool
  | .boolean, other => other != .boolean && other != .undefined && other != .null
  | .object, other | .function, other => other == .number || other == .text
  | _, _ => false

/-- What a value **is coerced to**: a truth value to its number, and what is compound to its text. -/
def Store.coerced (s : Store) (v : Value) : Except Unmet Value :=
  s.primitive v.boolToNumber

/-- What decides between two values of which **neither is coerced**: strict equality within a
category, the number of a text next to a number, and otherwise whether both are undefined or null. -/
def Value.decided (a b : Value) : Except Unmet Bool :=
  if a.category = b.category then .ok (a.strictlyEquals b)
  else
    match a, b with
    | .number x, .text t => x.equal <$> numberOfText t
    | .text t, .number y => (Number.equal · y) <$> numberOfText t
    | a, b => .ok (a.isNullish && b.isNullish)

/-- **How two values are compared**: one of them is coerced, the left one first, and the rules apply
again, until neither yields to the other. The number is that of the coercions. -/
inductive Store.Equates (s : Store) : Nat → Value → Value → Except Unmet Bool → Prop
  /-- Neither yields. -/
  | decided {a b : Value} (left : a.category.yieldsTo b.category = false)
    (right : b.category.yieldsTo a.category = false) : Equates s 0 a b (a.decided b)
  /-- The left one yields. -/
  | left {a b a' : Value} {n : Nat} {r : Except Unmet Bool}
    (left : a.category.yieldsTo b.category = true) (coerced : s.coerced a = .ok a')
    (rest : Equates s n a' b r) : Equates s (n + 1) a b r
  /-- The right one yields. -/
  | right {a b b' : Value} {n : Nat} {r : Except Unmet Bool}
    (left : a.category.yieldsTo b.category = false) (right : b.category.yieldsTo a.category = true)
    (coerced : s.coerced b = .ok b') (rest : Equates s n a b' r) : Equates s (n + 1) a b r
  /-- The left one yields and has no text. -/
  | leftFails {a b : Value} {u : Unmet} (left : a.category.yieldsTo b.category = true)
    (coerced : s.coerced a = .error u) : Equates s 0 a b (.error u)
  /-- The right one yields and has no text. -/
  | rightFails {a b : Value} {u : Unmet} (left : a.category.yieldsTo b.category = false)
    (right : b.category.yieldsTo a.category = true) (coerced : s.coerced b = .error u) :
    Equates s 0 a b (.error u)

namespace Category

variable {c d : Category}

/-- Undefined and null. -/
def isNullish (c : Category) : Bool :=
  c == .undefined || c == .null

/-- Numbers and texts, which **never yield**. -/
def isPlain (c : Category) : Bool :=
  c == .number || c == .text

/-- Objects and functions. -/
def isCompound (c : Category) : Bool :=
  c == .object || c == .function

/-- How many coercions a value of the category may need. -/
def rank (c : Category) : Nat :=
  if c == .boolean || c.isCompound then 1 else 0

/-- Categories **meet** if something has to be done about their values: neither is undefined or null,
they are not the same, and not both are compound. -/
structure Meets (c d : Category) : Prop where
  left : c.isNullish = false
  right : d.isNullish = false
  differ : c ≠ d
  apart : (c.isCompound && d.isCompound) = false

theorem Meets.symm (h : c.Meets d) : d.Meets c :=
  ⟨h.right, h.left, Ne.symm h.differ, (Bool.and_comm _ _).trans h.apart⟩

theorem meets_of_yieldsTo (h : c.yieldsTo d = true) : c.Meets d ∧ c.rank = 1 := by
  have facts : c.isNullish = false ∧ d.isNullish = false ∧ c ≠ d
      ∧ (c.isCompound && d.isCompound) = false ∧ c.rank = 1 := by
    revert h
    cases c <;> cases d <;> decide
  exact ⟨⟨facts.1, facts.2.1, facts.2.2.1, facts.2.2.2.1⟩, facts.2.2.2.2⟩

/-- Where neither yields, the categories do not meet or both are plain. -/
theorem not_meets_of_not_yieldsTo (left : c.yieldsTo d = false) (right : d.yieldsTo c = false) :
    ¬ c.Meets d ∨ c.isPlain = true ∧ d.isPlain = true := by
  by_cases meets : c.Meets d
  · refine .inr ?_
    obtain ⟨h₁, h₂, h₃, h₄⟩ := meets
    revert left right h₁ h₂ h₃ h₄
    cases c <;> cases d <;> decide
  · exact .inl meets

theorem rank_le (c : Category) : c.rank ≤ 1 := by
  cases c <;> decide

theorem rank_of_isPlain (h : c.isPlain = true) : c.rank = 0 := by
  revert h
  cases c <;> decide

theorem meets_of_isPlain (h : c.isPlain = true) (some : d.isNullish = false) (differ : c ≠ d) :
    c.Meets d := by
  refine ⟨?_, some, differ, ?_⟩
  · revert h
    cases c <;> decide
  · revert h
    cases c <;> cases d <;> decide

end Category

theorem Value.isNullish_eq (v : Value) : v.isNullish = v.category.isNullish := by
  cases v <;> rfl

namespace Store

/-! ### What coercion gives -/

theorem coerced_plain (s : Store) (h : a.category.isPlain = true) : s.coerced a = .ok a := by
  cases a with
  | number x | text x => rfl
  | _ => cases h

theorem exists_coerced (s : Store) (h : a.isCompound = false) : ∃ p, s.coerced a = .ok p := by
  cases a with
  | undefined | null | bool x | number x | text x => exact ⟨_, rfl⟩
  | _ => cases h

theorem isPlain_of_coerced (some : a.isNullish = false) (h : s.coerced a = .ok a') :
    a'.category.isPlain = true := by
  have text {r : Except Unmet Text} (made : Value.text <$> r = .ok a') :
      a'.category.isPlain = true := by
    cases r with
    | ok t => cases made; rfl
    | error u => cases made
  cases a with
  | undefined | null => cases some
  | bool x | number x | text x => cases h; rfl
  | _ => exact text h

/-! ### Loose equality by coercions on both sides -/

theorem looselyEquals_of_category (h : a.category = b.category) :
    s.looselyEquals a b = .ok (a.strictlyEquals b) :=
  if_pos h

theorem isCompound_boolToNumber (v : Value) : v.boolToNumber.isCompound = v.isCompound := by
  cases v <;> rfl

/-- Where the categories meet, **both values are coerced**. -/
theorem looselyEquals_of_meets (h : a.category.Meets b.category) :
    s.looselyEquals a b = (do s.equalPrimitives (← s.coerced a) (← s.coerced b)) := by
  have left := a.isNullish_eq.trans h.left
  have right := b.isNullish_eq.trans h.right
  have apart : (a.isCompound && b.isCompound) = false := h.apart
  rw [looselyEquals, if_neg h.differ, left, right, if_neg nofun]
  dsimp only
  rw [isCompound_boolToNumber, isCompound_boolToNumber, apart, if_neg nofun]
  rfl

/-- Where they do not, the values are told apart by what they are. -/
theorem looselyEquals_of_not_meets (h : ¬ a.category.Meets b.category) :
    s.looselyEquals a b =
      .ok (if a.category = b.category then a.strictlyEquals b else a.isNullish && b.isNullish) := by
  rw [looselyEquals]
  by_cases same : a.category = b.category
  · rw [if_pos same, if_pos same]
  · rw [if_neg same, if_neg same]
    by_cases nullish : (a.isNullish || b.isNullish) = true
    · rw [if_pos nullish]
    · have none : a.isNullish = false ∧ b.isNullish = false := by simpa using nullish
      have both : (a.isCompound && b.isCompound) = true := by
        by_contra apart
        exact h ⟨a.isNullish_eq.symm.trans none.1, b.isNullish_eq.symm.trans none.2, same,
          Bool.not_eq_true _ ▸ apart⟩
      rw [if_neg nullish]
      dsimp only
      rw [isCompound_boolToNumber, isCompound_boolToNumber, both, if_pos rfl, none.1, none.2]
      rfl

/-- Two computations of which one succeeds can be done in either order. -/
theorem bind_comm {α β γ : Type} {x : Except Unmet α} {y : Except Unmet β}
    (h : (∃ a, x = .ok a) ∨ ∃ b, y = .ok b) (f : α → β → Except Unmet γ) :
    (do f (← x) (← y)) = (do let b ← y; let a ← x; f a b) := by
  rcases h with ⟨a, rfl⟩ | ⟨b, rfl⟩
  · rfl
  · cases x <;> rfl

theorem exists_numberOf (s : Store) (h : a.category = .number) : ∃ n, s.numberOf a = .ok n := by
  cases a with
  | number n => exact ⟨n, rfl⟩
  | _ => cases h

theorem equalPrimitives_comm (s : Store) (left : a.category.isPlain = true)
    (right : b.category.isPlain = true) : s.equalPrimitives a b = s.equalPrimitives b a := by
  rw [equalPrimitives, equalPrimitives]
  by_cases same : a.category = b.category
  · rw [if_pos same, if_pos same.symm, Value.strictlyEquals_comm]
  · rw [if_neg same, if_neg (Ne.symm same)]
    have number : a.category = .number ∨ b.category = .number := by
      revert left right same
      cases a.category <;> cases b.category <;> decide
    refine (bind_comm (number.imp s.exists_numberOf s.exists_numberOf)
      fun x y => .ok (x.equal y)).trans ?_
    simp only [Number.equal_comm]
    rfl

/-- **Loose equality is symmetric**, in what it gives and in what it fails for. -/
theorem looselyEquals_symm (s : Store) (a b : Value) : s.looselyEquals a b = s.looselyEquals b a := by
  by_cases meets : a.category.Meets b.category
  · rw [looselyEquals_of_meets meets, looselyEquals_of_meets meets.symm]
    have oneSucceeds : (∃ p, s.coerced a = .ok p) ∨ ∃ q, s.coerced b = .ok q :=
      (Bool.and_eq_false_iff.mp meets.apart).imp s.exists_coerced s.exists_coerced
    rw [bind_comm oneSucceeds]
    cases left : s.coerced a with
    | error u => cases s.coerced b <;> rfl
    | ok p =>
      cases right : s.coerced b with
      | error u => rfl
      | ok q =>
        exact s.equalPrimitives_comm (isPlain_of_coerced (a.isNullish_eq.trans meets.left) left)
          (isPlain_of_coerced (b.isNullish_eq.trans meets.right) right)
  · rw [looselyEquals_of_not_meets meets, looselyEquals_of_not_meets fun h => meets h.symm]
    simp only [eq_comm (a := a.category), Value.strictlyEquals_comm a, Bool.and_comm]

/-! ### Loose equality by one coercion after another -/

/-- A value that yields can be coerced first. -/
theorem looselyEquals_of_coerced (yields : a.category.yieldsTo b.category = true)
    (coerced : s.coerced a = .ok a') : s.looselyEquals a b = s.looselyEquals a' b := by
  have meets := (Category.meets_of_yieldsTo yields).1
  have right := b.isNullish_eq.trans meets.right
  have plain := isPlain_of_coerced (a.isNullish_eq.trans meets.left) coerced
  rw [looselyEquals_of_meets meets, coerced]
  by_cases same : a'.category = b.category
  · have plain' := same ▸ plain
    rw [looselyEquals_of_category same, s.coerced_plain plain']
    exact if_pos same
  · rw [looselyEquals_of_meets (Category.meets_of_isPlain plain meets.right same),
      s.coerced_plain plain]

theorem looselyEquals_of_coerced_error (yields : a.category.yieldsTo b.category = true)
    (coerced : s.coerced a = .error u) : s.looselyEquals a b = .error u := by
  rw [looselyEquals_of_meets (Category.meets_of_yieldsTo yields).1, coerced]
  rfl

/-- Where neither yields it is decided. -/
theorem looselyEquals_of_not_yieldsTo (left : a.category.yieldsTo b.category = false)
    (right : b.category.yieldsTo a.category = false) : s.looselyEquals a b = a.decided b := by
  unfold Value.decided
  by_cases same : a.category = b.category
  · rw [looselyEquals_of_category same, if_pos same]
  · rw [if_neg same]
    split
    · exact looselyEquals_of_meets ⟨rfl, rfl, same, rfl⟩
    · exact looselyEquals_of_meets ⟨rfl, rfl, same, rfl⟩
    · rename_i notNumber notText
      rcases Category.not_meets_of_not_yieldsTo left right with apart | ⟨plain, plain'⟩
      · rw [looselyEquals_of_not_meets apart, if_neg same]
      · exfalso
        cases a with
        | number x =>
          cases b with
          | text t => exact notNumber x t rfl rfl
          | number y => exact same rfl
          | _ => cases plain'
        | text t =>
          cases b with
          | number y => exact notText t y rfl rfl
          | text t' => exact same rfl
          | _ => cases plain'
        | _ => cases plain

/-- A coercion takes the place of a value that needs one by a value that needs none. -/
theorem rank_of_coerced (yields : a.category.yieldsTo b.category = true)
    (coerced : s.coerced a = .ok a') : a.category.rank = 1 ∧ a'.category.rank = 0 := by
  obtain ⟨meets, one⟩ := Category.meets_of_yieldsTo yields
  have plain := isPlain_of_coerced (a.isNullish_eq.trans meets.left) coerced
  exact ⟨one, Category.rank_of_isPlain plain⟩

/-- **Every derivation ends in loose equality**, after no more coercions than the two values need. -/
theorem Equates.eq {r : Except Unmet Bool} (h : s.Equates n a b r) :
    r = s.looselyEquals a b ∧ n ≤ a.category.rank + b.category.rank := by
  induction h with
  | decided left right => exact ⟨(looselyEquals_of_not_yieldsTo left right).symm, Nat.zero_le _⟩
  | left yields coerced _ ih =>
    obtain ⟨needed, done⟩ := rank_of_coerced yields coerced
    refine ⟨ih.1.trans (looselyEquals_of_coerced yields coerced).symm, ?_⟩
    omega
  | right _ yields coerced _ ih =>
    obtain ⟨needed, done⟩ := rank_of_coerced yields coerced
    refine ⟨ih.1.trans ?_, by omega⟩
    rw [looselyEquals_symm, ← looselyEquals_of_coerced yields coerced, looselyEquals_symm]
  | leftFails yields coerced =>
    exact ⟨(looselyEquals_of_coerced_error yields coerced).symm, Nat.zero_le _⟩
  | rightFails _ yields coerced =>
    rw [looselyEquals_symm]
    exact ⟨(looselyEquals_of_coerced_error yields coerced).symm, Nat.zero_le _⟩

/-- **The rules come to an end**, as each coercion leaves less to coerce. -/
theorem exists_equates (s : Store) (a b : Value) : ∃ n r, s.Equates n a b r := by
  induction needed : a.category.rank + b.category.rank using Nat.strongRecOn
    generalizing a b with
  | _ needed ih =>
    cases left : a.category.yieldsTo b.category with
    | true =>
      cases coerced : s.coerced a with
      | error u => exact ⟨0, _, .leftFails left coerced⟩
      | ok a' =>
        obtain ⟨one, zero⟩ := rank_of_coerced left coerced
        obtain ⟨n, r, rest⟩ := ih _ (by omega) a' b rfl
        exact ⟨n + 1, r, .left left coerced rest⟩
    | false =>
      cases right : b.category.yieldsTo a.category with
      | true =>
        cases coerced : s.coerced b with
        | error u => exact ⟨0, _, .rightFails left right coerced⟩
        | ok b' =>
          obtain ⟨one, zero⟩ := rank_of_coerced right coerced
          obtain ⟨n, r, rest⟩ := ih _ (by omega) a b' rfl
          exact ⟨n + 1, r, .right left right coerced rest⟩
      | false => exact ⟨0, _, .decided left right⟩

/-- **Loose equality is a symmetric extension of strict equality**: both are symmetric, the loose one
holds where the strict one does and is the same within a category, and the rules that it follows come
to an end after at most two coercions, in one way only. -/
theorem looselyEquals_extends (s : Store) (a b : Value) :
    s.looselyEquals a b = s.looselyEquals b a
    ∧ a.strictlyEquals b = b.strictlyEquals a
    ∧ (a.strictlyEquals b = true → s.looselyEquals a b = .ok true)
    ∧ (a.category = b.category → s.looselyEquals a b = .ok (a.strictlyEquals b))
    ∧ (∃ n, s.Equates n a b (s.looselyEquals a b))
    ∧ ∀ n r, s.Equates n a b r → n ≤ 2 ∧ r = s.looselyEquals a b := by
  refine ⟨s.looselyEquals_symm a b, a.strictlyEquals_comm b, fun strict => ?_,
    looselyEquals_of_category, ?_, fun n r derived => ?_⟩
  · rw [looselyEquals_of_category (Value.category_eq_of_strictlyEquals strict), strict]
  · obtain ⟨n, r, derived⟩ := s.exists_equates a b
    exact ⟨n, derived.eq.1 ▸ derived⟩
  · have left := a.category.rank_le
    have right := b.category.rank_le
    obtain ⟨result, bound⟩ := derived.eq
    exact ⟨by omega, result⟩

/-- A list with one text in it is equal to itself and to no other, and loosely to true: the truth value
becomes a number, and the list a text, whose number it is. -/
theorem looselyEquals_extends_of_list :
    ∃ s : Store, ((Value.list 0).strictlyEquals (.list 0) = true
        ∧ s.looselyEquals (.list 0) (.list 0) = .ok true)
      ∧ ((Value.list 0).category = (Value.list 1).category
        ∧ s.looselyEquals (.list 0) (.list 1) = .ok false)
      ∧ s.Equates 2 (.bool true) (.list 0) (.ok true) ∧ s.looselyEquals (.bool true) (.list 0) = .ok true
      ∧ s.looselyEquals (.list 0) (.bool true) = .ok true := by
  refine ⟨(empty.newList [.text "1"]).2, ⟨rfl, (looselyEquals_extends _ _ _).2.2.1 rfl⟩,
    ⟨rfl, (looselyEquals_extends _ _ _).2.2.2.1 rfl⟩, ?_⟩
  have text : (empty.newList [.text "1"]).2.textOf (.list 0) = .ok "1" := by decide +kernel
  have coerced : (empty.newList [.text "1"]).2.coerced (.list 0) = .ok (.text "1") := by
    show Value.text <$> (empty.newList [.text "1"]).2.textOf (.list 0) = _
    rw [text]
    rfl
  have verdict : (Value.int 1).decided (.text "1") = .ok true := by decide +kernel
  have derived : (empty.newList [.text "1"]).2.Equates 2 (.bool true) (.list 0) (.ok true) :=
    .left rfl rfl (.right rfl rfl coerced (verdict ▸ .decided rfl rfl))
  obtain ⟨symm, -, -, -, -, unique⟩ :=
    looselyEquals_extends (empty.newList [.text "1"]).2 (.bool true) (.list 0)
  exact ⟨derived, (unique 2 _ derived).2.symm, symm.symm.trans (unique 2 _ derived).2.symm⟩

end Store

end Scriptlet
