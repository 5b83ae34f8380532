import Mathlib.Algebra.Order.Field.Power
import Mathlib.Data.Int.Bitwise
import Mathlib.Data.Int.ModEq
import Mathlib.Data.Rat.Floor
import Mathlib.Tactic.Linarith
import Mathlib.Tactic.Positivity
import Scriptlet.Operator

/-!
# Words of 32 bits

The bitwise operators cut the fraction off a number and then see nothing of what is left but a word
of 32 bits, which stands for the integer between -2³¹ and 2³¹ that has it for its last bits. Integers
of any size have bits without end, those of negative ones being set from some place on. An integer of
32 bits has as many that count, and the others are as the last of them, so that it makes no
difference whether two of them are joined as words or bit by bit without end.
-/

namespace Scriptlet

/-! ## Fractions cut off -/

/-- A fraction **without what stands behind the point**. -/
def truncation (q : ℚ) : ℤ :=
  if 0 ≤ q then ⌊q⌋ else ⌈q⌉

/-- The **value** of a finite float. -/
def Binary64.value (b : Binary64) : ℚ :=
  (if b.negative then -1 else 1) * (b.mantissa * 2 ^ b.exponent)

/-- The **whole part** of a number, zero where it is not finite. -/
def Number.wholePart : Number → ℤ
  | .int n => n
  | .float x => ((Binary64.ofFloat? x).map fun b => truncation b.value).getD 0

namespace Binary64

variable {b : Binary64}

theorem cast_twoTo (n : ℕ) : ((twoTo n : ℕ) : ℚ) = 2 ^ n :=
  Nat.cast_pow 2 n

theorem floor_magnitude (b : Binary64) : ⌊(b.mantissa * 2 ^ b.exponent : ℚ)⌋ = b.floorMagnitude := by
  unfold floorMagnitude
  split
  · rename_i natural
    obtain ⟨e, exponent⟩ := Int.eq_ofNat_of_zero_le natural
    rw [exponent, zpow_natCast, ← cast_twoTo, ← Nat.cast_mul, Int.floor_natCast, Int.toNat_natCast]
  · rename_i negative
    obtain ⟨e, exponent⟩ := Int.eq_ofNat_of_zero_le (show 0 ≤ -b.exponent by omega)
    have power : (2 : ℚ) ^ b.exponent = ((twoTo e : ℕ) : ℚ)⁻¹ := by
      rw [cast_twoTo, ← zpow_natCast, ← exponent, zpow_neg, inv_inv]
    rw [power, ← div_eq_mul_inv, exponent, Int.toNat_natCast]
    exact Rat.floor_natCast_div_natCast _ _

/-- The parts of a float have the **fraction cut off toward zero**. -/
theorem truncation_value (b : Binary64) : truncation b.value = b.truncate := by
  have magnitude : (0 : ℚ) ≤ b.mantissa * 2 ^ b.exponent := by positivity
  rw [truncate, value, ← floor_magnitude]
  cases b.negative with
  | false =>
    rw [if_neg Bool.false_ne_true, if_neg Bool.false_ne_true, one_mul]
    exact if_pos magnitude
  | true =>
    rw [if_pos rfl, if_pos rfl, neg_one_mul, truncation, Int.ceil_neg]
    split
    · rename_i zero
      have none : (b.mantissa * 2 ^ b.exponent : ℚ) = 0 := by linarith
      rw [none, neg_zero, Int.floor_zero, neg_zero]
    · rfl

end Binary64

/-! ## Words -/

/-- An integer **is the word** of another: it has 32 bits with its sign, and differs from the other by
a multiple of 2³². -/
structure IsWordOf (k n : ℤ) : Prop where
  lower : -2 ^ 31 ≤ k
  upper : k < 2 ^ 31
  congruent : k ≡ n [ZMOD 2 ^ 32]

/-- What an operator does with two bits. -/
def BitOperator.onBits : BitOperator → Bool → Bool → Bool
  | or => Bool.or
  | and => Bool.and
  | xor => Bool.xor

variable {k k' m n : ℤ}

/-- The word of an integer is unique. -/
theorem IsWordOf.unique (h : IsWordOf k n) (h' : IsWordOf k' m) (same : m ≡ n [ZMOD 2 ^ 32]) :
    k' = k := by
  have congruent : k' % 2 ^ 32 = k % 2 ^ 32 := h'.congruent.trans (same.trans h.congruent.symm)
  have := h.lower
  have := h.upper
  have := h'.lower
  have := h'.upper
  omega

theorem wrapInt32_isWordOf (n : ℤ) : IsWordOf (wrapInt32 n) n where
  lower := Int.le_bmod (by decide)
  upper := Int.bmod_lt (by decide)
  congruent := Int.bmod_emod

theorem IsWordOf.wrapInt32_eq (h : IsWordOf k n) : wrapInt32 n = k :=
  h.unique (wrapInt32_isWordOf n) rfl

/-- A word is its own. -/
theorem IsWordOf.self (h : IsWordOf k n) : IsWordOf k k :=
  ⟨h.lower, h.upper, rfl⟩

/-! ### Bits -/

theorem getLsbD_ofInt (n : ℤ) {i : ℕ} (h : i < 32) : (BitVec.ofInt 32 n).getLsbD i = n.testBit i := by
  cases n with
  | ofNat a =>
    show (BitVec.ofNat 32 a).getLsbD i = a.testBit i
    rw [BitVec.getLsbD_ofNat, decide_eq_true h, Bool.true_and]
  | negSucc a =>
    rw [BitVec.ofInt_negSucc_eq_not_ofNat, BitVec.getLsbD_not, BitVec.getLsbD_ofNat,
      decide_eq_true h, Bool.true_and, Bool.true_and]
    rfl

theorem testBit_toInt (x : BitVec 32) {i : ℕ} (h : i < 32) : x.toInt.testBit i = x.getLsbD i := by
  rw [← getLsbD_ofInt _ h, BitVec.ofInt_toInt]

theorem ofInt_wrapInt32 (n : ℤ) : BitVec.ofInt 32 (wrapInt32 n) = BitVec.ofInt 32 n := by
  have word : wrapInt32 n = (BitVec.ofInt 32 n).toInt := (BitVec.toInt_ofInt n).symm
  rw [word, BitVec.ofInt_toInt]

theorem toInt_ofInt (h : IsWordOf k n) : (BitVec.ofInt 32 k).toInt = k :=
  (BitVec.toInt_ofInt k).trans h.self.wrapInt32_eq

/-- A word **has the last bits** of its integer. -/
theorem IsWordOf.testBit (h : IsWordOf k n) {i : ℕ} (low : i < 32) : k.testBit i = n.testBit i := by
  rw [← h.wrapInt32_eq, ← getLsbD_ofInt _ low, ← getLsbD_ofInt _ low, ofInt_wrapInt32]

/-- From the last of its bits on, those of a word **tell its sign**. -/
theorem IsWordOf.testBit_of_le (h : IsWordOf k n) {i : ℕ} (high : 31 ≤ i) :
    k.testBit i = decide (k < 0) := by
  have bound : 2 ^ 31 ≤ 2 ^ i := Nat.pow_le_pow_right (by decide) high
  have lower := h.lower
  have upper := h.upper
  cases k with
  | ofNat a =>
    have small : a < 2 ^ i := by rw [Int.ofNat_eq_natCast] at upper; omega
    exact (Nat.testBit_lt_two_pow small).trans (decide_eq_false (Int.not_lt.mpr (Int.natCast_nonneg a))).symm
  | negSucc a =>
    have small : a < 2 ^ i := by rw [Int.negSucc_eq] at lower; omega
    show (!a.testBit i) = _
    rw [Nat.testBit_lt_two_pow small, decide_eq_true (Int.negSucc_lt_zero a)]
    rfl

/-! ### Operators -/

theorem isWordOf_toInt (x : BitVec 32) : IsWordOf x.toInt x.toInt :=
  ⟨BitVec.le_toInt x, BitVec.toInt_lt, rfl⟩

namespace BitOperator

variable {op : BitOperator} {l : ℤ}

theorem apply_isWordOf (op : BitOperator) (k l : ℤ) : IsWordOf (op.apply k l) (op.apply k l) := by
  cases op <;> exact isWordOf_toInt _

/-- **The bits of words are joined one by one**, -/
theorem testBit_apply_of_lt (op : BitOperator) (k l : ℤ) {i : ℕ} (low : i < 32) :
    (op.apply k l).testBit i = op.onBits (k.testBit i) (l.testBit i) := by
  rw [← getLsbD_ofInt k low, ← getLsbD_ofInt l low]
  cases op with
  | or => exact (testBit_toInt _ low).trans BitVec.getLsbD_or
  | and => exact (testBit_toInt _ low).trans BitVec.getLsbD_and
  | xor => exact (testBit_toInt _ low).trans BitVec.getLsbD_xor

/-- and so are those of the integers that words stand for, without end. -/
theorem testBit_apply (op : BitOperator) (left : IsWordOf k m) (right : IsWordOf l n) (i : ℕ) :
    (op.apply k l).testBit i = op.onBits (k.testBit i) (l.testBit i) := by
  rcases Nat.lt_or_ge i 32 with low | high
  · exact op.testBit_apply_of_lt k l low
  · have beyond : 31 ≤ i := by omega
    have result := op.apply_isWordOf k l
    rw [result.testBit_of_le beyond, left.testBit_of_le beyond, right.testBit_of_le beyond,
      ← result.testBit_of_le (Nat.le_refl 31), ← left.testBit_of_le (Nat.le_refl 31),
      ← right.testBit_of_le (Nat.le_refl 31)]
    exact op.testBit_apply_of_lt k l (by decide)

/-- Excluding twice changes nothing. -/
theorem xor_apply_xor_apply (k l : ℤ) : xor.apply (xor.apply k l) l = or.apply k 0 := by
  show (BitVec.ofInt 32 (BitVec.ofInt 32 k ^^^ BitVec.ofInt 32 l).toInt ^^^ BitVec.ofInt 32 l).toInt =
    (BitVec.ofInt 32 k ||| 0#32).toInt
  rw [BitVec.ofInt_toInt, BitVec.xor_assoc, BitVec.xor_self, BitVec.xor_zero, BitVec.or_zero]

theorem or_apply_zero (h : IsWordOf k n) : or.apply k 0 = k := by
  show (BitVec.ofInt 32 k ||| 0#32).toInt = k
  rw [BitVec.or_zero, toInt_ofInt h]

end BitOperator

/-- The complement of a word is one, -/
theorem IsWordOf.complement (h : IsWordOf k n) : IsWordOf (-k - 1) (-k - 1) := by
  have := h.lower
  have := h.upper
  exact ⟨by omega, by omega, rfl⟩

/-- whose bits are **the others**. -/
theorem testBit_complement (k : ℤ) (i : ℕ) : (-k - 1).testBit i = !k.testBit i := by
  have flipped : -k - 1 = k.lnot := by
    cases k with
    | ofNat a => show -(a : ℤ) - 1 = Int.negSucc a; omega
    | negSucc a => show -Int.negSucc a - 1 = (a : ℤ); omega
  rw [flipped, Int.testBit_lnot]

/-! ## Operands -/

namespace Store

variable {s : Store} {v w : Value} {a b : Number}

/-- A value gives **the word of the whole part** of its number. -/
theorem int32Of_eq (h : s.numberOf v = .ok a) : s.int32Of v = .ok (wrapInt32 a.wholePart) := by
  rw [int32Of, h]
  cases a with
  | int n => rfl
  | float x =>
    dsimp only [bind, Except.bind, Number.wholePart]
    cases Binary64.ofFloat? x with
    | none => rfl
    | some b => exact congrArg (fun n => Except.ok (wrapInt32 n)) b.truncation_value.symm

theorem numberOf_int (s : Store) (n : ℤ) : s.numberOf (.int n) = .ok (.int n) :=
  rfl

theorem int32Of_int (s : Store) (n : ℤ) : s.int32Of (.int n) = .ok (wrapInt32 n) :=
  int32Of_eq (numberOf_int s n)

theorem applyBinary_bits (op : BitOperator) (left : s.numberOf v = .ok a)
    (right : s.numberOf w = .ok b) : s.applyBinary (.bits op) v w =
      .ok (.int (op.apply (wrapInt32 a.wholePart) (wrapInt32 b.wholePart))) := by
  rw [applyBinary, int32Of_eq left, int32Of_eq right]
  rfl

theorem applyUnary_complement (h : s.numberOf v = .ok a) :
    s.applyUnary .complement v = .ok (.int (-wrapInt32 a.wholePart - 1)) := by
  rw [applyUnary, int32Of_eq h]
  rfl

theorem wrapInt32_congr {m n : ℤ} (h : m ≡ n [ZMOD 2 ^ 32]) : wrapInt32 m = wrapInt32 n :=
  (wrapInt32_isWordOf n).unique (wrapInt32_isWordOf m) h

/-- Excluding a value twice leaves its word, -/
theorem applyBinary_xor_twice (left : s.numberOf v = .ok a) (right : s.numberOf w = .ok b) :
    (do s.applyBinary (.bits .xor) (← s.applyBinary (.bits .xor) v w) w) =
      s.applyBinary (.bits .or) v (.int 0) := by
  have word := BitOperator.xor.apply_isWordOf (wrapInt32 a.wholePart) (wrapInt32 b.wholePart)
  rw [applyBinary_bits .xor left right, applyBinary_bits .or left (numberOf_int s 0)]
  refine (applyBinary_bits .xor (numberOf_int s _) right).trans ?_
  show Except.ok (Value.int (BitOperator.xor.apply (wrapInt32 (BitOperator.xor.apply _ _)) _)) = _
  rw [word.wrapInt32_eq, BitOperator.xor_apply_xor_apply]
  rfl

/-- and so does the complement of its complement. -/
theorem applyUnary_complement_twice (h : s.numberOf v = .ok a) :
    (do s.applyUnary .complement (← s.applyUnary .complement v)) =
      s.applyBinary (.bits .or) v (.int 0) := by
  have word := wrapInt32_isWordOf a.wholePart
  rw [applyUnary_complement h, applyBinary_bits .or h (numberOf_int s 0)]
  refine (applyUnary_complement (numberOf_int s _)).trans ?_
  show Except.ok (Value.int (-wrapInt32 (-wrapInt32 a.wholePart - 1) - 1)) =
    .ok (.int (BitOperator.or.apply _ 0))
  rw [word.complement.wrapInt32_eq, BitOperator.or_apply_zero word]
  congr 2
  omega

/-- **The bitwise operators are those of words of 32 bits.** A value that has a number gives the one
integer of 32 bits that is congruent to the whole part of the number, and that gives itself. What the
operators make of two values has 32 bits as well. Its bits come from those of the whole parts, and
they are what comes of joining the two words without end. So all depends on nothing but the residues,
excluding a value twice leaves its word, and so does the complement of the complement. -/
theorem operates_on_words (s : Store) {v w : Value} {a b : Number} (left : s.numberOf v = .ok a)
    (right : s.numberOf w = .ok b) :
    (∃ k, s.int32Of v = .ok k ∧ IsWordOf k a.wholePart
      ∧ (∀ k', IsWordOf k' a.wholePart → k' = k) ∧ s.int32Of (.int k) = .ok k)
    ∧ (∀ op : BitOperator, ∃ k l r, s.int32Of v = .ok k ∧ s.int32Of w = .ok l
      ∧ s.applyBinary (.bits op) v w = .ok (.int r) ∧ IsWordOf r r
      ∧ (∀ i, r.testBit i = op.onBits (k.testBit i) (l.testBit i))
      ∧ ∀ i < 32, r.testBit i = op.onBits (a.wholePart.testBit i) (b.wholePart.testBit i))
    ∧ (∃ k r, s.int32Of v = .ok k ∧ s.applyUnary .complement v = .ok (.int r) ∧ IsWordOf r r
      ∧ (∀ i, r.testBit i = !k.testBit i) ∧ ∀ i < 32, r.testBit i = !a.wholePart.testBit i)
    ∧ (∀ v' w' a' b', s.numberOf v' = .ok a' → s.numberOf w' = .ok b' →
      a'.wholePart ≡ a.wholePart [ZMOD 2 ^ 32] → b'.wholePart ≡ b.wholePart [ZMOD 2 ^ 32] →
        (∀ op : BitOperator, s.applyBinary (.bits op) v' w' = s.applyBinary (.bits op) v w)
        ∧ s.applyUnary .complement v' = s.applyUnary .complement v)
    ∧ (do s.applyBinary (.bits .xor) (← s.applyBinary (.bits .xor) v w) w) =
        s.applyBinary (.bits .or) v (.int 0)
    ∧ (do s.applyUnary .complement (← s.applyUnary .complement v)) =
        s.applyBinary (.bits .or) v (.int 0) := by
  have wordA := wrapInt32_isWordOf a.wholePart
  have wordB := wrapInt32_isWordOf b.wholePart
  refine ⟨⟨_, int32Of_eq left, wordA, fun k' h => wordA.unique h rfl, ?_⟩, fun op => ?_, ?_, ?_, ?_, ?_⟩
  · rw [int32Of_int, wordA.self.wrapInt32_eq]
  · refine ⟨_, _, _, int32Of_eq left, int32Of_eq right, applyBinary_bits op left right,
      op.apply_isWordOf _ _, op.testBit_apply wordA wordB, fun i low => ?_⟩
    rw [op.testBit_apply_of_lt _ _ low, wordA.testBit low, wordB.testBit low]
  · refine ⟨_, _, int32Of_eq left, applyUnary_complement left, wordA.complement,
      testBit_complement _, fun i low => ?_⟩
    rw [testBit_complement, wordA.testBit low]
  · intro v' w' a' b' left' right' sameA sameB
    refine ⟨fun op => ?_, ?_⟩
    · rw [applyBinary_bits op left right, applyBinary_bits op left' right', wrapInt32_congr sameA,
        wrapInt32_congr sameB]
    · rw [applyUnary_complement left, applyUnary_complement left', wrapInt32_congr sameA]
  · exact applyBinary_xor_twice left right
  · exact applyUnary_complement_twice left

/-- A negative fraction is cut off toward zero, and an integer of more than 32 bits is cut to them. -/
theorem operates_on_words_of_fraction :
    (Number.float (-1.5)).wholePart = -1
    ∧ Store.empty.numberOf (.float (-1.5)) = .ok (.float (-1.5))
    ∧ Store.empty.numberOf (.int (2 ^ 33 + 5)) = .ok (.int (2 ^ 33 + 5))
    ∧ (∃ r, Store.empty.applyBinary (.bits .xor) (.float (-1.5)) (.int (2 ^ 33 + 5)) = .ok (.int r)
      ∧ ∀ i < 32, r.testBit i = xor (Int.testBit (-1) i) (Int.testBit (2 ^ 33 + 5) i))
    ∧ Store.empty.applyBinary (.bits .or) (.float (-1.5)) (.int 5) =
      Store.empty.applyBinary (.bits .or) (.float (-1.5)) (.int (2 ^ 33 + 5)) := by
  have whole : (Number.float (-1.5)).wholePart = -1 := by decide +kernel
  obtain ⟨-, bits, -, residues, -⟩ := operates_on_words (v := .float (-1.5)) (w := .int (2 ^ 33 + 5))
    Store.empty rfl rfl
  obtain ⟨_, _, r, -, -, result, -, -, low⟩ := bits .xor
  refine ⟨whole, rfl, rfl, ⟨r, result, fun i small => ?_⟩, ?_⟩
  · rw [low i small, whole]
    rfl
  · exact (residues (.float (-1.5)) (.int 5) _ _ rfl rfl rfl (by decide)).1 .or

end Store

end Scriptlet
