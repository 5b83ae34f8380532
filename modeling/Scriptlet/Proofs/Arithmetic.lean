import Scriptlet.Operator
import Scriptlet.Proofs.Naming.Magnitude

/-!
# Integers in and out of the safe range

As long as integers and what comes of them are in the safe range, arithmetic is that of integers. No
sum, product, quotient or power is an integer beyond it, whatever the operands are: what would be is
given as a float. The remainder alone is not looked at again. It is no further from zero than the
dividend, so that it is safe if the dividend is, and the dividend is what the range of a remainder
hangs on: a numeral of another base gives an integer of any size, and its remainder by one that is
larger still, or by an infinity, is itself.

Where an operation gives nothing at all there is an integer among its operands that is near to no
float, or two whose quotient is not.
-/

namespace Scriptlet

/-! ## What numbers demand -/

/-- What an operation on two numbers may **demand**: the floats nearest to the integers among them and
to the quotient of integers. -/
inductive Number.Asks : Number → Number → Demand → Prop
  | left (m : Int) (b : Number) : Asks (.int m) b (.float m)
  | right (a : Number) (n : Int) : Asks a (.int n) (.float n)
  | quotient (m n : Int) : Asks (.int m) (.int n) (.quotient m n)

/-- A computation on two numbers **ends** in something of a kind, or in a demand of theirs that is not
met. -/
def Number.Ends (a b : Number) (P : α → Prop) : Except Unmet α → Prop
  | .ok x => P x
  | .error u => a.Asks b u.demand

/-- A property of floats, which **no integer has**. -/
def Number.shows (p : Float → Bool) : Number → Bool
  | .int _ => false
  | .float x => p x

namespace Number

variable {a b c : Number} {m n : Int} {P : α → Prop} {Q : β → Prop}

theorem Ends.bind {x : Except Unmet α} {f : α → Except Unmet β} (h : a.Ends b P x)
    (next : ∀ i, P i → a.Ends b Q (f i)) : a.Ends b Q (x >>= f) := by
  cases x with
  | ok i => exact next i h
  | error u => exact h

theorem Ends.map {x : Except Unmet α} {f : α → β} (h : a.Ends b P x) (next : ∀ i, P i → Q (f i)) :
    a.Ends b Q (f <$> x) := by
  cases x with
  | ok i => exact next i h
  | error u => exact h

theorem Ends.mono {P' : α → Prop} {x : Except Unmet α} (h : a.Ends b P x) (weaker : ∀ i, P i → P' i) :
    a.Ends b P' x := by
  cases x with
  | ok i => exact weaker i h
  | error u => exact h

theorem Ends.ite {p : Bool} {x y : Except Unmet α} (yes : p = true → a.Ends b P x)
    (no : p = false → a.Ends b P y) : a.Ends b P (if p = true then x else y) := by
  cases p with
  | true => exact yes rfl
  | false => exact no rfl

/-- A computation ends one way or the other. -/
theorem Ends.cases {x : Except Unmet α} (h : a.Ends b P x) :
    (∃ i, x = .ok i ∧ P i) ∨ ∃ u, x = .error u ∧ a.Asks b u.demand := by
  cases x with
  | ok i => exact .inl ⟨i, rfl, h⟩
  | error u => exact .inr ⟨u, rfl, h⟩

theorem ends_meet {d : Demand} (asks : a.Asks b d) : a.Ends b (fun _ => d.isExcessive = false) d.meet := by
  cases excessive : d.isExcessive with
  | true =>
    rw [Demand.meet_of_excessive excessive]
    exact asks
  | false =>
    rw [Demand.meet_of_allowed excessive]
    rfl

/-- The float of an operand has what the operand shows, as the one nearest to an integer is finite. -/
theorem ends_toFloat (asks : ∀ m, c = .int m → a.Asks b (.float m)) :
    a.Ends b (fun x => x.isNaN = c.shows Float.isNaN ∧ x.isInf = c.shows Float.isInf) c.toFloat := by
  cases c with
  | int m => exact (ends_meet (asks m rfl)).bind fun _ allowed => ⟨Binary64.isNaN_nearest _ _ _, allowed⟩
  | float x => exact ⟨rfl, rfl⟩

theorem ends_isNaN (asks : ∀ m, c = .int m → a.Asks b (.float m)) :
    a.Ends b (· = c.shows Float.isNaN) c.isNaN :=
  (ends_toFloat asks).map fun _ h => h.1

theorem ends_isInfinite (asks : ∀ m, c = .int m → a.Asks b (.float m)) :
    a.Ends b (· = c.shows Float.isInf) c.isInfinite :=
  (ends_toFloat asks).map fun _ h => h.2

theorem asks_left (b : Number) (m : Int) (h : a = .int m) : a.Asks b (.float m) := by
  subst h
  exact .left m b

theorem asks_right (a : Number) (n : Int) (h : b = .int n) : a.Asks b (.float n) := by
  subst h
  exact .right a n

/-! ## The safe range -/

/-- A number is **safe** if it is a float, or an integer up to 2⁵³ - 1 in magnitude. -/
def IsSafe : Number → Prop
  | .int n => n.natAbs ≤ maxSafeInteger
  | .float _ => True

theorem isSafe_iff (c : Number) : c.IsSafe ↔ ∀ n, c = .int n → n.natAbs ≤ maxSafeInteger := by
  cases c with
  | int n =>
    refine ⟨fun safe m same => ?_, fun all => all n rfl⟩
    cases same
    exact safe
  | float x => exact iff_of_true trivial nofun

theorem isSafe_normalize (c : Number) : c.normalize.IsSafe := by
  cases c with
  | int n =>
    rw [normalize]
    split
    · trivial
    · rename_i within
      exact Nat.not_lt.mp within
  | float x => trivial

theorem normalize_int (small : n.natAbs ≤ maxSafeInteger) : normalize (.int n) = .int n :=
  if_neg (Nat.not_lt.mpr small)

theorem combine_ends (onInts : Int → Int → Int) (onFloats : Float → Float → Float) (a b : Number) :
    a.Ends b (fun _ => True) (combine onInts onFloats a b) := by
  have floats : a.Ends b (fun _ => True) (do return float (onFloats (← a.toFloat) (← b.toFloat))) :=
    (ends_toFloat (asks_left b)).bind fun _ _ => (ends_toFloat (asks_right a)).map fun _ _ => trivial
  cases a with
  | int m =>
    cases b with
    | int n => trivial
    | float y => exact floats
  | float x => exact floats

theorem normalize_combine_ends (onInts : Int → Int → Int) (onFloats : Float → Float → Float)
    (a b : Number) : a.Ends b IsSafe (normalize <$> combine onInts onFloats a b) :=
  (combine_ends onInts onFloats a b).map fun c _ => c.isSafe_normalize

theorem divByZero_ends (a b : Number) : a.Ends b IsSafe (a.divByZero b) := by
  unfold divByZero
  exact .ite (fun _ => trivial) fun _ => (ends_isNaN (asks_left b)).bind fun _ _ =>
    .ite (fun _ => trivial) fun _ => trivial

theorem quotient_ends (a b : Number) : a.Ends b (fun _ => True) (a.quotient b) := by
  have floats : a.Ends b (fun _ => True) (do return (← a.toFloat) / (← b.toFloat)) :=
    (ends_toFloat (asks_left b)).bind fun _ _ => (ends_toFloat (asks_right a)).map fun _ _ => trivial
  cases a with
  | int m =>
    cases b with
    | int n => exact (ends_meet (.quotient m n)).map fun _ _ => trivial
    | float y => exact floats
  | float x => exact floats

theorem div_ends (a b : Number) : a.Ends b IsSafe (a.div b) := by
  unfold div
  refine .ite (fun _ => divByZero_ends a b) fun _ => (quotient_ends a b).bind fun x _ => ?_
  cases a with
  | int m =>
    cases b with
    | int n =>
      show IsSafe (if isWholeFloat x = true then (int (m.fdiv n)).normalize else float x)
      split
      · exact isSafe_normalize _
      · trivial
    | float y => trivial
  | float y => trivial

theorem natAbs_le_of_exactPower? (h : exactPower? a b = some n) : n.natAbs ≤ maxSafeInteger := by
  cases a with
  | int m =>
    cases b with
    | int k =>
      rw [exactPower?] at h
      split at h
      · rename_i within
        cases h
        exact within.2.2
      · cases h
    | float y => cases h
  | float x => cases h

theorem pow_ends (a b : Number) : a.Ends b IsSafe (a.pow b) := by
  unfold pow
  refine (ends_isNaN (asks_right a)).bind fun _ _ => .ite (fun _ => trivial) fun _ => ?_
  refine (ends_isInfinite (asks_right a)).bind fun _ _ => .ite (fun _ => trivial) fun _ => ?_
  cases exact' : exactPower? a b with
  | some n => exact natAbs_le_of_exactPower? exact'
  | none =>
    refine .ite (fun _ => trivial) fun _ => (ends_toFloat (asks_right a)).bind fun y _ => ?_
    cases a.toFloat with
    | ok x => trivial
    | error u => trivial

/-! ## Remainders -/

/-- What a division **leaves if it is an integer**: the remainder of integers toward zero, and the
dividend itself where an infinity divides. -/
inductive Leaves : Number → Number → Int → Prop
  | byInteger (m n : Int) (some : n ≠ 0) : Leaves (.int m) (.int n) (m.tmod n)
  | byInfinity (m : Int) (y : Float) (infinite : y.isInf = true) : Leaves (.int m) (.float y) m

theorem isInf_eq_false_of_isNaN {x : Float} (h : x.isNaN = true) : x.isInf = false := by
  have parts : x.toModel.unpack.isNaN = true := h
  show x.toModel.unpack.isInf = false
  cases unpacked : x.toModel.unpack with
  | infinity sign => rw [unpacked] at parts; cases parts
  | _ => rfl

theorem isInf_eq_false_of_zero {x : Float} (h : (x == 0) = true) : x.isInf = false := by
  have zero : (x.toModel.unpack.compare (.zero .positive) == some .eq) = true := h
  show x.toModel.unpack.isInf = false
  cases unpacked : x.toModel.unpack with
  | infinity sign => rw [unpacked] at zero; cases sign <;> cases zero
  | _ => rfl

theorem Leaves.left_eq {r : Int} (h : a.Leaves b r) (p : Float → Bool) : a.shows p = false := by
  cases h <;> rfl

/-- An integer is left by what is no zero and not not a number. -/
theorem Leaves.right_eq {r : Int} (h : a.Leaves b r) :
    b.shows Float.isNaN = false ∧ b.isZero = false := by
  cases h with
  | byInteger m n some => exact ⟨rfl, beq_eq_false_iff_ne.mpr some⟩
  | byInfinity m y infinite =>
    refine ⟨?_, ?_⟩
    · by_contra isNaN
      rw [isInf_eq_false_of_isNaN (Bool.not_eq_false _ ▸ isNaN)] at infinite
      cases infinite
    · by_contra zero
      rw [isInf_eq_false_of_zero (Bool.not_eq_false _ ▸ zero)] at infinite
      cases infinite

/-- **A remainder is an integer exactly if one is left**, and then that one. -/
theorem mod_ends (a b : Number) : a.Ends b (fun c => ∀ r, c = .int r ↔ a.Leaves b r) (a.mod b) := by
  have noInteger {x : Float} (none : ∀ r, ¬ a.Leaves b r) (r : Int) : float x = .int r ↔ a.Leaves b r :=
    iff_of_false nofun (none r)
  unfold mod
  refine (ends_isNaN (asks_left b)).bind fun _ isNaN => .ite (fun yes => ?_) fun _ => ?_
  · exact noInteger fun r leaves => absurd ((isNaN.symm.trans yes).symm.trans (leaves.left_eq _)) nofun
  refine (ends_isNaN (asks_right a)).bind fun _ isNaN => .ite (fun yes => ?_) fun _ => ?_
  · exact noInteger fun r leaves => absurd ((isNaN.symm.trans yes).symm.trans leaves.right_eq.1) nofun
  refine (ends_isInfinite (asks_left b)).bind fun _ isInf => .ite (fun yes => ?_) fun _ => ?_
  · exact noInteger fun r leaves => absurd ((isInf.symm.trans yes).symm.trans (leaves.left_eq _)) nofun
  refine .ite (fun zero => ?_) fun some => ?_
  · exact noInteger fun r leaves => absurd (zero.symm.trans leaves.right_eq.2) nofun
  refine (ends_isInfinite (asks_right a)).bind fun _ isInf => .ite (fun yes => ?_) fun no => ?_
  · have infinite : b.shows Float.isInf = true := isInf.symm.trans yes
    cases b with
    | int n => cases infinite
    | float y =>
      refine fun r => ⟨?_, fun leaves => ?_⟩
      · rintro rfl
        exact .byInfinity r y infinite
      · cases leaves
        rfl
  · have finite : b.shows Float.isInf = false := isInf.symm.trans no
    have floats (none : ∀ r, ¬ a.Leaves b r) : a.Ends b (fun c => ∀ r, c = .int r ↔ a.Leaves b r)
        (do return float (remainderOfFloats (← a.toFloat) (← b.toFloat))) :=
      (ends_toFloat (asks_left b)).bind fun _ _ => (ends_toFloat (asks_right a)).map fun _ _ =>
        noInteger none
    cases a with
    | int m =>
      cases b with
      | int n =>
        refine fun r => ⟨fun same => ?_, fun leaves => ?_⟩
        · cases same
          exact .byInteger m n (beq_eq_false_iff_ne.mp some)
        · cases leaves
          rfl
      | float y =>
        refine floats fun r leaves => ?_
        cases leaves with
        | byInfinity m y infinite => exact absurd (finite.symm.trans infinite) nofun
    | float x =>
      refine floats fun r leaves => ?_
      cases leaves

/-! ## Integers with floats near to them -/

theorem isNaN_int (small : n.natAbs < twoTo 1023) : (int n).isNaN = .ok false := by
  rw [isNaN, toFloat, Binary64.floatOfInt_of_lt small]
  exact congrArg Except.ok (Binary64.isNaN_nearest _ _ _)

theorem isInfinite_int (small : n.natAbs < twoTo 1023) : (int n).isInfinite = .ok false := by
  obtain ⟨b, parts, -⟩ := Binary64.exists_roundInt small
  rw [isInfinite, toFloat, Binary64.floatOfInt_of_lt small]
  exact congrArg Except.ok (Binary64.isInf_eq_false parts)

/-- The remainder of integers is the one **toward zero**. -/
theorem mod_int (smallM : m.natAbs < twoTo 1023) (smallN : n.natAbs < twoTo 1023) (some : n ≠ 0) :
    mod (.int m) (.int n) = .ok (.int (m.tmod n)) := by
  have notZero : isZero (.int n) = false := beq_eq_false_iff_ne.mpr some
  unfold mod
  rw [isNaN_int smallM, isNaN_int smallN, isInfinite_int smallM, isInfinite_int smallN, notZero]
  rfl

/-- A power in the safe range is **exact**. -/
theorem pow_int (natural : 0 ≤ n) (bounded : n ≤ 64)
    (small : (m ^ n.toNat).natAbs ≤ maxSafeInteger) :
    pow (.int m) (.int n) = .ok (.int (m ^ n.toNat)) := by
  have fits : n.natAbs < twoTo 1023 := Nat.lt_of_le_of_lt (show n.natAbs ≤ 64 by omega) (by decide +kernel)
  have exact' : exactPower? (.int m) (.int n) = some (m ^ n.toNat) := if_pos ⟨natural, bounded, small⟩
  unfold pow
  rw [isNaN_int fits, isInfinite_int fits, exact']
  show (if (isUnit (.int m) && false) = true then _ else _) = _
  rw [Bool.and_false]
  rfl

/-- A remainder toward zero is smaller than the divisor and has the sign of the dividend. -/
theorem tmod_spec (m : Int) (some : n ≠ 0) :
    m = m.tdiv n * n + m.tmod n ∧ (m.tmod n).natAbs < n.natAbs
      ∧ (m.tmod n = 0 ∨ (m.tmod n).sign = m.sign) := by
  refine ⟨(Int.tdiv_mul_add_tmod m n).symm, ?_, ?_⟩
  · rw [Int.natAbs_tmod]
    exact Nat.mod_lt _ (Int.natAbs_pos.mpr some)
  · by_cases none : m.tmod n = 0
    · exact .inl none
    · rcases Int.lt_trichotomy m 0 with negative | rfl | positive
      · have flipped : 0 ≤ -m.tmod n := Int.neg_tmod m n ▸ Int.tmod_nonneg n (show 0 ≤ -m by omega)
        exact .inr (by rw [Int.sign_eq_neg_one_of_neg negative, Int.sign_eq_neg_one_of_neg (by omega)])
      · exact absurd (Int.zero_tmod n) none
      · have atLeast : 0 ≤ m.tmod n := Int.tmod_nonneg n (Int.le_of_lt positive)
        exact .inr (by rw [Int.sign_eq_one_of_pos positive, Int.sign_eq_one_of_pos (by omega)])

end Number

/-! ## Operators -/

/-- Whether an operator is one of **arithmetic**. -/
def BinaryOperator.isArithmetic : BinaryOperator → Bool
  | .add | .arithmetic _ => true
  | _ => false

/-- What sums, differences and products are between integers. -/
def BinaryOperator.onInts? : BinaryOperator → Option (Int → Int → Int)
  | .add => some (· + ·)
  | .arithmetic .sub => some (· - ·)
  | .arithmetic .mul => some (· * ·)
  | _ => none

namespace Store

variable {a b : Number} {op : BinaryOperator} {g : Int → Int → Int}

/-- Between integers a sum, a difference or a product is brought back into the safe range. -/
theorem applyBinary_ints (s : Store) (h : op.onInts? = some g) (m n : Int) :
    s.applyBinary op (.int m) (.int n) = .ok (.number (.normalize (.int (g m n)))) := by
  cases op with
  | add => cases h; rfl
  | arithmetic op =>
    cases op with
    | sub | mul => cases h; rfl
    | _ => cases h
  | _ => cases h

theorem applyBinary_arithmetic_of_ok {op : ArithmeticOperator} {c : Number} (s : Store)
    (h : op.apply a b = .ok c) :
    s.applyBinary (.arithmetic op) (.number a) (.number b) = .ok (.number c) := by
  show Value.number <$> op.apply a b = _
  rw [h]
  rfl

/-- What an operator makes of two numbers, and when it is safe. -/
theorem applyBinary_ends (s : Store) (arithmetic : op.isArithmetic = true) (a b : Number) :
    ∃ x, s.applyBinary op (.number a) (.number b) = Value.number <$> x
      ∧ a.Ends b (fun c => c.IsSafe ↔
        (op = .arithmetic .mod → ∀ r, a.Leaves b r → r.natAbs ≤ maxSafeInteger)) x := by
  have safe {op : BinaryOperator} {x : Except Unmet Number} (ends : a.Ends b Number.IsSafe x)
      (other : op ≠ .arithmetic .mod) : a.Ends b (fun c => c.IsSafe ↔
        (op = .arithmetic .mod → ∀ r, a.Leaves b r → r.natAbs ≤ maxSafeInteger)) x :=
    ends.mono fun c isSafe => iff_of_true isSafe fun same => absurd same other
  cases op with
  | add => exact ⟨_, rfl, safe (Number.normalize_combine_ends _ _ a b) nofun⟩
  | arithmetic op =>
    refine ⟨_, rfl, ?_⟩
    cases op with
    | sub | mul => exact safe (Number.normalize_combine_ends _ _ a b) nofun
    | div => exact safe (Number.div_ends a b) nofun
    | pow => exact safe (Number.pow_ends a b) nofun
    | mod =>
      refine (Number.mod_ends a b).mono fun c leaves => c.isSafe_iff.trans ?_
      simp only [leaves, forall_const]
  | _ => cases arithmetic

/-- **Arithmetic stays in the safe range.** An operator of arithmetic gives a number, which is a float or
a safe integer, or fails for a float that there is not. Only a remainder may be unsafe, and it is so
exactly if it is an integer beyond the range that is left. A sum, a difference or a product of integers
that is beyond the range is given as the float nearest to it. -/
theorem arithmetic_stays_safe (s : Store) (arithmetic : op.isArithmetic = true) (a b : Number) :
    ((∃ c, s.applyBinary op (.number a) (.number b) = .ok (.number c)
        ∧ (c.IsSafe ↔ (op = .arithmetic .mod → ∀ r, a.Leaves b r → r.natAbs ≤ maxSafeInteger)))
      ∨ ∃ u, s.applyBinary op (.number a) (.number b) = .error u ∧ a.Asks b u.demand)
    ∧ ∀ g, op.onInts? = some g → ∀ m n, maxSafeInteger < (g m n).natAbs →
      s.applyBinary op (.int m) (.int n) = .ok (.float (roundInt (g m n))) := by
  refine ⟨?_, fun g exact' m n beyond => ?_⟩
  · obtain ⟨x, result, ends⟩ := s.applyBinary_ends arithmetic a b
    rw [result]
    rcases ends.cases with ⟨c, rfl, safe⟩ | ⟨u, rfl, asks⟩
    · exact .inl ⟨c, rfl, safe⟩
    · exact .inr ⟨u, rfl, asks⟩
  · rw [s.applyBinary_ints exact', Number.normalize, if_pos beyond]
    rfl

/-- The product of two integers that is beyond the range, one of them being so itself. -/
theorem arithmetic_stays_safe_of_product :
    (BinaryOperator.arithmetic .mul).isArithmetic = true
    ∧ (BinaryOperator.arithmetic .mul).onInts? = some (· * ·)
    ∧ maxSafeInteger < ((2 : Int) ^ 60 * 3).natAbs
    ∧ empty.applyBinary (.arithmetic .mul) (.int (2 ^ 60)) (.int 3) = .ok (.float (roundInt (2 ^ 60 * 3))) := by
  have beyond : maxSafeInteger < ((2 : Int) ^ 60 * 3).natAbs := by decide +kernel
  obtain ⟨-, nearest⟩ := @arithmetic_stays_safe (.arithmetic .mul) empty rfl (.int (2 ^ 60)) (.int 3)
  exact ⟨rfl, rfl, beyond, nearest _ rfl (2 ^ 60) 3 beyond⟩

/-- A remainder that is beyond the range, as it is the dividend. -/
theorem remainder_beyond_safe :
    empty.applyBinary (.arithmetic .mod) (.int (2 ^ 54)) (.int (2 ^ 55)) = .ok (.int (2 ^ 54))
    ∧ ¬ (Number.int (2 ^ 54)).IsSafe := by
  have remainder : Number.mod (.int (2 ^ 54)) (.int (2 ^ 55)) = .ok (.int (2 ^ 54)) :=
    Number.mod_int (by decide +kernel) (by decide +kernel) (by decide)
  exact ⟨applyBinary_arithmetic_of_ok empty remainder, Nat.not_le_of_lt (by decide +kernel)⟩

/-! ### Exact results -/

/-- An integer in the safe range has a float near to it. -/
theorem lt_twoTo_of_safe {n : Nat} (h : n ≤ maxSafeInteger) : n < twoTo 1023 :=
  Nat.lt_of_le_of_lt h (by decide +kernel)

/-- **Arithmetic of integers is exact.** Sums, differences and products of safe integers are what they
are, if they are safe themselves; so are powers with an exponent up to 64. The remainder by what is
not zero is that of a division toward zero: it differs from the dividend by a multiple of the divisor,
is smaller than the divisor, and has the sign of the dividend unless it is zero. -/
theorem arithmetic_is_exact (s : Store) {x y : Int} (safeX : x.natAbs ≤ maxSafeInteger)
    (safeY : y.natAbs ≤ maxSafeInteger) :
    ((x + y).natAbs ≤ maxSafeInteger → s.applyBinary .add (.int x) (.int y) = .ok (.int (x + y)))
    ∧ ((x - y).natAbs ≤ maxSafeInteger →
      s.applyBinary (.arithmetic .sub) (.int x) (.int y) = .ok (.int (x - y)))
    ∧ ((x * y).natAbs ≤ maxSafeInteger →
      s.applyBinary (.arithmetic .mul) (.int x) (.int y) = .ok (.int (x * y)))
    ∧ (y ≠ 0 → ∃ q r, s.applyBinary (.arithmetic .mod) (.int x) (.int y) = .ok (.int r)
      ∧ x = q * y + r ∧ r.natAbs < y.natAbs ∧ (r = 0 ∨ r.sign = x.sign))
    ∧ (0 ≤ y → y ≤ 64 → (x ^ y.toNat).natAbs ≤ maxSafeInteger →
      s.applyBinary (.arithmetic .pow) (.int x) (.int y) = .ok (.int (x ^ y.toNat))) := by
  have exactly {op : BinaryOperator} {g : Int → Int → Int} (h : op.onInts? = some g)
      (safe : (g x y).natAbs ≤ maxSafeInteger) :
      s.applyBinary op (.int x) (.int y) = .ok (.int (g x y)) := by
    rw [applyBinary_ints s h, Number.normalize_int safe]
    rfl
  refine ⟨exactly rfl, exactly rfl, exactly rfl, fun some => ?_, fun natural bounded safe => ?_⟩
  · have remainder := Number.mod_int (lt_twoTo_of_safe safeX) (lt_twoTo_of_safe safeY) some
    exact ⟨_, _, applyBinary_arithmetic_of_ok s remainder, Number.tmod_spec x some⟩
  · exact applyBinary_arithmetic_of_ok s (Number.pow_int natural bounded safe)

/-- With a dividend below zero and an odd power. -/
theorem arithmetic_is_exact_of_negative :
    (-7 : Int).natAbs ≤ maxSafeInteger ∧ (3 : Int).natAbs ≤ maxSafeInteger
    ∧ empty.applyBinary .add (.int (-7)) (.int 3) = .ok (.int (-4))
    ∧ empty.applyBinary (.arithmetic .sub) (.int (-7)) (.int 3) = .ok (.int (-10))
    ∧ empty.applyBinary (.arithmetic .mul) (.int (-7)) (.int 3) = .ok (.int (-21))
    ∧ (∃ q r, empty.applyBinary (.arithmetic .mod) (.int (-7)) (.int 3) = .ok (.int r)
      ∧ -7 = q * 3 + r ∧ r.natAbs < 3 ∧ (r = 0 ∨ r.sign = -1))
    ∧ empty.applyBinary (.arithmetic .pow) (.int (-7)) (.int 3) = .ok (.int (-343)) := by
  have safeX : (-7 : Int).natAbs ≤ maxSafeInteger := by decide +kernel
  have safeY : (3 : Int).natAbs ≤ maxSafeInteger := by decide +kernel
  obtain ⟨sum, difference, product, remainder, power⟩ := arithmetic_is_exact empty safeX safeY
  exact ⟨safeX, safeY, sum (by decide +kernel), difference (by decide +kernel),
    product (by decide +kernel), remainder (by decide),
    power (by decide) (by decide) (by decide +kernel)⟩

end Store

end Scriptlet
