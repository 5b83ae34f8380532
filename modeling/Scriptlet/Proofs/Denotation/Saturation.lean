import Scriptlet.Proofs.Naming.Magnitude
import Scriptlet.Proofs.Readback.Numeral

/-!
# Floats nearest to decimals

A decimal numeral may have an exponent of any size, and the power of ten that it asks for need not
fit anywhere. Where it is clear from the number of digits that the value is beyond all floats, or
below them, that power is not computed. What is computed instead has the same nearest float: all
values from 2¹⁰²⁴ on are nearest to infinity, and all that are small enough are nearest to zero.
-/

namespace Scriptlet

theorem twoTo_add (m n : Nat) : twoTo (m + n) = twoTo m * twoTo n :=
  Nat.pow_add 2 m n

theorem twoTo_le_twoTo {m n : Nat} (h : m ≤ n) : twoTo m ≤ twoTo n :=
  Nat.pow_le_pow_right (by decide) h

theorem twoTo_log2_le {n : Nat} (some : n ≠ 0) : twoTo n.log2 ≤ n :=
  Nat.log2_self_le some

theorem lt_twoTo_log2 (n : Nat) : n < twoTo (n.log2 + 1) :=
  Nat.lt_log2_self

namespace Binary64

variable {num den k : Nat}

/-- A quotient that is beyond a power of two shows it in the logarithms. -/
theorem log2_add_le (positive : den ≠ 0) (h : den * twoTo k ≤ num) : den.log2 + k ≤ num.log2 := by
  have some : num ≠ 0 := Nat.ne_of_gt (Nat.lt_of_lt_of_le
    (Nat.mul_pos (Nat.pos_of_ne_zero positive) (twoTo_pos k)) h)
  refine (Nat.le_log2 some).mpr ?_
  calc twoTo (den.log2 + k)
    _ = twoTo den.log2 * twoTo k := twoTo_add ..
    _ ≤ den * twoTo k := Nat.mul_le_mul_right _ (twoTo_log2_le positive)
    _ ≤ num := h

/-- What has 53 digits before the point in the unit next to the greatest, or more, is **beyond all
floats**. -/
theorem nearestBits_of_unit {unit : Nat} (some : num ≠ 0) (chosen : unitFor num den = unit)
    (full : twoTo 52 ≤ num / (den * twoTo unit))
    (beyond : 972 ≤ unit ∨ 971 ≤ unit ∧ twoTo 53 ≤ num / (den * twoTo unit)) :
    nearestBits num den = 2047 * twoTo 52 := by
  have parts : scaled num den unit = (num, den * twoTo unit) := if_pos (by omega)
  have power : ((unit : Int) + 1074).toNat = unit + 1074 := by omega
  have near := (roundHalfEven_bounds num (den * twoTo unit)).1
  rw [nearestBits, if_neg (by simpa using some), chosen]
  dsimp only
  rw [parts, power]
  dsimp only
  refine Nat.min_eq_right ?_
  generalize roundHalfEven num (den * twoTo unit) = rounded at near ⊢
  generalize num / (den * twoTo unit) = floor at near full beyond
  rw [twoTo_eq] at full beyond ⊢
  omega

/-- **All values from 2¹⁰²⁴ on are nearest to infinity.** -/
theorem nearestBits_of_large (positive : den ≠ 0) (h : den * twoTo 1024 ≤ num) :
    nearestBits num den = 2047 * twoTo 52 := by
  have apart := log2_add_le positive h
  have some : num ≠ 0 := by
    rintro rfl
    rw [Nat.log2_zero] at apart
    omega
  obtain ⟨unit, hunit⟩ : ∃ unit, num.log2 = den.log2 + 53 + unit :=
    ⟨num.log2 - den.log2 - 53, by omega⟩
  have guess : (num.log2 : Int) - den.log2 - 52 = ((unit + 1 : Nat) : Int) := by omega
  have parts : scaled num den ((unit + 1 : Nat) : Int) = (num, den * twoTo (unit + 1)) :=
    if_pos (by omega)
  by_cases digits : num / (den * twoTo (unit + 1)) < twoTo 52
  · have chosen : unitFor num den = unit := by
      unfold unitFor
      dsimp only
      rw [guess, parts, if_pos digits]
      omega
    -- a unit that is half as large has room for one more digit
    have room : twoTo 52 * (den * twoTo unit) ≤ num := by
      calc twoTo 52 * (den * twoTo unit)
        _ ≤ twoTo 52 * (twoTo (den.log2 + 1) * twoTo unit) :=
          Nat.mul_le_mul_left _ (Nat.mul_le_mul_right _ (Nat.le_of_lt (lt_twoTo_log2 den)))
        _ = twoTo num.log2 := by
          rw [← twoTo_add, ← twoTo_add, hunit]
          congr 1
          omega
        _ ≤ num := twoTo_log2_le some
    have positive' : 0 < den * twoTo unit := Nat.mul_pos (Nat.pos_of_ne_zero positive) (twoTo_pos _)
    refine nearestBits_of_unit some chosen ((Nat.le_div_iff_mul_le positive').mpr room) ?_
    rcases Nat.lt_or_ge unit 972 with next | more
    · obtain rfl : unit = 971 := by omega
      refine .inr ⟨Nat.le_refl _, (Nat.le_div_iff_mul_le positive').mpr ?_⟩
      calc twoTo 53 * (den * twoTo 971)
        _ = den * twoTo 1024 := by rw [Nat.mul_left_comm, ← twoTo_add]
        _ ≤ num := h
    · exact .inl more
  · have chosen : unitFor num den = ((unit + 1 : Nat) : Int) := by
      unfold unitFor
      dsimp only
      rw [guess, parts, if_neg digits]
      omega
    exact nearestBits_of_unit some chosen (Nat.le_of_not_lt digits) (.inl (by omega))

theorem double_lt {m : Nat} (some : num ≠ 0) (h : m + 1 < k) :
    2 * (num * twoTo m) < num * twoTo k := by
  calc 2 * (num * twoTo m)
    _ = num * twoTo (m + 1) := by rw [Nat.mul_left_comm, Nat.mul_comm 2, twoTo_succ]
    _ < num * twoTo k :=
      Nat.mul_lt_mul_of_pos_left (Nat.pow_lt_pow_right (by decide) h) (Nat.pos_of_ne_zero some)

/-- **All values below 2⁻¹²⁰⁰ are nearest to zero.** -/
theorem nearestBits_of_small (h : num * twoTo 1200 ≤ den) :
    nearestBits num den = 0 := by
  by_cases some : num = 0
  · subst some
    rfl
  · have apart := log2_add_le some h
    have chosen : unitFor num den = -1074 := by
      unfold unitFor
      dsimp only
      generalize scaled num den _ = parts
      split <;> omega
    have parts : scaled num den (-1074) = (num * twoTo 1074, den) := if_neg (by decide)
    have less : 2 * (num * twoTo 1074) < den :=
      Nat.lt_of_lt_of_le (double_lt some (by decide)) h
    rw [nearestBits, if_neg (by simpa using some), chosen]
    dsimp only
    rw [parts]
    dsimp only
    have rounded : roundHalfEven (num * twoTo 1074) den = 0 := by
      rw [roundHalfEven, Nat.mod_eq_of_lt (by omega), if_pos less, Nat.div_eq_of_lt (by omega)]
    rw [rounded]
    rfl

/-- The float nearest to a quotient is told by its bits. -/
theorem nearest_congr {num' den' : Nat} (h : nearestBits num den = nearestBits num' den')
    (negative : Bool) : nearest negative num den = nearest negative num' den' := by
  rw [nearest, nearest, h]

theorem nearestBits_zero (den : Nat) : nearestBits 0 den = 0 :=
  rfl

end Binary64

/-! ## Decimals -/

/-- The **float nearest to a decimal**: digits and a power of ten. -/
def nearestToDecimal (digits : Nat) (power : Int) : Float :=
  Binary64.nearest false (digits * tenTo power.toNat) (tenTo (-power).toNat)

theorem tenTo_add (m n : Nat) : tenTo (m + n) = tenTo m * tenTo n :=
  Nat.pow_add 10 m n

theorem tenTo_pos (n : Nat) : 0 < tenTo n :=
  Nat.pow_pos (by decide)

theorem tenTo_le_tenTo {m n : Nat} (h : m ≤ n) : tenTo m ≤ tenTo n :=
  Nat.pow_le_pow_right (by decide) h

/-- A number is between two powers of ten, as the number of its digits tells. -/
theorem length_ofNat_bounds (n : Nat) :
    n < tenTo (Text.ofNat n).length ∧ (n ≠ 0 → tenTo (Text.ofNat n).length ≤ n * 10) := by
  have upper {k : Nat} (some : 0 < k) : (Text.ofNat n).length ≤ k ↔ n < tenTo k := by
    rw [Text.ofNat_eq, List.length_map]
    exact Nat.length_toDigits_le_iff (by decide) some
  obtain ⟨k, length⟩ : ∃ k, (Text.ofNat n).length = k + 1 :=
    Nat.exists_eq_succ_of_ne_zero (mt List.length_eq_zero_iff.mp (Text.ofNat_ne_nil n))
  rw [length] at upper ⊢
  refine ⟨(upper (Nat.succ_pos k)).mp (Nat.le_refl _), fun some => Nat.mul_le_mul_right 10 ?_⟩
  rcases Nat.eq_zero_or_pos k with zero | more
  · rw [zero]
    exact Nat.pos_of_ne_zero some
  · exact Nat.le_of_not_lt (mt (upper more).mpr (Nat.not_succ_le_self k))

theorem twoTo_le_tenTo (n : Nat) : twoTo (3 * n) ≤ tenTo n := by
  calc twoTo (3 * n)
    _ = 8 ^ n := Nat.pow_mul 2 3 n
    _ ≤ tenTo n := Nat.pow_le_pow_left (by decide) n

/-- **Decimals are rounded to the nearest float**, those as well that are not computed. -/
theorem floatOfDecimal_eq (digits : Nat) (power : Int) :
    floatOfDecimal false digits power = nearestToDecimal digits power := by
  obtain ⟨upper, lower⟩ := length_ofNat_bounds digits
  unfold floatOfDecimal nearestToDecimal
  dsimp only
  generalize (Text.ofNat digits).length = length at upper lower ⊢
  split_ifs with zero large small natural
  · rw [beq_iff_eq.mp zero, Nat.zero_mul]
    exact Binary64.nearest_congr (Binary64.nearestBits_zero _) false
  · have beyond : tenTo (-power).toNat * tenTo 400 ≤ digits * tenTo power.toNat := by
      refine Nat.le_of_mul_le_mul_right (c := 10) ?_ (by decide)
      calc tenTo (-power).toNat * tenTo 400 * 10
        _ = tenTo ((-power).toNat + 401) := by rw [← tenTo_add, ← tenTo_succ]
        _ ≤ tenTo (length + power.toNat) := tenTo_le_tenTo (by omega)
        _ = tenTo length * tenTo power.toNat := tenTo_add ..
        _ ≤ digits * 10 * tenTo power.toNat := Nat.mul_le_mul_right _ (lower (by simpa using zero))
        _ = digits * tenTo power.toNat * 10 := Nat.mul_right_comm ..
    refine Binary64.nearest_congr ?_ false
    have all : 1 * twoTo 1024 ≤ twoTo 1100 :=
      (Nat.one_mul _).trans_le (twoTo_le_twoTo (by decide))
    have enough : twoTo 1024 ≤ tenTo 400 :=
      Nat.le_trans (twoTo_le_twoTo (by decide)) (twoTo_le_tenTo 400)
    rw [Binary64.nearestBits_of_large (by decide) all,
      Binary64.nearestBits_of_large (Nat.ne_of_gt (tenTo_pos _))]
    exact Nat.le_trans (Nat.mul_le_mul_left _ enough) beyond
  · have below : digits * tenTo power.toNat * twoTo 1200 ≤ tenTo (-power).toNat := by
      calc digits * tenTo power.toNat * twoTo 1200
        _ ≤ tenTo length * tenTo 400 := by
          rw [show power.toNat = 0 by omega, tenTo_zero, Nat.mul_one]
          exact Nat.mul_le_mul (Nat.le_of_lt upper) (twoTo_le_tenTo 400)
        _ = tenTo (length + 400) := (tenTo_add ..).symm
        _ ≤ tenTo (-power).toNat := tenTo_le_tenTo (by omega)
    have same := (Binary64.nearestBits_zero 1).trans (Binary64.nearestBits_of_small below).symm
    exact Binary64.nearest_congr same false
  · rw [show (-power).toNat = 0 by omega]
    rfl
  · rw [show power.toNat = 0 by omega, tenTo_zero, Nat.mul_one]

end Scriptlet
