import Mathlib
import Scriptlet.Number.Numeral
import Scriptlet.Proofs.Writing

/-!
# Floats in parts and floats compared

There are two views of a finite float here. One is that of its parts, a whole number and a power of
two, with which everything is computed that must be exact; they are taken from the bits by division.
The other is the model of floats that the operations of the machine go by. It takes the same fields
from the bits, but as bit vectors, and it compares floats by their parts without looking at the
value. So where a float is asked whether it is below zero or beyond a bound, the answer comes from
the second view, and what it means for the value, which is that of the first, has to be shown.

It is right to compare powers of two first because the mantissa has all of its 53 digits unless the
power is the least one there is. The float nearest to an integer is found in the first view, too, and
only its bits are handed over. They come back as they were, so that an integer which is not too large
is near to a float, and to a whole one: with 53 digits there is no room for a fraction behind it.
-/

namespace Scriptlet

open Float.Model (Format UnpackedFloat)
open Float.Model.UnpackedFloat (Sign packComponents unpackSign unpackExponent unpackMantissa)

/-! ## Fields -/

/-- What the **fields** of a float stand for: its sign, its exponent and its fraction. -/
def ofFields (sign : Sign) (exponent : BitVec 11) (fraction : BitVec 52) : UnpackedFloat :=
  if exponent = -1#11 then if fraction = 0#52 then .infinity sign else .notANumber
  else if exponent = 0#11 then
    if h : fraction = 0#52 then .zero sign
    else .finite sign fraction.toNat (-1074)
      (Nat.pos_of_ne_zero fun none => h (BitVec.eq_of_toNat_eq none))
  else .finite sign (2 ^ 52 + fraction.toNat) (exponent.toNat - 1075)
    (Nat.add_pos_left (Nat.two_pow_pos 52) _)

theorem toNat_one_append (fraction : BitVec 52) : (1#1 ++ fraction).toNat = 2 ^ 52 + fraction.toNat := by
  rw [BitVec.toNat_append, ← Nat.shiftLeft_add_eq_or_of_lt fraction.isLt]
  rfl

/-- A row of bits is unpacked by its fields. -/
theorem unpack_eq_ofFields (bits : BitVec 64) :
    UnpackedFloat.unpack Format.binary64 bits =
      ofFields (.ofBitVec (@unpackSign Format.binary64 bits)) (@unpackExponent Format.binary64 bits)
        (@unpackMantissa Format.binary64 bits) := by
  simp only [UnpackedFloat.unpack, ofFields, toNat_one_append]
  split_ifs with top none bottom none
  · rfl
  · rfl
  · rfl
  · simp only [bottom]
    rfl
  · rfl

/-- What has been packed from fields is unpacked to what they stand for. -/
theorem unpack_packComponents (sign : Sign) (exponent : BitVec 11) (fraction : BitVec 52) :
    UnpackedFloat.unpack Format.binary64 (packComponents Format.binary64 sign exponent fraction) =
      ofFields sign exponent fraction := by
  rw [unpack_eq_ofFields, UnpackedFloat.unpackSign_packComponents,
    UnpackedFloat.unpackExponent_packComponents, UnpackedFloat.unpackMantissa_packComponents,
    Sign.ofBitVec_toBitVec]

/-- Packing again what has been unpacked loses nothing: only the bits of what is no number are
forgotten. -/
theorem unpack_pack_unpack (bits : BitVec 64) :
    UnpackedFloat.unpack Format.binary64
      (UnpackedFloat.pack Format.binary64 (UnpackedFloat.unpack Format.binary64 bits)) =
      UnpackedFloat.unpack Format.binary64 bits := by
  rw [@UnpackedFloat.pack_unpack Format.binary64 bits (by decide)]
  split
  · rename_i isNaN
    obtain ⟨top, some⟩ := of_decide_eq_true isNaN
    rw [UnpackedFloat.unpack_packedNaN, unpack_eq_ofFields, ofFields, if_pos top, if_neg some]
  · rfl

theorem abs_ofFields (sign : Sign) (exponent : BitVec 11) (fraction : BitVec 52) :
    (ofFields sign exponent fraction).abs = ofFields .positive exponent fraction := by
  unfold ofFields
  split_ifs <;> rfl

/-- The magnitude of a float is that of its parts. -/
theorem unpack_abs (x : Float) : x.abs.toModel.unpack = x.toModel.unpack.abs := by
  have packed : x.abs.toModel.unpack = UnpackedFloat.unpack Format.binary64
      (UnpackedFloat.pack Format.binary64 x.toModel.unpack.abs) := rfl
  have fields : x.toModel.unpack = _ := unpack_eq_ofFields x.toModel.toBits.toBitVec
  rw [packed, fields, abs_ofFields, ← unpack_packComponents, unpack_pack_unpack]

/-! The fields are what is left of the bits by division. -/

theorem toNat_unpackExponent (bits : BitVec 64) :
    (@unpackExponent Format.binary64 bits).toNat = bits.toNat / twoTo 52 % twoTo 11 := by
  rw [UnpackedFloat.unpackExponent_def, BitVec.extractLsb'_toNat, Nat.shiftRight_eq_div_pow]
  rfl

theorem toNat_unpackMantissa (bits : BitVec 64) :
    (@unpackMantissa Format.binary64 bits).toNat = bits.toNat % twoTo 52 := by
  rw [UnpackedFloat.unpackMantissa_def, BitVec.extractLsb'_toNat, Nat.shiftRight_zero]
  rfl

theorem toNat_unpackSign (bits : BitVec 64) :
    (@unpackSign Format.binary64 bits).toNat = bits.toNat / twoTo 63 := by
  rw [UnpackedFloat.unpackSign_def, BitVec.extractLsb'_toNat, Nat.shiftRight_eq_div_pow]
  exact Nat.mod_eq_of_lt (Nat.div_lt_of_lt_mul bits.isLt)

/-! ## Parts -/

namespace Binary64

/-- The sign, as the model of floats has it. -/
def sign (b : Binary64) : Sign :=
  if b.negative then .negative else .positive

/-- The parts, as the model of floats has them. -/
def unpacked (b : Binary64) : UnpackedFloat :=
  if h : b.mantissa = 0 then .zero b.sign
  else .finite b.sign b.mantissa b.exponent (Nat.pos_of_ne_zero h)

theorem unpacked_of_eq {b : Binary64} (h : b.mantissa = 0) : b.unpacked = .zero b.sign :=
  dif_pos h

theorem unpacked_of_ne {b : Binary64} (h : b.mantissa ≠ 0) :
    b.unpacked = .finite b.sign b.mantissa b.exponent (Nat.pos_of_ne_zero h) :=
  dif_neg h

/-- Parts are **canonical** if the mantissa has all of its digits, unless the power of two is the
least. -/
structure IsCanonical (b : Binary64) : Prop where
  fits : b.mantissa < 2 ^ 53
  full : 2 ^ 52 ≤ b.mantissa ∨ b.exponent = -1074

variable {x : Float} {b : Binary64}

theorem ofBitVec_unpackSign (x : Float) :
    Sign.ofBitVec (@unpackSign Format.binary64 x.toModel.toBits.toBitVec) =
      if signBit x then .negative else .positive := by
  have bit : signBit x = ((@unpackSign Format.binary64 x.toModel.toBits.toBitVec).toNat == 1) := by
    rw [toNat_unpackSign]
    rfl
  rw [bit]
  generalize @unpackSign Format.binary64 x.toModel.toBits.toBitVec = sign
  match sign with
  | 0#1 => rfl
  | 1#1 => rfl

/-- **The two views agree**, and parts are canonical. -/
theorem unpack_of_ofFloat? (h : ofFloat? x = some b) :
    x.toModel.unpack = b.unpacked ∧ b.IsCanonical := by
  have fields : x.toModel.unpack = _ := unpack_eq_ofFields x.toModel.toBits.toBitVec
  have top : (-1#11).toNat = 2047 := rfl
  have small := (@unpackMantissa Format.binary64 x.toModel.toBits.toBitVec).isLt
  have decoded : ofFloat? x =
      if (@unpackExponent Format.binary64 x.toModel.toBits.toBitVec).toNat == 2047 then none
      else if (@unpackExponent Format.binary64 x.toModel.toBits.toBitVec).toNat == 0 then
        some ⟨signBit x, (@unpackMantissa Format.binary64 x.toModel.toBits.toBitVec).toNat, -1074⟩
      else some ⟨signBit x,
        twoTo 52 + (@unpackMantissa Format.binary64 x.toModel.toBits.toBitVec).toNat,
        (@unpackExponent Format.binary64 x.toModel.toBits.toBitVec).toNat - 1075⟩ := by
    rw [toNat_unpackExponent, toNat_unpackMantissa]
    rfl
  rw [ofBitVec_unpackSign] at fields
  rw [decoded] at h
  generalize @unpackExponent Format.binary64 x.toModel.toBits.toBitVec = exponent at fields h
  generalize @unpackMantissa Format.binary64 x.toModel.toBits.toBitVec = fraction at fields h small
  rw [fields, ofFields]
  split_ifs at h with isTop isBottom
  · have notTop : exponent ≠ -1#11 := fun same => isTop (by rw [same]; rfl)
    obtain rfl : exponent = 0#11 := BitVec.eq_of_toNat_eq (beq_iff_eq.mp isBottom)
    cases h
    rw [if_neg notTop, if_pos rfl]
    refine ⟨?_, ⟨Nat.lt_trans small (by decide), .inr rfl⟩⟩
    by_cases none : fraction = 0#52
    · have zero : fraction.toNat = 0 := congrArg BitVec.toNat none
      rw [dif_pos none, unpacked_of_eq zero]
      rfl
    · have some : fraction.toNat ≠ 0 := fun zero => none (BitVec.eq_of_toNat_eq zero)
      rw [dif_neg none, unpacked_of_ne some]
      rfl
  · have notTop : exponent ≠ -1#11 := fun same => isTop (by rw [same]; rfl)
    have notBottom : exponent ≠ 0#11 := fun same => isBottom (by rw [same]; rfl)
    cases h
    have full : 2 ^ 52 ≤ twoTo 52 + fraction.toNat := Nat.le_add_right _ _
    rw [if_neg notTop, if_neg notBottom]
    have some : twoTo 52 + fraction.toNat ≠ 0 :=
      Nat.ne_of_gt (Nat.lt_of_lt_of_le (Nat.two_pow_pos 52) full)
    refine ⟨?_, ⟨Nat.add_lt_add_left small (2 ^ 52), .inl full⟩⟩
    rw [unpacked_of_ne some]
    rfl

/-! ## Comparisons -/

/-- A finite float is **not below zero** if it is zero or has no sign. -/
theorem zero_le_iff (h : ofFloat? x = some b) :
    0 ≤ x ↔ b.mantissa = 0 ∨ b.negative = false := by
  have view : 0 ≤ x ↔ UnpackedFloat.le (.zero .positive) x.toModel.unpack = true := by
    show decide ((0 : Float).toModel ≤ x.toModel) = true ↔ _
    rw [decide_eq_true_iff]
    exact Iff.rfl
  rw [view, (unpack_of_ofFloat? h).1]
  by_cases none : b.mantissa = 0
  · rw [unpacked_of_eq none]
    exact iff_of_true rfl (.inl none)
  · rw [unpacked_of_ne none, or_iff_right none, sign]
    cases b.negative with
    | true => exact iff_of_false nofun nofun
    | false => exact iff_of_true rfl rfl

/-- A finite float is **below 10²¹ in magnitude** if its power of two is lower, or if it has the same
and a lower mantissa. -/
theorem abs_lt_iff (h : ofFloat? x = some b) :
    x.abs < 1e21 ↔ b.mantissa = 0 ∨ b.exponent < 17 ∨ b.exponent = 17 ∧ b.mantissa < 5 ^ 21 * 2 ^ 4 := by
  have bound : (1e21 : Float).toModel.unpack = .finite .positive (5 ^ 21 * 2 ^ 4) 17 (by decide) := rfl
  have view : x.abs < 1e21 ↔
      UnpackedFloat.lt x.toModel.unpack.abs (.finite .positive (5 ^ 21 * 2 ^ 4) 17 (by decide)) = true := by
    rw [← bound, ← unpack_abs]
    show decide (x.abs.toModel < (1e21 : Float).toModel) = true ↔ _
    rw [decide_eq_true_iff]
    exact Iff.rfl
  rw [view, (unpack_of_ofFloat? h).1]
  by_cases none : b.mantissa = 0
  · rw [unpacked_of_eq none]
    exact iff_of_true rfl (.inl none)
  · have order : (compare b.exponent 17).then (compare b.mantissa (5 ^ 21 * 2 ^ 4)) = .lt ↔
        b.exponent < 17 ∨ b.exponent = 17 ∧ b.mantissa < 5 ^ 21 * 2 ^ 4 := by
      rw [Ordering.then_eq_lt, Int.compare_eq_lt, Int.compare_eq_eq, Nat.compare_eq_lt]
    rw [unpacked_of_ne none, or_iff_right none, ← order]
    exact beq_iff_eq.trans Option.some_inj

/-! ## Values -/

/-- A whole float is zero if its magnitude is. -/
theorem floorMagnitude_eq_zero_iff (whole : b.isWhole = true) :
    b.floorMagnitude = 0 ↔ b.mantissa = 0 := by
  unfold floorMagnitude
  rcases Bool.or_eq_true_iff.mp whole with natural | divides
  · rw [if_pos (of_decide_eq_true natural), Nat.mul_eq_zero]
    exact or_iff_left (Nat.ne_of_gt (twoTo_pos _))
  · have divides := Nat.dvd_of_mod_eq_zero (beq_iff_eq.mp divides)
    split
    · rw [Nat.mul_eq_zero]
      exact or_iff_left (Nat.ne_of_gt (twoTo_pos _))
    · rw [Nat.div_eq_iff_eq_mul_left (twoTo_pos _) divides, Nat.zero_mul]

/-- The sign does not count for the magnitude. -/
theorem natAbs_truncate (b : Binary64) : b.truncate.natAbs = b.floorMagnitude := by
  rw [truncate]
  split <;> omega

/-- **A whole float is not below zero if its integer is not.** -/
theorem zero_le_iff_truncate (h : ofFloat? x = some b) (whole : b.isWhole = true) :
    0 ≤ x ↔ 0 ≤ b.truncate := by
  rw [zero_le_iff h, ← floorMagnitude_eq_zero_iff whole, truncate]
  cases b.negative with
  | true =>
    rw [if_pos rfl, or_iff_left nofun]
    omega
  | false =>
    rw [if_neg nofun]
    exact iff_of_true (.inr rfl) (Int.natCast_nonneg _)

/-- **A finite float is below 10²¹ in magnitude if its integer part is.** -/
theorem abs_lt_iff_floorMagnitude (h : ofFloat? x = some b) :
    x.abs < 1e21 ↔ b.floorMagnitude < tenTo 21 := by
  show _ ↔ b.floorMagnitude < 10 ^ 21
  have canonical := (unpack_of_ofFloat? h).2
  have fits := canonical.fits
  rw [abs_lt_iff h]
  unfold floorMagnitude
  rcases Int.lt_trichotomy b.exponent 17 with lower | same | higher
  · refine iff_of_true (.inr (.inl lower)) ?_
    split
    · have power : twoTo b.exponent.toNat ≤ 2 ^ 16 := Nat.pow_le_pow_right (by decide) (by omega)
      calc b.mantissa * twoTo b.exponent.toNat
        _ ≤ 2 ^ 53 * 2 ^ 16 := Nat.mul_le_mul (Nat.le_of_lt fits) power
        _ < 10 ^ 21 := by decide
    · exact Nat.lt_of_le_of_lt (Nat.div_le_self _ _) (Nat.lt_trans fits (by decide))
  · have power : twoTo b.exponent.toNat = 2 ^ 17 := by rw [same]; rfl
    rw [if_pos (by omega), power]
    omega
  · have full := canonical.full.resolve_right (by omega)
    have power : 2 ^ 18 ≤ twoTo b.exponent.toNat := Nat.pow_le_pow_right (by decide) (by omega)
    have large : 10 ^ 21 ≤ b.mantissa * twoTo b.exponent.toNat :=
      Nat.le_trans (by decide) (Nat.mul_le_mul full power)
    rw [if_pos (by omega)]
    omega

/-! ## Floats nearest to integers -/

theorem twoTo_eq (n : Nat) : twoTo n = 2 ^ n := rfl

/-- Bits in which a number is spelled are kept. -/
theorem toBits_ofBits {bits : UInt64} (number : bits.toNat / twoTo 52 % twoTo 11 ≠ 2047) :
    (Float.ofBits bits).toBits = bits := by
  have isNumber : ¬ @UnpackedFloat.isNaNBits Format.binary64 bits.toBitVec = true := fun isNaN => by
    obtain ⟨top, -⟩ := of_decide_eq_true isNaN
    exact number ((toNat_unpackExponent bits.toBitVec).symm.trans (congrArg BitVec.toNat top))
  show UInt64.ofBitVec (UnpackedFloat.pack Format.binary64
    (UnpackedFloat.unpack Format.binary64 bits.toBitVec)) = bits
  rw [@UnpackedFloat.pack_unpack Format.binary64 bits.toBitVec (by decide), if_neg isNumber]

/-- **Parts can be read off** the bits that they have been put into. -/
theorem ofFloat?_ofBits (negative : Bool) {mantissa power : Nat} (full : 2 ^ 52 ≤ mantissa)
    (fits : mantissa < 2 ^ 53) (bounded : power ≤ 2045) :
    ofFloat? (Float.ofBits (UInt64.ofNat
      ((if negative then twoTo 63 else 0) + (power * twoTo 52 + mantissa)))) =
      some ⟨negative, mantissa, power - 1074⟩ := by
  have signBits : (if negative then twoTo 63 else 0) = negative.toNat * 2 ^ 63 := by
    cases negative <;> rfl
  have digit := negative.toNat_le
  generalize sum : (if negative then twoTo 63 else 0) + (power * twoTo 52 + mantissa) = bits
  rw [signBits, twoTo_eq] at sum
  have word : (UInt64.ofNat bits).toNat = bits :=
    UInt64.toNat_ofNat_of_lt (show bits < 2 ^ 64 by omega)
  have field : bits / twoTo 52 % twoTo 11 = power + 1 := by rw [twoTo_eq, twoTo_eq]; omega
  have fraction : bits % twoTo 52 = mantissa - 2 ^ 52 := by rw [twoTo_eq]; omega
  have sign : bits / twoTo 63 = negative.toNat := by rw [twoTo_eq]; omega
  have kept : (Float.ofBits (UInt64.ofNat bits)).toBits = UInt64.ofNat bits :=
    toBits_ofBits (by rw [word, field]; omega)
  rw [ofFloat?, signBit, kept, word, field, fraction, sign, if_neg, if_neg]
  · have number : (negative.toNat == 1) = negative := by cases negative <;> rfl
    have whole : twoTo 52 + (mantissa - 2 ^ 52) = mantissa := by rw [twoTo_eq]; omega
    have exponent : ((power + 1 : Nat) : Int) - 1075 = power - 1074 := by omega
    rw [number, whole, exponent]
  · rw [beq_iff_eq]
    omega
  · rw [beq_iff_eq]
    omega

theorem roundHalfEven_bounds (num den : Nat) :
    num / den ≤ roundHalfEven num den ∧ roundHalfEven num den ≤ num / den + 1 := by
  unfold roundHalfEven
  dsimp only
  split
  · omega
  · split <;> omega

theorem roundHalfEven_one (n : Nat) : roundHalfEven n 1 = n := by
  rw [roundHalfEven, Nat.mod_one, Nat.div_one]
  rfl

theorem scaled_of_le {n l : Nat} (h : 52 ≤ l) : scaled n 1 ((l : Int) - 52) = (n, twoTo (l - 52)) := by
  have power : ((l : Int) - 52).toNat = l - 52 := by omega
  rw [scaled, if_pos (by omega), power, Nat.one_mul]

theorem scaled_of_lt {n l : Nat} (h : l < 52) :
    scaled n 1 ((l : Int) - 52) = (n * twoTo (52 - l), 1) := by
  have power : (-((l : Int) - 52)).toNat = 52 - l := by omega
  rw [scaled, if_neg (by omega), power]

/-- A whole number **has 53 digits** before the point, in the unit that is chosen for it. -/
theorem scaled_bounds {n : Nat} (some : n ≠ 0) {a d : Nat} (h : scaled n 1 (n.log2 - 52) = (a, d)) :
    2 ^ 52 ≤ a / d ∧ a / d < 2 ^ 53 := by
  have lower := Nat.log2_self_le some
  have upper : n < 2 ^ (n.log2 + 1) := Nat.lt_log2_self
  generalize n.log2 = l at lower upper h
  rcases Nat.lt_or_ge l 52 with short | long
  · rw [scaled_of_lt short] at h
    cases h
    have split : 2 ^ l * 2 ^ (52 - l) = 2 ^ 52 := by rw [← Nat.pow_add]; congr 1; omega
    rw [Nat.div_one, twoTo_eq, ← split]
    refine ⟨Nat.mul_le_mul_right _ lower, ?_⟩
    calc n * 2 ^ (52 - l)
      _ < 2 ^ (l + 1) * 2 ^ (52 - l) := Nat.mul_lt_mul_of_pos_right upper (Nat.two_pow_pos _)
      _ = 2 ^ 53 := by rw [Nat.pow_succ, Nat.mul_right_comm, split, ← Nat.pow_succ]
  · rw [scaled_of_le long] at h
    cases h
    have split : 2 ^ 52 * 2 ^ (l - 52) = 2 ^ l := by rw [← Nat.pow_add]; congr 1; omega
    rw [twoTo_eq, Nat.le_div_iff_mul_le (Nat.two_pow_pos _), Nat.div_lt_iff_lt_mul (Nat.two_pow_pos _)]
    refine ⟨by rwa [split], ?_⟩
    calc n
      _ < 2 ^ (l + 1) := upper
      _ = 2 ^ 53 * 2 ^ (l - 52) := by rw [Nat.pow_succ, ← split, Nat.mul_right_comm, ← Nat.pow_succ]

theorem unitFor_one {n : Nat} (some : n ≠ 0) : unitFor n 1 = (n.log2 : Int) - 52 := by
  have guess : (n.log2 : Int) - ((1 : Nat).log2 : Nat) - 52 = n.log2 - 52 := by
    rw [show (1 : Nat).log2 = 0 from rfl]
    omega
  obtain ⟨a, d, parts⟩ : ∃ a d, scaled n 1 (n.log2 - 52) = (a, d) := ⟨_, _, rfl⟩
  have digits : ¬ a / d < twoTo 52 := Nat.not_lt.mpr (scaled_bounds some parts).1
  unfold unitFor
  dsimp only
  rw [guess, parts, if_neg digits]
  omega

theorem log2_lt_of_lt_twoTo {n k : Nat} (some : n ≠ 0) (h : n < twoTo k) : n.log2 < k :=
  (Nat.log2_lt some).mpr h

/-- **The bits of the float nearest to a whole number** below 2¹⁰²³: in units of a power of two it is
a number with 53 digits, and if the unit is below one no digit has been lost. -/
theorem exists_nearestBits {n : Nat} (some : n ≠ 0) (small : n < twoTo 1023) :
    ∃ mantissa power, 2 ^ 52 ≤ mantissa ∧ mantissa < 2 ^ 53 ∧ power ≤ 2045
      ∧ nearestBits n 1 = power * twoTo 52 + mantissa
      ∧ (1074 ≤ power ∨ mantissa = n * twoTo (1074 - power)) := by
  have size : n.log2 ≤ 1022 := Nat.le_of_lt_succ (log2_lt_of_lt_twoTo some small)
  have unit : ((n.log2 : Int) - 52 + 1074).toNat = n.log2 + 1022 := by omega
  obtain ⟨a, d, parts⟩ : ∃ a d, scaled n 1 (n.log2 - 52) = (a, d) := ⟨_, _, rfl⟩
  have digits := scaled_bounds some parts
  have near := roundHalfEven_bounds a d
  have bits : nearestBits n 1 = (n.log2 + 1022) * twoTo 52 + roundHalfEven a d := by
    rw [nearestBits, if_neg (by simpa using some), unitFor_one some]
    dsimp only
    rw [parts, unit, twoTo_eq]
    dsimp only
    exact Nat.min_eq_left (by omega)
  rcases Nat.lt_or_ge n.log2 52 with short | long
  · rw [scaled_of_lt short] at parts
    cases parts
    rw [Nat.div_one] at digits
    rw [roundHalfEven_one] at bits
    refine ⟨_, _, digits.1, digits.2, by omega, bits, .inr ?_⟩
    rw [show 1074 - (n.log2 + 1022) = 52 - n.log2 by omega]
  · rcases Nat.lt_or_ge (roundHalfEven a d) (2 ^ 53) with fits | carried
    · exact ⟨_, _, Nat.le_trans digits.1 near.1, fits, by omega, bits, .inl (by omega)⟩
    · refine ⟨2 ^ 52, n.log2 + 1023, Nat.le_refl _, by decide, by omega, ?_, .inl (by omega)⟩
      rw [bits, twoTo_eq]
      omega

/-- **An integer below 2¹⁰²³ has a nearest float**, which is whole. -/
theorem exists_roundInt {n : Int} (small : n.natAbs < twoTo 1023) :
    ∃ b, ofFloat? (roundInt n) = some b ∧ b.isWhole = true := by
  by_cases zero : n = 0
  · subst zero
    have float : roundInt 0 = Float.ofBits 0 := rfl
    have parts : ofFloat? (roundInt 0) = some ⟨false, 0, -1074⟩ := by
      rw [float, ofFloat?, signBit, toBits_ofBits (by decide)]
      rfl
    exact ⟨_, parts, Bool.or_eq_true_iff.mpr (.inr (by rw [Nat.zero_mod]; rfl))⟩
  · obtain ⟨mantissa, power, full, fits, bounded, bits, exact'⟩ :=
      exists_nearestBits (Int.natAbs_ne_zero.mpr zero) small
    refine ⟨⟨n < 0, mantissa, power - 1074⟩, ?_, ?_⟩
    · have float := ofFloat?_ofBits (n < 0) full fits bounded
      rw [← bits] at float
      exact float
    · rcases exact' with natural | whole
      · exact Bool.or_eq_true_iff.mpr (.inl (decide_eq_true (by dsimp only; omega)))
      · have unit : (-((power : Int) - 1074)).toNat = 1074 - power := by omega
        refine Bool.or_eq_true_iff.mpr (.inr (beq_iff_eq.mpr ?_))
        dsimp only
        rw [unit, whole, Nat.mul_mod_left]

theorem nearestBits_le (num den : Nat) : nearestBits num den ≤ 2047 * twoTo 52 := by
  unfold nearestBits
  split
  · exact Nat.zero_le _
  · exact Nat.min_le_right _ _

/-- The exponent of what is **not a number** is the greatest, and there is a fraction. -/
theorem fields_of_isNaN {bits : UInt64} (h : (Float.ofBits bits).isNaN = true) :
    bits.toNat / twoTo 52 % twoTo 11 = 2047 ∧ bits.toNat % twoTo 52 ≠ 0 := by
  have fields : (Float.ofBits bits).toModel.unpack = _ :=
    (unpack_pack_unpack bits.toBitVec).trans (unpack_eq_ofFields bits.toBitVec)
  have isNaN : (Float.ofBits bits).toModel.unpack.isNaN = true := h
  rw [fields, ofFields] at isNaN
  split_ifs at isNaN with top none
  · cases isNaN
  · refine ⟨?_, fun zero => none (BitVec.eq_of_toNat_eq ?_)⟩
    · exact (toNat_unpackExponent bits.toBitVec).symm.trans (congrArg BitVec.toNat top)
    · exact (toNat_unpackMantissa bits.toBitVec).trans zero
  all_goals cases isNaN

/-- The float nearest to a quotient is a number. -/
theorem isNaN_nearest (negative : Bool) (num den : Nat) : (nearest negative num den).isNaN = false := by
  by_contra isNaN
  obtain ⟨top, some⟩ := fields_of_isNaN (Bool.not_eq_false _ ▸ isNaN)
  have bound := nearestBits_le num den
  have sign : (if negative then twoTo 63 else 0) = 0 ∨ (if negative then twoTo 63 else 0) = 2 ^ 63 := by
    cases negative
    · exact .inl rfl
    · exact .inr rfl
  generalize (if negative then twoTo 63 else 0) = signBits at sign top some
  generalize nearestBits num den = magnitude at bound top some
  rw [twoTo_eq] at bound
  have word : (UInt64.ofNat (signBits + magnitude)).toNat = signBits + magnitude :=
    UInt64.toNat_ofNat_of_lt (show signBits + magnitude < 2 ^ 64 by omega)
  rw [word, twoTo_eq] at top some
  rw [twoTo_eq] at top
  omega
/-- A finite float is not infinite. -/
theorem isInf_eq_false (h : ofFloat? x = some b) : x.isInf = false := by
  show x.toModel.unpack.isInf = false
  rw [(unpack_of_ofFloat? h).1, unpacked]
  split <;> rfl

/-- The float nearest to an integer below 2¹⁰²³ can be asked for. -/
theorem floatOfInt_of_lt {n : Int} (small : n.natAbs < twoTo 1023) :
    floatOfInt n = .ok (roundInt n) := by
  obtain ⟨b, parts, -⟩ := exists_roundInt small
  have allowed : (Demand.float n).isExcessive = false := isInf_eq_false parts
  rw [floatOfInt, Demand.meet_of_allowed allowed]
  rfl

end Binary64

end Scriptlet
