import Scriptlet.Method
import Scriptlet.Proofs.Access
import Scriptlet.Proofs.Naming.Magnitude
import Scriptlet.Proofs.Readback.Numeral

/-!
# Numerals in a base

The digits of an integer in a base are the remainders of dividing by it again and again, the last
one first. This is how numerals are made in every base but ten, where the host writes them, and for
all of them it is the same to be a numeral: the digits are below the base, none of them is a zero in
front, and together they have the value.

Numerals in three of the bases can be read as well, behind a zero and a letter. The reader knows more
digits than the writer, among them capital letters, but it takes those of the writer for what they
are. There is no bound to what it reads. One to what is written is set by the detour over floats: an
integer must have a nearest float before it is asked whether that is whole.
-/

namespace Scriptlet

/-! ## Spelling with digits -/

/-- The signs of the digits, up to those of base 36. -/
def digitSigns : Text := "0123456789abcdefghijklmnopqrstuvwxyz"

/-- Digits as they are **written**. -/
def Text.ofDigits (digits : List Nat) : Text :=
  digits.map fun d => digitSigns.getD d 0

/-- Digits **spell** a number in a base, the one with the greatest weight first. -/
structure Spells (base : Nat) (digits : List Nat) (n : Nat) : Prop where
  /-- There is a digit. -/
  ne_nil : digits ≠ []
  /-- Each is below the base. -/
  below : ∀ d ∈ digits, d < base
  /-- A zero in front is the only digit. -/
  front : digits.head? = some 0 → digits = [0]
  /-- Together they have the value. -/
  value : Nat.ofDigits base digits.reverse = n

/-- A text **is the numeral** of an integer in a base. -/
def Text.IsNumeral (base : Nat) (n : Int) (t : Text) : Prop :=
  ∃ digits, Spells base digits n.natAbs ∧ t = (if n < 0 then "-" else "") ++ Text.ofDigits digits

/-- The digits of a number that are found by dividing, the last one first. -/
def digitsOf (base n : Nat) : List Nat :=
  if n = 0 then [0] else (Nat.digits base n).reverse

variable {base n : Nat}

theorem digitsOf_of_ne (some : n ≠ 0) : digitsOf base n = (Nat.digits base n).reverse :=
  if_neg some

/-- **The digits of a number spell it.** -/
theorem spells_digitsOf (atLeast : 2 ≤ base) (n : Nat) : Spells base (digitsOf base n) n := by
  by_cases zero : n = 0
  · subst zero
    exact ⟨List.cons_ne_nil _ _, fun d hd => by rw [List.mem_singleton.mp hd]; omega, fun _ => rfl, by
      show Nat.ofDigits base [0] = 0
      rw [Nat.ofDigits_singleton]⟩
  · rw [digitsOf_of_ne zero]
    have some : Nat.digits base n ≠ [] := Nat.digits_ne_nil_iff_ne_zero.mpr zero
    refine ⟨mt List.reverse_eq_nil_iff.mp some, fun d hd => ?_, fun front => ?_, ?_⟩
    · exact Nat.digits_lt_base atLeast (List.mem_reverse.mp hd)
    · rw [List.head?_reverse, List.getLast?_eq_some_getLast some] at front
      exact absurd (Option.some.inj front) (Nat.getLast_digit_ne_zero base zero)
    · rw [List.reverse_reverse, Nat.ofDigits_digits]

/-! ## Writing -/

/-- What stands for a digit. -/
theorem sign_of_digit {d : Nat} (small : d < 36) :
    (if d < 10 then '0'.toNat + d else 'a'.toNat + (d - 10)) = digitSigns.getD d 0 := by
  have all : ∀ d < 36,
      (if d < 10 then '0'.toNat + d else 'a'.toNat + (d - 10)) = digitSigns.getD d 0 := by decide
  exact all d small

theorem digitsInBase_eq (atLeast : 2 ≤ base) (atMost : base ≤ 36) {steps : Nat} (enough : n < 2 ^ steps) :
    digitsInBase base steps n = Text.ofDigits (Nat.digits base n).reverse := by
  induction steps generalizing n with
  | zero =>
    obtain rfl : n = 0 := by omega
    rw [Nat.digits_zero]
    rfl
  | succ steps ih =>
    by_cases zero : n = 0
    · subst zero
      rw [Nat.digits_zero]
      rfl
    · have smaller : n / base < 2 ^ steps := by
        rw [Nat.div_lt_iff_lt_mul (by omega)]
        exact Nat.lt_of_lt_of_le enough (Nat.mul_le_mul_left (2 ^ steps) atLeast)
      rw [digitsInBase, if_neg (by simpa using zero), Nat.digits_def' atLeast (Nat.pos_of_ne_zero zero),
        ih smaller, List.reverse_cons, Text.ofDigits, Text.ofDigits, List.map_append]
      dsimp only
      rw [sign_of_digit (Nat.lt_of_lt_of_le (Nat.mod_lt n (by omega)) atMost)]
      rfl

/-- An integer is written behind a sign if it is negative. -/
theorem numeralInBase_eq (atLeast : 2 ≤ base) (atMost : base ≤ 36) (n : Int) :
    numeralInBase base n = (if n < 0 then "-" else "") ++ Text.ofDigits (digitsOf base n.natAbs) := by
  by_cases zero : n = 0
  · subst zero
    rfl
  · rw [numeralInBase, if_neg (by simpa using zero), digitsInBase_eq atLeast atMost Nat.lt_log2_self,
      digitsOf_of_ne (Int.natAbs_ne_zero.mpr zero)]

/-- **In base ten the host writes the same digits.** -/
theorem ofNat_eq_ofDigits (n : Nat) : Text.ofNat n = Text.ofDigits (digitsOf 10 n) := by
  have figure : ∀ d < 10, (Nat.digitChar d).toNat = digitSigns.getD d 0 := by decide
  rw [Text.ofNat_eq]
  induction n using Nat.strongRecOn with
  | ind n ih =>
    rcases Nat.lt_or_ge n 10 with small | large
    · have single : digitsOf 10 n = [n] := by
        by_cases zero : n = 0
        · exact (if_pos zero).trans (by rw [zero])
        · rw [digitsOf_of_ne zero, Nat.digits_of_lt 10 n zero small]
          rfl
      rw [Nat.toDigits_of_lt_base small, single, List.map_singleton, figure n small]
      rfl
    · have behind : digitsOf 10 n = digitsOf 10 (n / 10) ++ [n % 10] := by
        rw [digitsOf_of_ne (by omega), digitsOf_of_ne (by omega),
          Nat.digits_def' (by decide) (by omega), List.reverse_cons]
      rw [Nat.toDigits_of_base_le (by decide) large, behind, List.map_append, ih _ (by omega),
        List.map_singleton, figure _ (Nat.mod_lt n (by decide)), Text.ofDigits, Text.ofDigits,
        List.map_append]
      rfl

theorem ofInt_eq_ofDigits (n : Int) :
    Text.ofInt n = (if n < 0 then "-" else "") ++ Text.ofDigits (digitsOf 10 n.natAbs) := by
  rw [Text.ofInt_eq, ofNat_eq_ofDigits]
  by_cases negative : n < 0
  · rw [if_neg (by omega), if_pos negative]
    rfl
  · rw [if_pos (by omega), if_neg negative]
    rfl

/-! ## Reading -/

/-- What a digit is to the code that reads numerals. -/
structure IsDigitSign (d : Nat) (c : CodePoint) : Prop where
  value : Text.digitValue? c = some d
  ascii : c < 128
  notBlank : Text.isBlank c = false

theorem isDigitSign_getD {d : Nat} (small : d < 36) : IsDigitSign d (digitSigns.getD d 0) := by
  have all : ∀ d < 36, Text.digitValue? (digitSigns.getD d 0) = some d ∧ digitSigns.getD d 0 < 128
      ∧ Text.isBlank (digitSigns.getD d 0) = false := by decide +kernel
  obtain ⟨value, ascii, notBlank⟩ := all d small
  exact ⟨value, ascii, notBlank⟩

/-- A step that takes a digit behind a number makes of all digits the number that they spell. -/
theorem foldlM_ofDigits {next : Nat → CodePoint → Option Nat}
    (adds : ∀ n, ∀ d < base, next n (digitSigns.getD d 0) = some (d + base * n)) {digits : List Nat}
    (below : ∀ d ∈ digits, d < base) :
    (Text.ofDigits digits).foldlM next 0 = some (Nat.ofDigits base digits.reverse) := by
  have steps (start : Nat) : (Text.ofDigits digits).foldlM next start =
      some (digits.foldl (fun n d => d + base * n) start) := by
    induction digits generalizing start with
    | nil => rfl
    | cons d digits ih =>
      obtain ⟨first, more⟩ := List.forall_mem_cons.mp below
      rw [Text.ofDigits, List.map_cons, List.foldlM_cons, adds start d first]
      exact ih more _
  rw [steps, Nat.ofDigits_eq_foldr, List.foldr_reverse]
  rfl

/-- **Digits are read as the number that they spell.** -/
theorem intOfRadix?_ofDigits (atMost : base ≤ 36) {digits : List Nat} (h : Spells base digits n) :
    intOfRadix? base (Text.ofDigits digits) = some n := by
  have notEmpty : (Text.ofDigits digits).isEmpty = false := by
    rw [List.isEmpty_eq_false_iff]
    exact mt List.map_eq_nil_iff.mp h.ne_nil
  rw [intOfRadix?, notEmpty, if_neg nofun, foldlM_ofDigits _ h.below, h.value]
  · rfl
  · intro n d small
    rw [(isDigitSign_getD (Nat.lt_of_lt_of_le small atMost)).value]
    dsimp only
    rw [if_pos small, Nat.add_comm]

theorem readRadix?_ofDigits {letter : CodePoint} (announced : radixOfLetter? letter = some base)
    (atMost : base ≤ 36) {digits : List Nat} (h : Spells base digits n) :
    readRadix? ('0' :: letter :: Text.ofDigits digits) = some (n : Int) := by
  have ascii : isAscii (Text.ofDigits digits) = true := by
    refine List.all_eq_true.mpr fun c hc => decide_eq_true ?_
    obtain ⟨d, hd, rfl⟩ := List.mem_map.mp hc
    exact (isDigitSign_getD (Nat.lt_of_lt_of_le (h.below d hd) atMost)).ascii
  rw [readRadix?, ascii, announced]
  exact intOfRadix?_ofDigits atMost h

/-- **A numeral behind a zero and the letter of its base is read as its number.** -/
theorem numberOfText_ofDigits {letter : CodePoint} (announced : radixOfLetter? letter = some base)
    (notBlank : Text.isBlank letter = false) (atMost : base ≤ 36) {digits : List Nat}
    (h : Spells base digits n) :
    numberOfText ('0' :: letter :: Text.ofDigits digits) = .ok (.int n) := by
  have plain : ∀ c ∈ (('0' : CodePoint) :: letter :: Text.ofDigits digits), Text.isBlank c = false := by
    refine List.forall_mem_cons.mpr ⟨by decide +kernel, List.forall_mem_cons.mpr ⟨notBlank, fun c hc => ?_⟩⟩
    obtain ⟨d, hd, rfl⟩ := List.mem_map.mp hc
    exact (isDigitSign_getD (Nat.lt_of_lt_of_le (h.below d hd) atMost)).notBlank
  unfold numberOfText
  dsimp only
  rw [Text.trim_of_notBlank plain, readRadix?_ofDigits announced atMost h]
  rfl

/-! ## Methods -/

namespace NumberMethod

/-- In base ten a number takes no more digits than in base two. -/
theorem length_ofNat_le_of_lt_twoTo {m k : Nat} (some : 0 < k) (small : m < twoTo k) :
    (Text.ofNat m).length ≤ k :=
  Text.length_ofNat_le_of_lt some
    (Nat.lt_of_lt_of_le small (Nat.pow_le_pow_left (by decide : 2 ≤ 10) k))

/-- **An integer is written with the digits that spell it**, in any base, unless it is too large to
be near to a float. -/
theorem inBase_int (s : Store) {n : Int} (small : n.natAbs < twoTo 1023) (atLeast : 2 ≤ base)
    (atMost : base ≤ 36) :
    inBase (.int n) (.int base) s =
      .ok ((if n < 0 then "-" else "") ++ Text.ofDigits (digitsOf base n.natAbs)) s := by
  obtain ⟨b, parts, whole⟩ := Binary64.exists_roundInt small
  have radix : Step.read (baseOf · (.int base)) s = .ok (base : Int) s := Step.read_of_ok rfl
  have bounds : ¬ (decide ((base : Int) < 2) || decide (36 < (base : Int))) = true := by
    rw [Bool.or_eq_true, decide_eq_true_iff, decide_eq_true_iff]
    omega
  refine (Step.bind_of_ok radix).trans ?_
  rw [if_neg bounds]
  by_cases ten : ((base : Int) == 10) = true
  · obtain rfl : base = 10 := by have same := beq_iff_eq.mp ten; omega
    have short := length_ofNat_le_of_lt_twoTo (by decide) small
    have display : (Number.int n).display = .ok (Text.ofInt n) :=
      numeralOfInt_of_length (Nat.le_trans short (by decide))
    rw [if_pos ten, display, ofInt_eq_ofDigits]
    rfl
  · have float : Step.ofExcept (Number.int n).toFloat s = .ok (roundInt n) s :=
      Step.ofExcept_of_ok (Binary64.floatOfInt_of_lt small)
    rw [if_neg ten]
    refine (Step.bind_of_ok float).trans ?_
    rw [parts]
    dsimp only
    rw [if_pos whole, Int.toNat_natCast, numeralInBase_eq atLeast atMost]
    rfl

theorem call_toString (run : Runner) (s : Store) {n : Int} (small : n.natAbs < twoTo 1023)
    (atLeast : 2 ≤ base) (atMost : base ≤ 36) :
    Step.callMethod run (.int n) "toString" [.int base] s =
      .ok (.text ((if n < 0 then "-" else "") ++ Text.ofDigits (digitsOf base n.natAbs))) s := by
  show EStateM.map _ (inBase (.int n) (.int base)) s = _
  rw [EStateM.map, inBase_int s small atLeast atMost]

/-- What is written of a number is read as the number behind a zero and the letter of the base. -/
theorem exists_call_toString (run : Runner) (s : Store) {n : Int} (small : n.natAbs < twoTo 1023)
    (natural : 0 ≤ n) (base : Nat) {letter : CodePoint}
    (announced : radixOfLetter? letter = some base) (notBlank : Text.isBlank letter = false)
    (atLeast : 2 ≤ base) (atMost : base ≤ 36) :
    ∃ t : Text, Step.callMethod run (.int n) "toString" [.int base] s = .ok (.text t) s
      ∧ s.numberOf (.text ('0' :: letter :: t)) = .ok (.int n) := by
  refine ⟨_, call_toString run s small atLeast atMost, ?_⟩
  have read := numberOfText_ofDigits announced notBlank atMost (spells_digitsOf atLeast n.natAbs)
  rw [Int.natAbs_of_nonneg natural] at read
  rw [if_neg (Int.not_lt.mpr natural)]
  exact read

/-- **Numerals are positional**: an integer that is not too large for floats is written, in any base,
with digits that spell it. In the bases that can be announced by a letter, what is written of an
integer that is not negative is read as the integer. -/
theorem writes_numerals (run : Runner) (s : Store) {n : Int} (small : n.natAbs < twoTo 1023) :
    (∀ base : Nat, 2 ≤ base → base ≤ 36 → ∃ t : Text, t.IsNumeral base n
      ∧ Step.callMethod run (.int n) "toString" [.int base] s = .ok (.text t) s)
    ∧ (0 ≤ n → ∀ mark ∈ ([("0x", 16), ("0o", 8), ("0b", 2)] : List (Text × Int)),
      ∃ t : Text, Step.callMethod run (.int n) "toString" [.int mark.2] s = .ok (.text t) s
        ∧ s.numberOf (.text (mark.1 ++ t)) = .ok (.int n)) := by
  refine ⟨fun base atLeast atMost => ?_, fun natural => ?_⟩
  · exact ⟨_, ⟨_, spells_digitsOf atLeast n.natAbs, rfl⟩, call_toString run s small atLeast atMost⟩
  · simp only [List.forall_mem_cons]
    refine ⟨?_, ?_, ?_, nofun⟩
    · exact exists_call_toString run s small natural 16 (rfl : radixOfLetter? 'x' = some 16)
        (by decide +kernel) (by decide) (by decide)
    · exact exists_call_toString run s small natural 8 (rfl : radixOfLetter? 'o' = some 8)
        (by decide +kernel) (by decide) (by decide)
    · exact exists_call_toString run s small natural 2 (rfl : radixOfLetter? 'b' = some 2)
        (by decide +kernel) (by decide) (by decide)

example : numeralInBase 16 (-255) = "-ff" := by decide +kernel

/-- Of two figures in base 36, and of two in base 16 that are read again. -/
theorem writes_numerals_of_two_figures :
    (255 : Int).natAbs < twoTo 1023
    ∧ (∃ t : Text, t.IsNumeral 36 255
      ∧ Step.callMethod (Task.runTo .bare 0) (.int 255) "toString" [.int 36] .empty = .ok (.text t) .empty)
    ∧ ∃ t : Text,
      Step.callMethod (Task.runTo .bare 0) (.int 255) "toString" [.int 16] .empty = .ok (.text t) .empty
        ∧ Store.empty.numberOf (.text ("0x" ++ t)) = .ok (.int 255) := by
  have small : (255 : Int).natAbs < twoTo 1023 := by decide +kernel
  obtain ⟨written, read⟩ := writes_numerals (Task.runTo .bare 0) .empty small
  exact ⟨small, written 36 (by decide) (by decide), read (by decide) _ List.mem_cons_self⟩

end NumberMethod

end Scriptlet
