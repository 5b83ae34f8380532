import Scriptlet.Proofs.Access
import Scriptlet.Proofs.Readback.Numeral

/-!
# Texts as indices

The items of lists and texts go by numbers, and a text is taken for such a number if it is the
numeral of one. It should be so for nothing but the numeral that the number is written with:
otherwise two texts would name the same item, and a list would not keep its items apart from
one another as an object does its entries.

The reader of indices looks for a row of digits without a superfluous zero in front. But what
it takes for digits are the digits of all scripts, and the marks that look like digits and have
no value. So a row of digits that are not all plain is either read as the numeral of another
text or not read at all, and the host faults on it; the latter also happens to a row that is
longer than the host converts. Everything else is read as it should be.
-/

namespace Scriptlet

/-! ## Numerals -/

/-- A figure is zero's code point and its value, which is below ten. -/
theorem Text.figure_eq {c : Nat} (hc : isPlainDigit c = true) :
    c - 0x30 < 10 ∧ 0x30 + (c - 0x30) = c := by
  obtain ⟨least, most⟩ : 0x30 ≤ c ∧ c ≤ 0x39 := by simpa [isPlainDigit] using hc
  omega

/-- A figure is the numeral of its value. -/
theorem Text.ofNat_figure {c : CodePoint} (hc : isPlainDigit c = true) :
    Text.ofNat (c - 0x30) = [c] := by
  obtain ⟨small, same⟩ := figure_eq hc
  rw [ofNat_eq, Nat.toDigits_of_lt_base small, List.map_singleton,
    Nat.toNat_digitChar_of_lt_ten small, same]

/-- The numeral of a number goes on with a figure as that of ten times the number and the
figure's value. -/
theorem Text.ofNat_append_figure {n : Nat} (hn : 0 < n) {c : CodePoint}
    (hc : isPlainDigit c = true) : Text.ofNat n ++ [c] = Text.ofNat (10 * n + (c - 0x30)) := by
  rw [← ofNat_figure hc, ofNat_eq, ofNat_eq, ofNat_eq, ← List.map_append,
    Nat.toDigits_append_toDigits (by decide) hn (figure_eq hc).1]

/-- The numeral of a number that is not zero does not begin with a zero. -/
theorem Text.head?_ofNat_ne {n : Nat} (hn : 0 < n) :
    (Text.ofNat n).head? ≠ some ('0' : CodePoint) := by
  induction n using Nat.strong_induction_on with
  | _ n ih =>
    by_cases small : n < 10
    · have figure : ∀ n < 10, 0 < n → (Nat.digitChar n).toNat ≠ '0'.toNat := by decide
      rw [ofNat_eq, Nat.toDigits_of_lt_base small]
      simpa using figure n small hn
    · -- The numeral begins as that of a tenth of the number does.
      have shorter := ih (n / 10) (by omega) (by omega)
      have some := ofNat_ne_nil (n / 10)
      rw [ofNat_eq] at shorter some ⊢
      rw [Nat.toDigits_of_base_le (by decide) (by omega), List.map_append,
        List.head?_append, List.head?_eq_some_head some, Option.some_or, ← List.head?_eq_some_head]
      exact shorter

/-- What is read of a row of figures behind the numeral of a number gives the numeral of all of
them together. -/
theorem Text.ofNat_append {next : Nat → CodePoint → Nat}
    (adds : ∀ n c, isPlainDigit c = true → next n c = 10 * n + (c - 0x30)) {figures : Text}
    (h : figures.OfFigures) {n : Nat} (hn : 0 < n) :
    Text.ofNat n ++ figures = Text.ofNat (figures.foldl next n) := by
  induction figures generalizing n with
  | nil => rw [List.append_nil, List.foldl_nil]
  | cons c figures ih =>
    have plain := h c List.mem_cons_self
    have more : OfFigures figures := fun d hd => h d (List.mem_cons_of_mem _ hd)
    rw [List.foldl_cons, adds n c plain, List.append_cons, ofNat_append_figure hn plain]
    exact ih more (Nat.add_pos_left (Nat.mul_pos (by decide) hn) _)

/-! ## Rows of digits -/

/-- A **row of digits** as the reader of indices looks for it: digits of any script and digit
marks, with no superfluous zero in front. -/
structure Text.IsDigitRow (t : Text) : Prop where
  ne_nil : t ≠ []
  digits : ∀ c ∈ t, isDigit c = true
  front : t = "0" ∨ t.head? ≠ some ('0' : CodePoint)

/-- A row of digits can be **converted** if all of them have a value and there are not too many. -/
structure Text.IsConvertible (t : Text) : Prop where
  decimal : ∀ c ∈ t, isDecimal c = true
  short : t.length ≤ digitLimit

variable {t : Text}

theorem Text.isDigitRow_ofNat (n : Nat) : (Text.ofNat n).IsDigitRow where
  ne_nil := ofNat_ne_nil n
  digits c hc := by
    rw [isDigit, (ofFigures_ofNat n).isDecimal c hc]
    rfl
  front := by
    rcases Nat.eq_zero_or_pos n with rfl | hn
    · exact .inl (by decide)
    · exact .inr (head?_ofNat_ne hn)

/-- **A row of figures is the numeral of its value.** -/
theorem Text.IsDigitRow.ofNat_eq (h : t.IsDigitRow) (figures : t.OfFigures) :
    Text.ofNat (valueOfDecimals t) = t := by
  -- The step is left open, for the one that is meant also takes digits of other scripts.
  have steps {next : Nat → CodePoint → Nat}
      (adds : ∀ n c, isPlainDigit c = true → next n c = 10 * n + (c - 0x30)) :
      Text.ofNat (t.foldl next 0) = t := by
    match t with
    | [] => exact absurd rfl h.ne_nil
    | c :: rest =>
      have plain := figures c List.mem_cons_self
      have more : OfFigures rest := fun d hd => figures d (List.mem_cons_of_mem _ hd)
      rw [List.foldl_cons, adds 0 c plain, Nat.mul_zero, Nat.zero_add]
      rcases h.front with zero | notZero
      · -- A zero in front stands alone.
        obtain ⟨rfl, rfl⟩ := List.cons.inj (zero.trans (by decide : ("0" : Text) = [0x30]))
        exact ofNat_figure plain
      · have first : 0 < c - 0x30 := by
          refine Nat.pos_of_ne_zero fun none => notZero ?_
          rw [← (figure_eq plain).2, none]
          rfl
        rw [← ofNat_append adds more first, ofNat_figure plain]
        rfl
  rw [valueOfDecimals, steps]
  intro n c hc
  rw [(isFigure_of_isPlainDigit hc).value]

theorem indexOfText?_of_isDigitRow (h : t.IsDigitRow) :
    indexOfText? t = (fun n => some n.toNat) <$> intOfDigits t := by
  rw [indexOfText?, if_pos]
  simp only [Bool.and_eq_true, Bool.not_eq_true', List.isEmpty_eq_false_iff, List.all_eq_true,
    Bool.or_eq_true, beq_iff_eq, bne_iff_ne]
  exact ⟨⟨h.ne_nil, h.digits⟩, h.front⟩

/-- A text that is no row of digits has no index. -/
theorem indexOfText?_of_not_isDigitRow (h : ¬ t.IsDigitRow) : indexOfText? t = .ok none := by
  rw [indexOfText?, if_neg]
  intro asked
  simp only [Bool.and_eq_true, Bool.not_eq_true', List.isEmpty_eq_false_iff, List.all_eq_true,
    Bool.or_eq_true, beq_iff_eq, bne_iff_ne] at asked
  exact h ⟨asked.1.1, asked.1.2, asked.2⟩

theorem Demand.isExcessive_digits (ne : t ≠ []) :
    (Demand.digits t).isExcessive = false ↔ t.IsConvertible := by
  rw [Demand.isExcessive, List.isEmpty_eq_false_iff.mpr ne, Bool.false_or, Bool.or_eq_false_iff,
    decide_eq_false_iff_not, Nat.not_lt, Bool.not_eq_false', List.all_eq_true]
  exact ⟨fun h => ⟨h.2, h.1⟩, fun h => ⟨h.short, h.decimal⟩⟩

/-- A row of digits that can be converted is taken for its value. -/
theorem Text.IsDigitRow.index (row : t.IsDigitRow) (h : t.IsConvertible) :
    indexOfText? t = .ok (some (valueOfDecimals t)) := by
  have allowed := (Demand.isExcessive_digits row.ne_nil).mpr h
  rw [indexOfText?_of_isDigitRow row, intOfDigits, Demand.meet_of_allowed allowed]
  rfl

/-- On a row of digits that cannot be converted the host faults. -/
theorem Text.IsDigitRow.no_index (row : t.IsDigitRow) (h : ¬ t.IsConvertible) :
    ∃ u, indexOfText? t = .error u ∧ u.demand = .digits t := by
  have excessive : (Demand.digits t).isExcessive = true := by
    rw [← Bool.not_eq_false, Demand.isExcessive_digits row.ne_nil]
    exact h
  refine ⟨⟨.digits t, excessive⟩, ?_, rfl⟩
  rw [indexOfText?_of_isDigitRow row, intOfDigits, Demand.meet_of_excessive excessive]
  rfl

/-! ## Canonical readings -/

/-- A text is **read canonically** as an index: without a fault, and as the number of which it
is the numeral, if it is the numeral of one. -/
def Text.IsReadCanonically (t : Text) : Prop :=
  ∃ index?, indexOfText? t = .ok index? ∧ ∀ i, index? = some i ↔ t = Text.ofNat i

/-- **All texts are read canonically but rows of digits that are not plain or too long.** -/
theorem Text.isReadCanonically_iff :
    t.IsReadCanonically ↔ (t.IsDigitRow → t.OfFigures ∧ t.length ≤ digitLimit) := by
  constructor
  · rintro ⟨index?, reads, canonical⟩ row
    by_cases convertible : t.IsConvertible
    · -- A numeral consists of figures, so what is read as its own does.
      cases reads.symm.trans (row.index convertible)
      have numeral := (canonical _).mp rfl
      exact ⟨numeral ▸ ofFigures_ofNat _, convertible.short⟩
    · obtain ⟨u, faults, -⟩ := row.no_index convertible
      cases reads.symm.trans faults
  · intro plain
    by_cases row : t.IsDigitRow
    · obtain ⟨figures, short⟩ := plain row
      refine ⟨_, row.index ⟨figures.isDecimal, short⟩, fun i => ⟨?_, ?_⟩⟩
      · rintro ⟨⟩
        exact (row.ofNat_eq figures).symm
      · rintro rfl
        rw [valueOfDecimals_ofNat]
    · refine ⟨none, indexOfText?_of_not_isDigitRow row, fun i => ⟨nofun, ?_⟩⟩
      rintro rfl
      exact absurd (isDigitRow_ofNat i) row

/-- Two texts that are read canonically have different indices. -/
theorem Text.IsReadCanonically.unique {u : Text} {i : Nat} (ht : t.IsReadCanonically)
    (hu : u.IsReadCanonically) (hti : indexOfText? t = .ok (some i))
    (hui : indexOfText? u = .ok (some i)) : t = u := by
  obtain ⟨_, reads, canonical⟩ := ht
  obtain ⟨_, reads', canonical'⟩ := hu
  cases reads.symm.trans hti
  cases reads'.symm.trans hui
  rw [(canonical i).mp rfl, (canonical' i).mp rfl]

theorem Text.decimalValue?_lt {c : CodePoint} {d : Nat} (h : decimalValue? c = some d) :
    d < 10 := by
  unfold decimalValue? at h
  dsimp only at h
  split at h
  · rename_i row
    cases h
    exact Nat.sub_lt_left_of_lt_add row.1 row.2.1
  · cases h

/-- The value of a row of digits is below the power of ten of its length. -/
theorem valueOfDecimals_lt (t : Text) : valueOfDecimals t < tenTo t.length := by
  -- Behind a value that has been read already, it is the successor of that which bounds the whole.
  have steps {next : Nat → CodePoint → Nat} (adds : ∀ n c, next n c < 10 * (n + 1)) (n : Nat) :
      t.foldl next n < (n + 1) * tenTo t.length := by
    induction t generalizing n with
    | nil => rw [List.foldl_nil, List.length_nil, tenTo_zero, Nat.mul_one]; exact n.lt_succ_self
    | cons c t ih =>
      calc (c :: t).foldl next n
        _ < (next n c + 1) * tenTo t.length := ih (next n c)
        _ ≤ 10 * (n + 1) * tenTo t.length := Nat.mul_le_mul_right _ (adds n c)
        _ = (n + 1) * tenTo (c :: t).length := by
          rw [List.length_cons, tenTo_succ]
          ac_rfl
  rw [valueOfDecimals, ← Nat.one_mul (tenTo t.length)]
  refine steps (fun n c => ?_) 0
  split
  · rename_i d value
    have := Text.decimalValue?_lt value
    omega
  · omega

/-- The numeral of what a row of digits is taken for is no longer than the row, unless that is
empty. -/
theorem Text.length_ofNat_valueOfDecimals_le {n : Nat} (positive : 0 < n) (h : t.length ≤ n) :
    (Text.ofNat (valueOfDecimals t)).length ≤ n := by
  rw [Text.ofNat_eq, List.length_map, Nat.length_toDigits_le_iff (by decide) positive]
  exact Nat.lt_of_lt_of_le (valueOfDecimals_lt t) (Nat.pow_le_pow_right (by decide) h)

/-- What a row of digits is taken for is also the index of its own numeral. -/
theorem Text.IsConvertible.index_ofNat (h : t.IsConvertible) :
    indexOfText? (Text.ofNat (valueOfDecimals t)) = .ok (some (valueOfDecimals t)) := by
  have short : (Text.ofNat (valueOfDecimals t)).length ≤ digitLimit :=
    Text.length_ofNat_valueOfDecimals_le (by decide) h.short
  rw [(isDigitRow_ofNat _).index ⟨(ofFigures_ofNat _).isDecimal, short⟩, valueOfDecimals_ofNat]

/-! ## Items by text -/

section Access

open Step

variable {s : Store} {ref : ListRef} {v : Value} {index? : Option Nat}

/-- An item is read without a fault if its index is. -/
theorem Step.getItem_succeeds {items : List Value} (h : indexOfText? t = .ok index?) :
    (getItem v items (.text t)).Succeeds s := by
  refine .after (ofExcept_of_ok h) ?_
  cases index? with
  | some i => exact ⟨_, _, rfl⟩
  | none =>
    refine .after (read_of_ok (s.textOf_text t)) ?_
    split
    · exact ⟨_, _, rfl⟩
    · exact methodOrUndefined_succeeds t

/-- An item is written without a fault if its index is read without one, if there is room up to
it, and, should the length be written, if the value gives one. -/
theorem Step.setItem_succeeds (h : indexOfText? t = .ok index?)
    (fits : ∀ i, index? = some i → i + 1 - (s.items ref).length < memoryLimit)
    (length : t = "length" → (setLength ref v).Succeeds s) :
    (setItem ref (.text t) v).Succeeds s := by
  refine .after (ofExcept_of_ok h) ?_
  cases index? with
  | some i =>
    exact .after (rfl : (get : Step Store) s = .ok s s)
      (.after (room_of_lt (fits i rfl)) ⟨_, _, rfl⟩)
  | none =>
    refine .after (read_of_ok (s.textOf_text t)) ?_
    split
    · rename_i isLength
      obtain ⟨_, s', ends⟩ := length (beq_iff_eq.mp isLength)
      exact .after ends ⟨_, _, rfl⟩
    · refine .after (read_of_ok (a := t.quoted) ?_) ⟨_, _, rfl⟩
      rw [Store.describe, Store.describeFrom]

/-- Nothing is written into a text, and no fault comes of trying to. -/
theorem Step.setProperty_text_succeeds (u : Text) :
    (setProperty (.text u) (.text t) v).Succeeds s := by
  refine .after (read_of_ok (a := t.quoted) ?_) (.after (read_of_ok (a := u.quoted) ?_) ⟨_, _, rfl⟩)
  · rw [Store.describe, Store.describeFrom]
  · rw [Store.display, Store.displayFrom]

/-- **Texts as indices.** Texts are read canonically but for rows of digits that are not plain or
too long. Such a row is either taken for the numeral of its value, so that two texts name the
same item, or it makes the host fault. Texts that are read canonically name different items, and
with them items can be read without a fault, and written, unless there is no room up to the item
or the length is written with what is none. -/
theorem indexOfText?_canonical (t : Text) :
    (t.IsReadCanonically ↔ (t.IsDigitRow → t.OfFigures ∧ t.length ≤ digitLimit))
    ∧ (¬ t.IsReadCanonically →
        (∃ n, indexOfText? t = .ok (some n) ∧ indexOfText? (Text.ofNat n) = .ok (some n)
          ∧ t ≠ Text.ofNat n)
        ∨ ∃ u, indexOfText? t = .error u ∧ u.demand = .digits t ∧ ∀ s ref v,
          getProperty (.list ref) (.text t) s = .error (.fault (.unmet u)) s
          ∧ setProperty (.list ref) (.text t) v s = .error (.fault (.unmet u)) s)
    ∧ (t.IsReadCanonically →
        (∀ u i, u.IsReadCanonically → indexOfText? t = .ok (some i) →
          indexOfText? u = .ok (some i) → t = u)
        ∧ ∀ s v,
          (∀ ref, (getProperty (.list ref) (.text t)).Succeeds s)
          ∧ (∀ u, (getProperty (.text u) (.text t)).Succeeds s)
          ∧ (∀ u, (setProperty (.text u) (.text t) v).Succeeds s)
          ∧ ∀ ref, ¬ (setProperty (.list ref) (.text t) v).Succeeds s →
            (∃ i, t = Text.ofNat i ∧ memoryLimit ≤ i + 1 - (s.items ref).length)
            ∨ t = "length" ∧ ¬ (setLength ref v).Succeeds s) := by
  refine ⟨Text.isReadCanonically_iff, fun other => ?_, fun canonical => ?_⟩
  · have row : t.IsDigitRow := by
      by_contra none
      exact other (Text.isReadCanonically_iff.mpr fun row => absurd row none)
    by_cases convertible : t.IsConvertible
    · refine .inl ⟨_, row.index convertible, convertible.index_ofNat, fun same => ?_⟩
      exact other (Text.isReadCanonically_iff.mpr fun _ =>
        ⟨same ▸ Text.ofFigures_ofNat _, convertible.short⟩)
    · obtain ⟨u, faults, demand⟩ := row.no_index convertible
      refine .inr ⟨u, faults, demand, fun s ref v => ⟨?_, ?_⟩⟩
      · show getItem _ _ _ s = _
        exact bind_of_error (ofExcept_of_error faults)
      · show setItem _ _ _ s = _
        exact bind_of_error (ofExcept_of_error faults)
  · refine ⟨fun u i hu hti hui => canonical.unique hu hti hui, fun s v => ?_⟩
    obtain ⟨index?, reads, numeral⟩ := canonical
    refine ⟨fun ref => getItem_succeeds reads, fun u => getItem_succeeds reads,
      fun u => setProperty_text_succeeds u, fun ref stops => ?_⟩
    by_contra neither
    obtain ⟨roomy, length⟩ := not_or.mp neither
    refine stops (setItem_succeeds reads (fun i found => ?_) fun isLength => ?_)
    · by_contra full
      exact roomy ⟨i, (numeral i).mp found, Nat.not_lt.mp full⟩
    · by_contra noLength
      exact length ⟨isLength, noLength⟩

/-- The digits 42 are read as the index 42. -/
theorem indexOfText?_canonical_of_plain :
    Text.IsReadCanonically "42" ∧ (getProperty (.text "jswalk") (.text "42")).Succeeds .empty := by
  have canonical : Text.IsReadCanonically "42" :=
    (indexOfText?_canonical "42").1.mpr fun _ =>
      ⟨List.all_eq_true.mp (by decide : ("42" : Text).all Text.isPlainDigit = true), by decide⟩
  exact ⟨canonical, (((indexOfText?_canonical "42").2.2 canonical).2 .empty .null).2.1 _⟩

/-- A superscript two looks like an index and makes the host fault, and the Arabic digit three
names the same item as the figure three. -/
theorem not_isReadCanonically_of_marks :
    ¬ Text.IsReadCanonically "²" ∧ (∃ u, indexOfText? "²" = .error u)
      ∧ indexOfText? "٣" = .ok (some 3) ∧ indexOfText? "3" = .ok (some 3) := by
  have row : Text.IsDigitRow "²" := ⟨by decide, by decide +kernel, by decide⟩
  have mark : ¬ Text.IsConvertible "²" := fun h =>
    absurd (h.decimal 0xB2 (by decide)) (by decide +kernel)
  obtain ⟨u, faults, -⟩ := row.no_index mark
  have three : Text.IsDigitRow "٣" := ⟨by decide, by decide +kernel, by decide⟩
  have decimal : Text.IsConvertible "٣" := ⟨by decide +kernel, by decide⟩
  refine ⟨?_, ⟨u, faults⟩, three.index decimal, decimal.index_ofNat⟩
  rintro ⟨_, reads, -⟩
  cases reads.symm.trans faults

end Access

end Scriptlet
