import Scriptlet.Method.List
import Scriptlet.Method.Text
import Scriptlet.Proofs.Novelty
import Scriptlet.Proofs.Readback.Numeral
import Scriptlet.Proofs.Writing
import Scriptlet.Walk

/-!
# Splicing, and slices

Splicing a list takes some of its items out, puts others in their place and gives those that it
has taken. Seen from outside this cuts the items in three: what stands before, what is taken and
what stands after. Where it cuts is for the offsets to say, and an offset is whatever number the
argument has: cut off after the point, counted from the end if it is negative, and brought
between the ends of the list if it is beyond them. The methods that take slices read their
arguments in the same way. So splicing takes out a slice, what it has done is undone by splicing
the taken items back, and two slices that meet at an offset are the whole.

All of it rests on the arguments having numbers. A row of digits that is too long has none, and
then the host faults before anything is changed.
-/

namespace Scriptlet

/-! ## Offsets -/

/-- A value **has a number** if no demand on the host is in the way. -/
def Store.HasNumber (s : Store) (v : Value) : Prop :=
  ∃ n, s.numberOf v = .ok n

/-- The integer part of a number, as offsets have it. -/
def Extent.ofNumber : Number → Extent
  | .int n => .finite n
  | .float x =>
    match Binary64.ofFloat? x with
    | some b => .finite b.truncate
    | none => if x.isNaN then .finite 0 else .infinite (x < 0)

namespace Store

variable {s : Store} {v : Value} {length default n : Nat} {u : Unmet}

theorem extentOf_eq (s : Store) (v : Value) :
    s.extentOf v = Extent.ofNumber <$> s.numberOf v := by
  unfold extentOf
  cases s.numberOf v with
  | error u => rfl
  | ok n =>
    cases n with
    | int n => rfl
    | float x =>
      show (match Binary64.ofFloat? x with | some b => _ | none => _) =
        Except.ok (Extent.ofNumber (.float x))
      rw [Extent.ofNumber]
      cases Binary64.ofFloat? x <;> rfl

/-- The offset that the number of a value gives, whichever way it is brought between the ends. -/
theorem HasNumber.offset (h : s.HasNumber v) {place : Extent → Nat}
    (within : ∀ e, place e ≤ length) (default_le : default ≤ length) :
    ∃ k ≤ length, (if v.isUndefined then .ok default else place <$> s.extentOf v) = .ok k := by
  obtain ⟨n, number⟩ := h
  split
  · exact ⟨default, default_le, rfl⟩
  · refine ⟨place (Extent.ofNumber n), within _, ?_⟩
    rw [extentOf_eq, number]
    rfl

theorem HasNumber.relativeOffset (h : s.HasNumber v) (default_le : default ≤ length) :
    ∃ k ≤ length, s.relativeOffset v length default = .ok k :=
  h.offset (Extent.fromEnd_le length) default_le

theorem HasNumber.clampedOffset (h : s.HasNumber v) (default_le : default ≤ length) :
    ∃ k ≤ length, s.clampedOffset v length default = .ok k :=
  h.offset (Extent.clamp_le length) default_le

/-- Without a number there is no offset. -/
theorem offset_of_error (h : s.numberOf v = .error u) (place : Extent → Nat) (default : Nat) :
    (if v.isUndefined then .ok default else place <$> s.extentOf v) = .error u := by
  have defined : v.isUndefined = false := by
    cases v with
    | undefined => cases h
    | _ => rfl
  rw [defined, if_neg nofun, extentOf_eq, h]
  rfl

/-- Offsets that lie between the ends are what they are. -/
theorem relativeOffset_int (s : Store) (within : n ≤ length) (default : Nat) :
    s.relativeOffset (.int n) length default = .ok n := by
  show Except.ok (if (n : Int) < 0 then (length + (n : Int)).toNat else min (n : Int).toNat length)
    = _
  rw [if_neg (by omega), Int.toNat_natCast, Nat.min_eq_left within]

theorem clampedOffset_int (s : Store) (within : n ≤ length) (default : Nat) :
    s.clampedOffset (.int n) length default = .ok n := by
  show Except.ok (min (n : Int).toNat length) = _
  rw [Int.toNat_natCast, Nat.min_eq_left within]

/-- A value that is undefined has a number. -/
theorem hasNumber_undefined (s : Store) : s.HasNumber .undefined := ⟨_, rfl⟩

end Store

/-- A text is **overlong** if it is the numeral of an integer, with more digits than are
converted. -/
def Text.IsOverlong (t : Text) : Prop :=
  ∃ d, readNumeral? t.trim = some d ∧ d.isFloat = false ∧ digitLimit < d.whole.length

/-- The digits before the point of a numeral are decimal, and there are some if it is that of an
integer. -/
theorem whole_of_readNumeral? {t : Text} {d : DecimalNumeral} (h : readNumeral? t = some d) :
    d.whole.all Text.isDecimal = true ∧ (d.isFloat = false → d.whole ≠ []) := by
  unfold readNumeral? at h
  obtain ⟨some, h⟩ := Option.ite_none_left_eq_some.mp h
  split at h
  · cases h
  · cases h
    refine ⟨List.all_takeWhile, fun integer none => some ?_⟩
    obtain ⟨noPoint, -⟩ := Bool.or_eq_false_iff.mp integer
    dsimp only at none ⊢
    rw [none, noPoint]
    rfl

/-- **Every text has a number but those that are overlong.** -/
theorem isOverlong_of_error {t : Text} {u : Unmet} (h : numberOfText t = .error u) :
    t.IsOverlong := by
  unfold numberOfText at h
  dsimp only at h
  split at h
  · cases h
  · split at h
    · cases h
    · split at h
      · cases h
      · split at h
        · cases h
        · split at h
          · rename_i d reads
            unfold DecimalNumeral.value at h
            split at h
            · cases h
            · rename_i integer
              obtain ⟨decimal, some⟩ := whole_of_readNumeral? reads
              refine ⟨d, reads, Bool.not_eq_true _ ▸ integer, ?_⟩
              by_contra short
              have allowed : (Demand.digits d.whole).isExcessive = false := by
                rw [Demand.isExcessive, decimal, decide_eq_false short,
                  List.isEmpty_eq_false_iff.mpr (some (Bool.not_eq_true _ ▸ integer))]
                rfl
              rw [intOfDigits, Demand.meet_of_allowed allowed] at h
              cases h
          · cases h

/-- Figures that are too many have none. -/
theorem exists_error_of_figures {t : Text} (figures : t.OfFigures) (long : digitLimit < t.length) :
    ∃ u, numberOfText t = .error u := by
  have some : t ≠ [] := List.ne_nil_of_length_pos (Nat.zero_lt_of_lt long)
  have excessive : (Demand.digits t).isExcessive = true := by
    rw [Demand.isExcessive, decide_eq_true long, Bool.or_true, Bool.true_or]
  refine ⟨⟨.digits t, excessive⟩, ?_⟩
  rw [figures.numberOfText_eq some, intOfDigits, Demand.meet_of_excessive excessive]
  rfl

/-- **Every value has a number** but texts that are overlong, and lists, which count as texts. -/
theorem Store.hasNumber_or (s : Store) (v : Value) :
    s.HasNumber v ∨ (∃ t, v = .text t ∧ t.IsOverlong) ∨ ∃ ref, v = .list ref := by
  cases v with
  | list ref => exact .inr (.inr ⟨ref, rfl⟩)
  | text t =>
    cases h : numberOfText t with
    | ok n => exact .inl ⟨n, h⟩
    | error u => exact .inr (.inl ⟨t, rfl, isOverlong_of_error h⟩)
  | _ => exact .inl ⟨_, rfl⟩

/-! ## Arguments -/

theorem argument_eq_undefined_or_mem (args : List Value) {i k : Nat} (h : i < k) :
    argument args i = .undefined ∨ argument args i ∈ args.take k := by
  unfold argument
  cases found : args[i]? with
  | none => exact .inl rfl
  | some v =>
    have taken : (args.take k)[i]? = some v := by rw [List.getElem?_take_of_lt h, found]
    exact .inr (List.mem_of_getElem? taken)

/-- Arguments have numbers if those do that are given. -/
theorem Store.HasNumber.argument {s : Store} {args : List Value} {i k : Nat}
    (h : ∀ v ∈ args.take k, s.HasNumber v) (below : i < k) :
    s.HasNumber (Scriptlet.argument args i) := by
  rcases argument_eq_undefined_or_mem args below with missing | given
  · rw [missing]
    exact s.hasNumber_undefined
  · exact h _ given

/-- The first two of the arguments. -/
theorem eq_argument_of_mem_take {args : List Value} {v : Value} (h : v ∈ args.take 2) :
    v = argument args 0 ∨ v = argument args 1 := by
  match args with
  | [] => cases h
  | [a] => exact .inl (List.mem_singleton.mp h)
  | a :: b :: rest => simpa [argument, Value.ofOption] using h

/-- An argument whose number cannot be had is one that is given. -/
theorem length_lt_of_numberOf_error {s : Store} {args : List Value} {i : Nat} {u : Unmet}
    (h : s.numberOf (argument args i) = .error u) : i < args.length := by
  by_contra beyond
  rw [argument, List.getElem?_eq_none (Nat.not_lt.mp beyond)] at h
  cases h

theorem mem_take_of_numberOf_error {s : Store} {args : List Value} {i k : Nat} {u : Unmet}
    (below : i < k) (h : s.numberOf (argument args i) = .error u) :
    argument args i ∈ args.take k := by
  refine (argument_eq_undefined_or_mem _ below).resolve_left fun missing => ?_
  rw [missing] at h
  cases h

/-! ## Slices and splices -/

/-- A step **makes a list** of some items and changes nothing else. -/
def Step.MakesList (step : Step Value) (s : Store) (items : List Value) : Prop :=
  step s = .ok (.list s.lists.size) (s.newList items).2

namespace ListMethod

open Step

variable {run : Runner} {ref : ListRef} {s : Store} {args : List Value} {start stop count : Nat}
  {u : Unmet}

theorem call_slice (run : Runner) (args : List Value)
    (starts : s.relativeOffset (argument args 0) (s.items ref).length 0 = .ok start)
    (stops : s.relativeOffset (argument args 1) (s.items ref).length (s.items ref).length = .ok stop) :
    (call run ref args .slice).MakesList s (((s.items ref).drop start).take (stop - start)) :=
  (bind_of_ok (read_of_ok starts)).trans (bind_of_ok (read_of_ok stops))

theorem call_splice (run : Runner) (args : List Value)
    (starts : s.relativeOffset (argument args 0) (s.items ref).length 0 = .ok start)
    (many : spliceCount s args ((s.items ref).length - start) = .ok count) :
    call run ref args .splice s = .ok (.list s.lists.size)
      ((s.newList (((s.items ref).drop start).take count)).2.setItems ref
        ((s.items ref).take start ++ args.drop 2 ++ (s.items ref).drop (start + count))) :=
  (bind_of_ok (read_of_ok starts)).trans (bind_of_ok (read_of_ok many))


/-- The number of items to take out is at most that of those which are left. -/
theorem spliceCount_succeeds (h : s.HasNumber (argument args 1)) (left : Nat) :
    ∃ count ≤ left, spliceCount s args left = .ok count := by
  unfold spliceCount
  split
  · exact ⟨left, Nat.le_refl _, rfl⟩
  · exact h.clampedOffset (Nat.zero_le _)

variable {before taken after inserted : List Value}

/-- **Splicing cuts the items in three** and puts others in place of those in the middle. -/
theorem exists_call_splice (run : Runner) (ref : ListRef)
    (numbers : ∀ v ∈ args.take 2, s.HasNumber v) :
    ∃ before taken after, s.items ref = before ++ taken ++ after
      ∧ s.relativeOffset (argument args 0) (s.items ref).length 0 = .ok before.length
      ∧ call run ref args .splice s = .ok (.list s.lists.size)
          ((s.newList taken).2.setItems ref (before ++ args.drop 2 ++ after)) := by
  obtain ⟨start, start_le, starts⟩ := (Store.HasNumber.argument numbers (by decide : 0 < 2)).relativeOffset
    (Nat.zero_le (s.items ref).length)
  obtain ⟨count, -, many⟩ := spliceCount_succeeds
    (.argument numbers (by decide : 1 < 2)) ((s.items ref).length - start)
  refine ⟨_, _, _, ?_, ?_, call_splice run args starts many⟩
  · rw [List.append_assoc, ← List.drop_drop, List.take_append_drop, List.take_append_drop]
  · rw [List.length_take_of_le start_le, starts]

/-- Items are taken out where they stand, and others put in their place. -/
theorem call_splice_between (cut : s.items ref = before ++ taken ++ after) :
    call run ref (.int before.length :: .int taken.length :: inserted) .splice s =
      .ok (.list s.lists.size)
        ((s.newList taken).2.setItems ref (before ++ inserted ++ after)) := by
  have length : (s.items ref).length = before.length + taken.length + after.length := by
    rw [cut, List.length_append, List.length_append]
  have starts : s.relativeOffset (.int before.length) (s.items ref).length 0 = .ok before.length :=
    s.relativeOffset_int (by omega) 0
  have many : s.clampedOffset (.int taken.length) ((s.items ref).length - before.length) 0 =
      .ok taken.length :=
    s.clampedOffset_int (by omega) 0
  refine (call_splice run (.int before.length :: .int taken.length :: inserted) starts
    many).trans ?_
  rw [cut, List.append_assoc, List.take_left, List.drop_left, List.take_left, ← List.drop_drop,
    List.drop_left, List.drop_left]
  rfl

/-- Between two offsets stands the slice. -/
theorem call_slice_between (cut : s.items ref = before ++ taken ++ after) :
    (call run ref [.int before.length, .int (before.length + taken.length : Nat)] .slice).MakesList
      s taken := by
  have length : (s.items ref).length = before.length + taken.length + after.length := by
    rw [cut, List.length_append, List.length_append]
  have starts : s.relativeOffset (.int before.length) (s.items ref).length 0 = .ok before.length :=
    s.relativeOffset_int (by omega) 0
  have stops : s.relativeOffset (.int (before.length + taken.length : Nat)) (s.items ref).length
      (s.items ref).length = .ok (before.length + taken.length) :=
    s.relativeOffset_int (by omega) (s.items ref).length
  have made := call_slice run [.int before.length, .int _] starts stops
  rwa [cut, List.append_assoc, List.drop_left, Nat.add_sub_cancel_left, List.take_left] at made

/-- A slice with no end goes on to the end of the list. -/
theorem call_slice_from (cut : s.items ref = before ++ after) (given : args.length ≤ 1)
    (starts : s.relativeOffset (argument args 0) (s.items ref).length 0 = .ok before.length) :
    (call run ref args .slice).MakesList s after := by
  have missing : argument args 1 = .undefined := by
    rw [argument, List.getElem?_eq_none given]
    rfl
  have stops : s.relativeOffset (argument args 1) (s.items ref).length (s.items ref).length =
      .ok (s.items ref).length := by
    rw [missing]
    rfl
  have made := call_slice run args starts stops
  rwa [cut, List.drop_left, List.length_append, Nat.add_sub_cancel_left, List.take_length] at made

/-- A slice from the start ends at the offset of its end. -/
theorem call_slice_to {v : Value} (cut : s.items ref = before ++ after)
    (stops : s.relativeOffset v (s.items ref).length (s.items ref).length = .ok before.length) :
    (call run ref [.int 0, v] .slice).MakesList s before := by
  have made := call_slice run [.int 0, v] (s.relativeOffset_int (Nat.zero_le _) 0) stops
  rwa [cut, List.drop_zero, Nat.sub_zero, List.take_left] at made

/-- **Without a number for an argument there is no splicing**: the host faults on the number, and
nothing has been changed. -/
theorem exists_call_splice_error (run : Runner) (ref : ListRef)
    (lacking : ¬ ∀ v ∈ args.take 2, s.HasNumber v) :
    ∃ v ∈ args.take 2, ∃ u, s.numberOf v = .error u
      ∧ call run ref args .splice s = .error (.fault (.unmet u)) s := by
  cases first : s.numberOf (argument args 0) with
  | error u =>
    have starts := Store.offset_of_error first (Extent.fromEnd (s.items ref).length) 0
    refine ⟨_, mem_take_of_numberOf_error (by decide) first, u, first, ?_⟩
    exact (bind_of_ok (rfl : (get : Step Store) s = .ok s s)).trans
      (bind_of_error (read_of_error starts))
  | ok n =>
    cases second : s.numberOf (argument args 1) with
    | error u =>
      obtain ⟨start, -, starts⟩ := Store.HasNumber.relativeOffset ⟨n, first⟩
        (Nat.zero_le (s.items ref).length)
      have given := mem_take_of_numberOf_error (k := 2) (by decide) second
      have many : spliceCount s args ((s.items ref).length - start) = .error u := by
        rw [spliceCount, if_neg (Nat.not_lt.mpr (length_lt_of_numberOf_error second))]
        exact Store.offset_of_error second _ 0
      refine ⟨_, given, u, second, ?_⟩
      exact (bind_of_ok (read_of_ok starts)).trans (bind_of_error (read_of_error many))
    | ok m =>
      refine absurd (fun v given => ?_) lacking
      rcases eq_argument_of_mem_take given with rfl | rfl
      · exact ⟨n, first⟩
      · exact ⟨m, second⟩

end ListMethod

/-! ## Slices that meet -/

section Meeting

open Step

variable {run : Runner} {ref : ListRef} {s : Store} {v : Value}

/-- An offset that is given is the same whatever else there would be. -/
theorem Store.relativeOffset_default {length default : Nat} (h : v ≠ .undefined) (other : Nat) :
    s.relativeOffset v length default = s.relativeOffset v length other := by
  have defined : v.isUndefined = false := by
    cases v with
    | undefined => exact absurd rfl h
    | _ => rfl
  rw [Store.relativeOffset, Store.relativeOffset, defined, if_neg Bool.false_ne_true,
    if_neg Bool.false_ne_true]

/-- The offsets that values with the same number give are the same. -/
theorem Store.relativeOffset_congr {t : Store} (h : t.numberOf v = s.numberOf v)
    (length default : Nat) :
    t.relativeOffset v length default = s.relativeOffset v length default := by
  rw [Store.relativeOffset, Store.relativeOffset, extentOf_eq, extentOf_eq, h]

/-- **Two slices that meet are the whole list**, also if the second is taken later, when the list
has the same items and the value the same number. -/
theorem ListMethod.exists_call_slice_meet (run : Runner) (ref : ListRef) (defined : v ≠ .undefined)
    (number : s.HasNumber v) :
    ∃ front back, front ++ back = s.items ref
      ∧ (call run ref [.int 0, v] .slice).MakesList s front
      ∧ ∀ t : Store, t.items ref = s.items ref → t.numberOf v = s.numberOf v →
          (call run ref [v] .slice).MakesList t back := by
  obtain ⟨k, k_le, meets⟩ := number.relativeOffset (Nat.le_refl (s.items ref).length)
  have cut : s.items ref = (s.items ref).take k ++ (s.items ref).drop k :=
    (List.take_append_drop k _).symm
  have front_length : ((s.items ref).take k).length = k := List.length_take_of_le k_le
  refine ⟨_, _, cut.symm, call_slice_to cut ?_, fun t same number => ?_⟩
  · rw [front_length, meets]
  · refine call_slice_from (same.trans cut) (Nat.le_refl 1) ?_
    rw [front_length, ← meets, same]
    exact (Store.relativeOffset_congr number _ 0).trans (Store.relativeOffset_default defined _)

/-- **Two slices that meet are the whole text.** -/
theorem TextMethod.exists_call_slice_meet (run : Runner) (t : Text) (defined : v ≠ .undefined)
    (number : s.HasNumber v) :
    ∃ front back, front ++ back = t ∧ call run t [.int 0, v] .slice s = .ok (.text front) s
      ∧ call run t [v] .slice s = .ok (.text back) s := by
  obtain ⟨k, k_le, meets⟩ := number.relativeOffset (Nat.le_refl t.length)
  have starts : s.relativeOffset v t.length 0 = .ok k := by
    rw [← meets]
    exact Store.relativeOffset_default defined _
  have front : t.slice 0 k = t.take k := rfl
  have back : t.slice k t.length = t.drop k := by
    rw [Text.slice, List.take_of_length_le (by rw [List.length_drop])]
  refine ⟨t.take k, t.drop k, List.take_append_drop k t, ?_, ?_⟩
  · rw [← front]
    exact (bind_of_ok (read_of_ok (s.relativeOffset_int (Nat.zero_le _) 0))).trans
      (bind_of_ok (read_of_ok meets))
  · rw [← back]
    exact (bind_of_ok (read_of_ok starts)).trans (bind_of_ok (read_of_ok rfl))

/-- Slices fault on an offset that has no number, and change nothing. -/
theorem ListMethod.call_slice_of_error {u : Unmet} (run : Runner) (ref : ListRef)
    (h : s.numberOf v = .error u) :
    call run ref [v] .slice s = .error (.fault (.unmet u)) s :=
  (bind_of_ok (rfl : (get : Step Store) s = .ok s s)).trans
    (bind_of_error (read_of_error
      (Store.offset_of_error h (Extent.fromEnd (s.items ref).length) 0)))

theorem TextMethod.call_slice_of_error {u : Unmet} (run : Runner) (t : Text)
    (h : s.numberOf v = .error u) :
    call run t [v] .slice s = .error (.fault (.unmet u)) s :=
  bind_of_error (read_of_error (Store.offset_of_error h (Extent.fromEnd t.length) 0))

theorem TextMethod.call_slice_to_of_error {u : Unmet} (run : Runner) (t : Text)
    (h : s.numberOf v = .error u) :
    call run t [.int 0, v] .slice s = .error (.fault (.unmet u)) s :=
  (bind_of_ok (read_of_ok (s.relativeOffset_int (Nat.zero_le t.length) 0))).trans
    (bind_of_error (read_of_error
      (Store.offset_of_error h (Extent.fromEnd t.length) t.length)))

end Meeting

/-! ## The laws of splicing -/

section Laws

open Step

/-- A step **splices** a list: of its items, which are cut in three, those in the middle are taken
out and given as a new list, and others stand in their place. Nothing else is changed. -/
structure Step.Splices (step : Step Value) (s : Store) (ref : ListRef)
    (before taken inserted after : List Value) (t : Store) : Prop where
  cut : s.items ref = before ++ taken ++ after
  gives : step s = .ok (.list s.lists.size) t
  given : t.items s.lists.size = taken
  left : t.items ref = before ++ inserted ++ after
  only : t = (s.newList taken).2.setItems ref (before ++ inserted ++ after)

variable {ref : ListRef} {s t : Store}

theorem Step.Splices.of_eq {step : Step Value} {before taken inserted after : List Value}
    (there : ref < s.lists.size) (cut : s.items ref = before ++ taken ++ after)
    (gives : step s = .ok (.list s.lists.size)
      ((s.newList taken).2.setItems ref (before ++ inserted ++ after))) :
    step.Splices s ref before taken inserted after
      ((s.newList taken).2.setItems ref (before ++ inserted ++ after)) where
  cut := cut
  gives := gives
  given := by
    rw [Store.items_setItems_ne (Nat.ne_of_gt there), Store.items_newList_self]
  left := by
    refine Store.items_setItems ?_ _
    rw [Store.newList, Array.size_push]
    exact Nat.lt_succ_of_lt there
  only := rfl

theorem Step.Splices.size {step : Step Value} {before taken inserted after : List Value}
    (h : step.Splices s ref before taken inserted after t) :
    t.lists.size = s.lists.size + 1 := by
  rw [h.only, Store.setItems, Store.newList, Array.size_setIfInBounds, Array.size_push]

/-- **Splicing can be undone and agrees with slicing.** If the first two arguments have numbers,
splicing cuts the items of the list in three, takes out those in the middle and puts the further
arguments in their place. What it takes out is the slice between the two cuts, the first of which is
where the slice begins that has the same start; and splicing it back restores the items and gives
those that were put in. If one of the two has no number the host faults on it, and nothing has been
changed.

Two slices of a list or a text that meet at an offset are the whole of it. For a list the second
may be taken in any store in which the list has the same items and the offset the same number, and
right after the first it has, if all that there is to be seen has been handed out. Only overlong
texts have no number, and lists whose texts are so or cannot be had. -/
theorem ListMethod.splice_undone (run : Runner) (there : ref < s.lists.size) :
    (∀ args, (∀ v ∈ args.take 2, s.HasNumber v) →
      ∃ before taken after t,
        (call run ref args .splice).Splices s ref before taken (args.drop 2) after t
        ∧ (call run ref [.int before.length, .int (before.length + taken.length : Nat)]
            .slice).MakesList s taken
        ∧ (call run ref (args.take 1) .slice).MakesList s (taken ++ after)
        ∧ ∃ t', (call run ref (.int before.length :: .int (args.drop 2).length :: taken)
            .splice).Splices t ref before (args.drop 2) taken after t')
    ∧ (∀ args, ¬ (∀ v ∈ args.take 2, s.HasNumber v) →
      ∃ v ∈ args.take 2, ∃ u, s.numberOf v = .error u
        ∧ call run ref args .splice s = .error (.fault (.unmet u)) s)
    ∧ (∀ v, v ≠ .undefined → s.HasNumber v →
      (∃ front back, front ++ back = s.items ref
        ∧ (call run ref [.int 0, v] .slice).MakesList s front
        ∧ (∀ t : Store, t.items ref = s.items ref → t.numberOf v = s.numberOf v →
            (call run ref [v] .slice).MakesList t back)
        ∧ (s.IsClosed → s.Knows v →
            (call run ref [v] .slice).MakesList (s.newList front).2 back))
      ∧ ∀ text, ∃ front back, front ++ back = text
        ∧ TextMethod.call run text [.int 0, v] .slice s = .ok (.text front) s
        ∧ TextMethod.call run text [v] .slice s = .ok (.text back) s)
    ∧ ∀ v, ¬ s.HasNumber v → ∃ u,
        call run ref [v] .slice s = .error (.fault (.unmet u)) s
        ∧ (∀ text, TextMethod.call run text [v] .slice s = .error (.fault (.unmet u)) s)
        ∧ ((∃ text, v = .text text ∧ text.IsOverlong) ∨ ∃ other, v = .list other) := by
  refine ⟨fun args numbers => ?_, fun args lacking => exists_call_splice_error run ref lacking,
    fun v defined number => ⟨?_, fun text => TextMethod.exists_call_slice_meet run text defined number⟩,
    fun v none => ?_⟩
  · obtain ⟨before, taken, after, cut, starts, gives⟩ := exists_call_splice run ref numbers
    have spliced := Splices.of_eq there cut gives
    have still : ref < ((s.newList taken).2.setItems ref (before ++ args.drop 2 ++ after)).lists.size := by
      rw [spliced.size]
      exact Nat.lt_succ_of_lt there
    refine ⟨before, taken, after, _, spliced, call_slice_between cut, ?_, _,
      .of_eq still spliced.left (call_splice_between spliced.left)⟩
    rw [List.append_assoc] at cut
    refine call_slice_from cut (List.length_take_le 1 args) ?_
    rwa [show argument (args.take 1) 0 = argument args 0 by cases args <;> rfl]
  · obtain ⟨front, back, whole, first, second⟩ := exists_call_slice_meet run ref defined number
    refine ⟨front, back, whole, first, second, fun closed known => ?_⟩
    exact second _ (Store.items_newList there) (Store.numberOf_newList closed known)
  · cases h : s.numberOf v with
    | ok n => exact absurd ⟨n, h⟩ none
    | error u =>
      exact ⟨u, call_slice_of_error run ref h, fun text => TextMethod.call_slice_of_error run text h,
        (s.hasNumber_or v).resolve_left none⟩

/-- Of three items one is replaced, from the second last on, and put back again. -/
theorem ListMethod.splice_undone_of_three :
    0 < (Store.empty.newList [.int 1, .int 2, .int 3]).2.lists.size
    ∧ ∃ before taken after t t',
      (call (Task.runTo .bare 0) 0 [.int (-2), .float 1.5, .null] .splice).Splices
        (Store.empty.newList [.int 1, .int 2, .int 3]).2 0 before taken [.null] after t
      ∧ (call (Task.runTo .bare 0) 0 (.int before.length :: .int 1 :: taken) .splice).Splices
        t 0 before [.null] taken after t'
      ∧ t'.items 0 = [.int 1, .int 2, .int 3] := by
  have there : 0 < (Store.empty.newList [.int 1, .int 2, .int 3]).2.lists.size := by decide
  obtain ⟨before, taken, after, t, splices, -, -, t', undoes⟩ :=
    (splice_undone (Task.runTo .bare 0) there).1 [.int (-2), .float 1.5, .null]
      (List.forall_mem_cons.mpr ⟨⟨_, rfl⟩, List.forall_mem_cons.mpr ⟨⟨_, rfl⟩, nofun⟩⟩)
  exact ⟨there, before, taken, after, t, t', splices, undoes, undoes.left.trans splices.cut.symm⟩

/-- A list cannot be spliced, nor a text be cut in two, at an offset with too many digits. -/
theorem ListMethod.splice_overlong :
    ¬ (call (Task.runTo .bare 0) 0 [.text (List.replicate 4301 0x31)] .splice).Succeeds
        (Store.empty.newList [.int 1, .int 2]).2
    ∧ ¬ (TextMethod.call (Task.runTo .bare 0) "ab" [.int 0, .text (List.replicate 4301 0x31)]
        .slice).Succeeds .empty
    ∧ ¬ (TextMethod.call (Task.runTo .bare 0) "ab" [.text (List.replicate 4301 0x31)]
        .slice).Succeeds .empty := by
  have figures : Text.OfFigures (List.replicate 4301 0x31) := fun c hc => by
    rw [List.eq_of_mem_replicate hc]
    decide
  obtain ⟨u, fails⟩ := exists_error_of_figures figures
    (by rw [List.length_replicate]; decide : digitLimit < (List.replicate 4301 0x31).length)
  generalize List.replicate 4301 0x31 = digits at fails ⊢
  have none (s : Store) : s.numberOf (.text digits) = .error u := fails
  refine ⟨?_, ?_, ?_⟩
  · have lacking : ¬ ∀ v ∈ [Value.text digits].take 2,
        (Store.empty.newList [.int 1, .int 2]).2.HasNumber v := fun all => by
      obtain ⟨n, number⟩ := all _ List.mem_cons_self
      cases number.symm.trans (none _)
    obtain ⟨_, -, _, -, faults⟩ := exists_call_splice_error (Task.runTo .bare 0) 0 lacking
    rintro ⟨_, _, ends⟩
    cases ends.symm.trans faults
  · rintro ⟨_, _, ends⟩
    cases ends.symm.trans (TextMethod.call_slice_to_of_error _ _ (none .empty))
  · rintro ⟨_, _, ends⟩
    cases ends.symm.trans (TextMethod.call_slice_of_error _ _ (none .empty))

end Laws

end Scriptlet
