import Scriptlet.Proofs.Access
import Scriptlet.Proofs.Hoisting

/-!
# What is written is read

A program that writes a property expects to read it again, and to find everything else where it
was. Writing and reading each make of the key what they need, in code of their own: an index or
the name of the length for a list, and for an object a text or, where the host has put an entry
there, a number. For primitive keys they agree, since what such a key is depends on no store and
what an object has under it, once written, stays what is looked up.

A list may grow by the write, or be cut off if it is the length that is written; then the items
that are kept are the same. And a write that fails, or is interrupted, has not been.
-/

namespace Scriptlet

/-! ## Keys that are primitive -/

/-- A **primitive value**: undefined, null, a truth value, a number or a text. -/
def Value.IsPrimitive : Value → Prop
  | .undefined | .null | .bool _ | .number _ | .text _ => True
  | _ => False

/-- The key that a primitive value is does not depend on the store. -/
theorem Store.keyOf_of_isPrimitive {key : Value} (h : key.IsPrimitive) (s s' : Store) :
    s'.keyOf key = s.keyOf key := by
  unfold keyOf textOf
  cases key with
  | undefined | null | bool _ | number _ | text _ => rw [textFrom, textFrom]
  | _ => exact h.elim

/-! ## Properties -/

/-- The **property** of a value that a key names: what reading it gives, or why it cannot be
read. -/
def Store.property (s : Store) (target key : Value) : Except Interrupt Value :=
  match Step.getProperty target key s with
  | .ok v _ => .ok v
  | .error i _ => .error i

section Property

open Step

variable {s t : Store} {ref : Nat} {key other v : Value} {i : Nat} {text : Text}

theorem Store.property_of_ok {target : Value} (h : getProperty target key s = .ok v t) :
    s.property target key = .ok v := by
  rw [property, h]

theorem Store.property_of_error {target : Value} {interrupt : Interrupt}
    (h : getProperty target key s = .error interrupt t) :
    s.property target key = .error interrupt := by
  rw [property, h]

theorem Store.property_index (h : key.index? = .ok (some i)) :
    s.property (.list ref) key = .ok (Value.ofOption (s.items ref)[i]?) :=
  property_of_ok (getItem_of_index h)

theorem Store.property_length (h : key.index? = .ok none) (named : s.keyOf key = .ok "length") :
    s.property (.list ref) key = .ok (.int (s.items ref).length) := by
  refine property_of_ok (t := s) ((getItem_of_name h named).trans ?_)
  rw [if_pos (by decide)]

/-- Reading from an object goes to the entry that is named, or else to a method. -/
theorem Step.getEntry_of_named (named : s.keyOf key = .ok text) :
    getEntry ref key s = match (s.entries ref).get? ((s.entries ref).slot key text) with
      | some v => .ok v s
      | none => methodOrUndefined (.object ref) text s := by
  unfold getEntry
  refine (bind_of_ok (rfl : (get : Step Store) s = .ok s s)).trans ?_
  refine (bind_of_ok (read_of_ok (Store.entryKey_eq named _))).trans ?_
  have reads : read (·.keyOf key) s = .ok text s := read_of_ok named
  cases (s.entries ref).get? ((s.entries ref).slot key text) with
  | some v => rfl
  | none => exact bind_of_ok reads

/-- The entry that is named is read, -/
theorem Store.property_entry (named : s.keyOf key = .ok text)
    (found : (s.entries ref).get? ((s.entries ref).slot key text) = some v) :
    s.property (.object ref) key = .ok v := by
  refine property_of_ok (t := s) ((getEntry_of_named named).trans ?_)
  rw [found]

/-- and where there is none, a method may be. -/
theorem Store.property_method (named : s.keyOf key = .ok text)
    (missing : (s.entries ref).get? ((s.entries ref).slot key text) = none) :
    s.property (.object ref) key = .ok (if (Value.object ref).hasMethod text
      then .method s.identities text (.object ref) else .undefined) := by
  have reads : getProperty (.object ref) key s = methodOrUndefined (.object ref) text s := by
    refine (getEntry_of_named named).trans ?_
    rw [missing]
  unfold methodOrUndefined at reads
  split at reads
  · rename_i has
    rw [property_of_ok reads, if_pos has]
  · rename_i has
    rw [property_of_ok reads, if_neg has]

/-- A key that is not read names no entry. -/
theorem Step.getEntry_of_error {u : Unmet} (h : s.keyOf key = .error u) :
    getEntry ref key s = .error (.fault (.unmet u)) s := by
  unfold getEntry
  refine (bind_of_ok (rfl : (get : Step Store) s = .ok s s)).trans ?_
  exact bind_of_error (ofExcept_of_error (Store.entryKey_of_error h _))

theorem Store.property_of_keyOf_error {u : Unmet} (h : s.keyOf key = .error u) :
    s.property (.object ref) key = .error (.fault (.unmet u)) :=
  property_of_error (t := s) (getEntry_of_error h)

end Property

/-! ## Items -/

section Items

variable {items : List Value} {i j n : Nat} {v : Value}

/-- Undefined items that are added are read as none were there. -/
theorem Value.ofOption_append_replicate :
    Value.ofOption (items ++ List.replicate n Value.undefined)[j]? = Value.ofOption items[j]? := by
  rw [List.getElem?_append]
  split
  · rfl
  · rename_i beyond
    rw [List.getElem?_eq_none (Nat.not_lt.mp beyond), List.getElem?_replicate]
    split <;> rfl

theorem Step.length_putItem : (Step.putItem items i v).length = max items.length (i + 1) := by
  rw [putItem, List.length_set, List.length_append, List.length_replicate]
  omega

theorem Step.getElem?_putItem_self : (Step.putItem items i v)[i]? = some v := by
  refine List.getElem?_set_self ?_
  rw [List.length_append, List.length_replicate]
  omega

theorem Step.ofOption_putItem_ne (h : j ≠ i) :
    Value.ofOption (Step.putItem items i v)[j]? = Value.ofOption items[j]? := by
  rw [putItem, List.getElem?_set_ne h.symm, Value.ofOption_append_replicate]

theorem Step.length_resized : (Step.resized items n).length = n := by
  rw [resized, List.length_append, List.length_take, List.length_replicate]
  omega

/-- Below the length that is written there are the items that were there, or undefined ones. -/
theorem Step.getElem?_resized :
    (Step.resized items n)[j]? = if j < n then some (Value.ofOption items[j]?) else none := by
  split
  · rename_i below
    rw [resized, List.getElem?_append, List.length_take]
    by_cases old : j < items.length
    · rw [if_pos (by omega), List.getElem?_take_of_lt below, List.getElem?_eq_getElem old]
      rfl
    · rw [if_neg (by omega), List.getElem?_replicate, if_pos (by omega),
        List.getElem?_eq_none (Nat.not_lt.mp old)]
      rfl
  · rename_i beyond
    refine List.getElem?_eq_none ?_
    rw [length_resized]
    exact Nat.not_lt.mp beyond

end Items

/-! ## Lengths -/

/-- A number **is an integer**: it is that integer, or a float whose value it is. -/
def Number.IsInteger : Number → Int → Prop
  | .int m, n => m = n
  | .float x, n => ∃ b, Binary64.ofFloat? x = some b ∧ b.isWhole = true ∧ b.truncate = n

theorem twoTo_pos (n : Nat) : 0 < twoTo n :=
  Nat.pow_pos (by decide)

/-- What is not below zero is not so without its fraction. -/
theorem Binary64.truncate_nonneg {b : Binary64} (h : b.compareInt 0 ≠ .gt) : 0 ≤ b.truncate := by
  unfold truncate
  split
  · rename_i negative
    have none : b.mantissa = 0 := by
      by_contra some
      have below : -(b.mantissa : Int) < 0 := by omega
      have positive : (0 : Int) < twoTo b.exponent.toNat := by exact_mod_cast twoTo_pos _
      refine h ?_
      unfold compareInt
      rw [if_pos negative]
      split
      · exact Int.compare_eq_gt.mpr (Int.mul_neg_of_neg_of_pos below positive)
      · rw [Int.zero_mul]
        exact Int.compare_eq_gt.mpr below
    rw [floorMagnitude, none, Nat.zero_mul, Nat.zero_div, ite_self]
    decide
  · exact Int.natCast_nonneg _

/-- **The length that a value gives is its number.** -/
theorem Step.isInteger_of_lengthOf {v : Value} {n : Nat} {s s' : Store}
    (h : lengthOf v s = .ok n s') : ∃ m, s.numberOf v = .ok m ∧ m.IsInteger n := by
  obtain ⟨m, s₁, reads, rest⟩ := of_bind_ok h
  obtain ⟨number, -⟩ := ofExcept_eq_ok.mp reads
  obtain ⟨x, s₂, converts, ends⟩ := of_bind_ok rest
  obtain ⟨float, -⟩ := ofExcept_eq_ok.mp converts
  refine ⟨m, number, ?_⟩
  split at ends
  · rename_i allowed
    obtain ⟨whole, notNegative⟩ := Bool.and_eq_true_iff.mp allowed
    have notLess : ¬ m.compare? (.int 0) = some .lt := fun less => by
      rw [Number.isNegative, less] at notNegative
      cases notNegative
    cases m with
    | int k =>
      obtain ⟨rfl, -⟩ : k.toNat = n ∧ s₂ = s' := by cases ends; exact ⟨rfl, rfl⟩
      have : ¬ k < 0 := fun less => notLess (congrArg some (Int.compare_eq_lt.mpr less))
      show k = (k.toNat : Int)
      omega
    | float y =>
      obtain rfl : y = x := by cases float; rfl
      unfold isWholeFloat at whole
      split at whole
      · rename_i b value
        have nonneg : 0 ≤ b.truncate := by
          refine Binary64.truncate_nonneg fun greater => notLess ?_
          rw [Number.compare?, compareIntFloat, value, Option.map_some, greater]
          rfl
        obtain ⟨rfl, -⟩ : b.truncate.toNat = n ∧ s₂ = s' := by
          simp only [value] at ends
          cases ends
          exact ⟨rfl, rfl⟩
        exact ⟨b, value, whole, by omega⟩
      · cases whole
  · cases ends

/-! ## The laws of writing -/

/-- A value is **a list or an object** of a store. -/
def Store.HasContainer (s : Store) : Value → Prop
  | .list ref => ref < s.lists.size
  | .object ref => ref < s.objects.size
  | _ => False

/-- One store is another with an **item written**: it is read under its index, every other index
gives what it gave, and the length has grown if it had to. -/
structure Store.HasItemWritten (s s' : Store) (ref : ListRef) (i : Nat) (v : Value) : Prop where
  here : ∀ key, key.index? = .ok (some i) → s'.property (.list ref) key = .ok v
  elsewhere : ∀ key j, key.index? = .ok (some j) → j ≠ i →
    s'.property (.list ref) key = s.property (.list ref) key
  length : s'.property (.list ref) (.text "length") =
    .ok (.int (max (s.items ref).length (i + 1) : Nat))
  only : ∃ items, s' = s.setItems ref items

/-- One store is another with the **length of a list written**: it is the number of the value,
before it the items are as they were, or undefined where there were none, and there are no
others. -/
structure Store.HasLengthWritten (s s' : Store) (ref : ListRef) (v : Value) (n : Nat) : Prop where
  number : ∃ m, s.numberOf v = .ok m ∧ m.IsInteger n
  length : s'.property (.list ref) (.text "length") = .ok (.int n)
  items : ∀ j, (s'.items ref)[j]? =
    if j < n then some (Value.ofOption (s.items ref)[j]?) else none
  only : ∃ items, s' = s.setItems ref items

/-- One store is another with an **entry written**: it is read under its key, and if all entries
go by texts, every key with another text gives what it gave. -/
structure Store.HasEntryWritten (s s' : Store) (ref : ObjectRef) (key v : Value) : Prop where
  here : s'.property (.object ref) key = .ok v
  elsewhere : (s.entries ref).OnlyTexts → ∀ other,
    other.IsPrimitive ∨ s'.keyOf other = s.keyOf other → s.keyOf other ≠ s.keyOf key →
      s'.property (.object ref) other = s.property (.object ref) other
  only : ∃ entries, s' = s.setEntries ref entries

/-- One store is another with a **property written**. -/
inductive Store.HasWritten (s s' : Store) : Value → Value → Value → Prop
  | item {ref : ListRef} {key v : Value} {i : Nat} (index : key.index? = .ok (some i))
    (written : s.HasItemWritten s' ref i v) : HasWritten s s' (.list ref) key v
  | length {ref : ListRef} {key v : Value} {n : Nat} (noIndex : key.index? = .ok none)
    (named : s.keyOf key = .ok "length") (reads : s'.property (.list ref) key = .ok (.int n))
    (written : s.HasLengthWritten s' ref v n) : HasWritten s s' (.list ref) key v
  | entry {ref : ObjectRef} {key v : Value} (written : s.HasEntryWritten s' ref key v) :
    HasWritten s s' (.object ref) key v

/-- What becomes of a write **is lawful** if the property is written or, where nothing can be or
the write is interrupted, no more has happened than that a warning has been noted. -/
def Store.IsLawfulWrite (s : Store) (target key v : Value) :
    EStateM.Result Interrupt Store Value → Prop
  | .ok .failure s' => ∃ record, s' = s.note record
  | .ok w s' => w = v ∧ s.HasWritten s' target key v
  | .error _ s' => s' = s

section Laws

open Step

variable {s : Store} {ref : Nat} {key v : Value} {i n : Nat} {text : Text}

theorem Store.items_setItems (there : ref < s.lists.size) (items : List Value) :
    (s.setItems ref items).items ref = items := by
  rw [Store.items, setItems, Array.getD_eq_getD_getElem?,
    Array.getElem?_setIfInBounds_self_of_lt there]
  rfl

theorem Store.items_setItems_ne {other : ListRef} (elsewhere : other ≠ ref) (items : List Value) :
    (s.setItems ref items).items other = s.items other := by
  rw [Store.items, Store.items, setItems, Array.getD_eq_getD_getElem?, Array.getD_eq_getD_getElem?,
    Array.getElem?_setIfInBounds_ne elsewhere.symm]

/-- The name of the length is no index. -/
theorem index?_length : Value.index? (.text "length") = .ok none := by
  rw [Value.index?, indexOfText?, if_neg (by decide +kernel)]

theorem Store.hasItemWritten (there : ref < s.lists.size) :
    s.HasItemWritten (s.setItems ref (putItem (s.items ref) i v)) ref i v where
  here key index := by
    rw [property_index index, items_setItems there, getElem?_putItem_self]
    rfl
  elsewhere key j index other := by
    rw [property_index index, property_index index, items_setItems there,
      ofOption_putItem_ne other]
  length := by
    rw [property_length index?_length (textOf_text _ _), items_setItems there, length_putItem]
  only := ⟨_, rfl⟩

theorem Store.hasLengthWritten (there : ref < s.lists.size)
    (isLength : lengthOf v s = .ok n s) :
    s.HasLengthWritten (s.setItems ref (resized (s.items ref) n)) ref v n where
  number := isInteger_of_lengthOf isLength
  length := by
    rw [property_length index?_length (textOf_text _ _), items_setItems there, length_resized]
  items j := by rw [items_setItems there, getElem?_resized]
  only := ⟨_, rfl⟩

theorem Store.hasEntryWritten (there : ref < s.objects.size) (primitive : key.IsPrimitive)
    (named : s.keyOf key = .ok text) :
    s.HasEntryWritten
      (s.setEntries ref ((s.entries ref).put ((s.entries ref).slot key text) v)) ref key v where
  here := by
    refine property_entry ((keyOf_of_isPrimitive primitive s _).trans named) ?_
    rw [entries_setEntries there, Entries.slot_put, Entries.get?_put_slot]
  elsewhere onlyTexts other same different := by
    -- Where all keys are texts, the slot of a name is the name itself.
    have slot (t : Text) (named : Value) : (s.entries ref).slot named t = .text t :=
      onlyTexts.slot_eq
    rw [slot] at same ⊢
    have kept := same.elim (fun primitive => keyOf_of_isPrimitive primitive s _) id
    have entries := entries_setEntries there ((s.entries ref).put (.text text) v)
    cases read : s.keyOf other with
    | error u => rw [property_of_keyOf_error read, property_of_keyOf_error (kept.trans read)]
    | ok t =>
      have elsewhere : t ≠ text := fun same => different (by rw [read, named, same])
      have found : Entries.get? ((s.entries ref).put (.text text) v) (.text t)
          = (s.entries ref).get? (.text t) :=
        (Entries.get?_put : _ = if t = text then _ else _).trans (if_neg elsewhere)
      cases value : (s.entries ref).get? (.text t) with
      | some w =>
        rw [property_entry read (by rw [slot, value]), property_entry (kept.trans read)]
        rw [entries, (onlyTexts.put text v).slot_eq, found, value]
      | none =>
        -- A method is there or not by its name alone, whatever the entries are.
        rw [property_method read (by rw [slot, value]), property_method (kept.trans read)]
        · rfl
        · rw [entries, (onlyTexts.put text v).slot_eq, found, value]
  only := ⟨_, rfl⟩

theorem Store.HasWritten.isLawfulWrite {s' : Store} {target : Value} (isValue : v.isFailure = false)
    (h : s.HasWritten s' target key v) : s.IsLawfulWrite target key v (.ok v s') := by
  cases v with
  | failure => cases isValue
  | _ => exact ⟨rfl, h⟩

/-- **The laws of writing.** A value that is written into a list or an object under a primitive
key is read under that key; under the name of the length of a list its number is. Nothing else
in the list or the object has changed. If nothing can be written or the write is interrupted, no
more has happened than that a warning has been noted. -/
theorem Step.setProperty_isLawfulWrite {target : Value} (there : s.HasContainer target)
    (primitive : key.IsPrimitive) (isValue : v.isFailure = false) :
    s.IsLawfulWrite target key v (setProperty target key v s) := by
  cases target with
  | list ref =>
    show s.IsLawfulWrite (.list ref) key v (setItem ref key v s)
    have becomes := setItem_writesItem s ref key v
    generalize setItem ref key v s = outcome at becomes ⊢
    cases becomes with
    | item index =>
      exact (Store.HasWritten.item index (Store.hasItemWritten there)).isLawfulWrite isValue
    | length noIndex named isLength =>
      have kept (s' : Store) := (Store.keyOf_of_isPrimitive primitive s s').trans named
      refine (Store.HasWritten.length noIndex named ?_
        (Store.hasLengthWritten there isLength)).isLawfulWrite isValue
      rw [Store.property_length noIndex (kept _), Store.items_setItems there, length_resized]
    | fails text => exact ⟨_, rfl⟩
    | stops interrupt => rfl
  | object ref =>
    cases named : s.keyOf key with
    | ok text =>
      have ends : setProperty (.object ref) key v s = .ok v
          (s.setEntries ref ((s.entries ref).put ((s.entries ref).slot key text) v)) := by
        unfold setProperty
        exact (bind_of_ok (read_of_ok (Store.entryKey_eq named _))).trans rfl
      rw [ends]
      exact (Store.HasWritten.entry (Store.hasEntryWritten there primitive named)).isLawfulWrite
        isValue
    | error u =>
      have ends : setProperty (.object ref) key v s = .error (.fault (.unmet u)) s := by
        unfold setProperty
        exact bind_of_error (ofExcept_of_error (Store.entryKey_of_error named _))
      rw [ends]
      rfl
  | _ => exact there.elim

/-- A list with one item, written at its index 2. -/
theorem Step.setProperty_isLawfulWrite_of_list :
    (Store.empty.newList [.int 1]).2.HasContainer (.list 0) ∧ (Value.int 2).IsPrimitive
      ∧ (Value.bool true).isFailure = false
      ∧ (Store.empty.newList [.int 1]).2.IsLawfulWrite (.list 0) (.int 2) (.bool true)
        (setProperty (.list 0) (.int 2) (.bool true) (Store.empty.newList [.int 1]).2) :=
  ⟨Nat.zero_lt_one, trivial, rfl, setProperty_isLawfulWrite Nat.zero_lt_one trivial rfl⟩

end Laws

end Scriptlet
