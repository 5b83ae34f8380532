import Scriptlet.Property
import Scriptlet.Scope

/-!
# Keys are kept

The entries of an object stand under keys. A program writes under a text, and under a number only
where there is an entry under it, which the host must have put there. And it takes no entry away. So
an object keeps the keys that it has, whatever is written, and no number becomes a key.
-/

namespace Scriptlet

/-! ## Entries -/

namespace Entries

variable {entries : Entries} {key other : Key} {v named : Value} {text : Text}

/-- A key is there if there is a value under it. -/
theorem isSome_get? (entries : Entries) (key : Key) :
    (entries.get? key).isSome = entries.has key := by
  rw [has, get?, Option.isSome_map, Bool.eq_iff_iff, List.find?_isSome, List.any_eq_true]

theorem has_cons (entry : Key × Value) (rest : Entries) (key : Key) :
    has (entry :: rest) key = (entry.1.same key || rest.has key) :=
  rfl

/-- What has been put under a key is there, if the key was or is the same as itself. -/
theorem get?_put_self (h : entries.has key = true ∨ key.same key = true) :
    (entries.put key v).get? key = some v := by
  induction entries with
  | nil =>
    have same : key.same key = true := h.resolve_left nofun
    rw [put, get?_cons, if_pos same]
  | cons e rest ih =>
    rw [put]
    split
    · rename_i here
      rw [get?_cons, if_pos here]
    · rename_i elsewhere
      rw [get?_cons, if_neg elsewhere]
      exact ih (h.imp_left fun there => by simpa [has, elsewhere] using there)

/-- **After a write** those keys are there that were, and the one that has been written. -/
theorem has_put : (entries.put key v).has other = true ↔
    entries.has other = true ∨ entries.has key = false ∧ key.same other = true := by
  induction entries with
  | nil => simp [put, has]
  | cons e rest ih =>
    rw [put, has_cons, has_cons]
    split
    · rename_i here
      rw [has_cons, here]
      simp
    · rename_i elsewhere
      rw [has_cons, Bool.or_eq_true, ih, Bool.or_eq_true, or_assoc, eq_false_of_ne_true elsewhere,
        Bool.false_or]

/-- Where a key is written that is there, nothing else is there. -/
theorem has_put_of_has (h : entries.has key = true) (other : Key) :
    (entries.put key v).has other = entries.has other := by
  rw [Bool.eq_iff_iff, has_put, h]
  exact or_iff_left nofun

/-- The key of the entry that a value with a text **names**: the number itself, if there is an
entry under it and none under the text. -/
def slot (entries : Entries) (key : Value) (text : Text) : Key :=
  match key with
  | .number n =>
    if !entries.has (.text text) && entries.has (.number n) then .number n else .text text
  | _ => .text text

/-- A value names an entry that stands **under a number only**, and not under the text of it. -/
def HasNumberOnly (entries : Entries) (named : Value) (text : Text) : Prop :=
  ∃ n, named = .number n ∧ entries.has (.text text) = false ∧ entries.has (.number n) = true

theorem slot_number {n : Number} (missing : entries.has (.text text) = false)
    (there : entries.has (.number n) = true) : entries.slot (.number n) text = .number n := by
  rw [slot, missing, there]
  rfl

/-- Any other goes by its text. -/
theorem slot_text (other : ¬ entries.HasNumberOnly named text) :
    entries.slot named text = .text text := by
  unfold slot
  split
  · refine if_neg fun both => ?_
    obtain ⟨missing, there⟩ := Bool.and_eq_true_iff.mp both
    exact other ⟨_, rfl, (Bool.not_eq_true' _).mp missing, there⟩
  · rfl

/-- The entry that is named is there, or its key is the text. -/
theorem has_slot (entries : Entries) (named : Value) (text : Text) :
    entries.has (entries.slot named text) = true ∨ entries.slot named text = .text text := by
  by_cases only : entries.HasNumberOnly named text
  · obtain ⟨n, rfl, missing, there⟩ := only
    rw [slot_number missing there]
    exact .inl there
  · exact .inr (slot_text only)

/-- **What is written is read**, under the key that was named. -/
theorem get?_put_slot :
    (entries.put (entries.slot named text) v).get? (entries.slot named text) = some v := by
  refine get?_put_self ((has_slot entries named text).imp_right fun isText => ?_)
  rw [isText]
  exact beq_iff_eq.mpr rfl

/-- After a write the same entry is named as before it. -/
theorem slot_put :
    (entries.put (entries.slot named text) v).slot named text = entries.slot named text := by
  by_cases only : entries.HasNumberOnly named text
  · obtain ⟨n, rfl, missing, there⟩ := only
    have same := has_put_of_has (v := v) there
    rw [slot_number missing there]
    exact slot_number ((same _).trans missing) ((same _).trans there)
  · have written : (entries.put (entries.slot named text) v).get? (entries.slot named text) = some v :=
      get?_put_slot
    rw [slot_text only] at written ⊢
    refine slot_text fun ⟨_, _, missing, _⟩ => ?_
    rw [← isSome_get?, written] at missing
    cases missing

/-- Entries that **only texts** are keys of. -/
def OnlyTexts (entries : Entries) : Prop :=
  ∀ e ∈ entries, ∃ t, e.1 = .text t

namespace OnlyTexts

theorem nil : OnlyTexts [] :=
  List.forall_mem_nil _

/-- No number is a key then. -/
theorem has_number (h : entries.OnlyTexts) (n : Number) : entries.has (.number n) = false := by
  refine List.any_eq_false.mpr fun e he => ?_
  obtain ⟨t, ht⟩ := h e he
  rw [ht]
  exact nofun

/-- Among texts a text is named. -/
theorem slot_eq (h : entries.OnlyTexts) : entries.slot named text = .text text :=
  slot_text fun ⟨n, _, _, there⟩ => by cases (h.has_number n).symm.trans there

/-- Texts are all the keys if another text is put among them. -/
theorem put (h : entries.OnlyTexts) (text : Text) (v : Value) :
    OnlyTexts (entries.put (.text text) v) := by
  induction entries with
  | nil =>
    intro e he
    rw [List.mem_singleton.mp he]
    exact ⟨text, rfl⟩
  | cons e rest ih =>
    obtain ⟨here, more⟩ := List.forall_mem_cons.mp h
    rw [Entries.put]
    split
    · exact List.forall_mem_cons.mpr ⟨here, more⟩
    · exact List.forall_mem_cons.mpr ⟨here, ih more⟩

end OnlyTexts

end Entries

namespace Store

variable {s s' t : Store} {ref : ObjectRef} {key : Value} {text : Text}

theorem entryKey_eq (named : s.keyOf key = .ok text) (entries : Entries) :
    s.entryKey entries key = .ok (entries.slot key text) := by
  unfold entryKey
  rw [named]
  cases key <;> rfl

theorem entryKey_of_error {u : Unmet} (h : s.keyOf key = .error u) (entries : Entries) :
    s.entryKey entries key = .error u := by
  unfold entryKey
  rw [h]
  rfl

/-- An entry that is named is there, or its key is a text. -/
theorem has_of_entryKey {entries : Entries} {slot : Key} (h : s.entryKey entries key = .ok slot) :
    entries.has slot = true ∨ ∃ t, slot = .text t := by
  cases named : s.keyOf key with
  | ok text =>
    rw [entryKey_eq named] at h
    cases h
    exact (entries.has_slot key text).imp_right fun isText => ⟨text, isText⟩
  | error u =>
    rw [entryKey_of_error named] at h
    cases h

/-! ## Stores -/

/-- The entries of an object after some have been written. -/
theorem entries_setEntries_eq (s : Store) (ref other : ObjectRef) (entries : Entries) :
    (s.setEntries ref entries).entries other =
      if ref = other ∧ ref < s.objects.size then entries else s.entries other := by
  simp only [Store.entries, setEntries, Array.getD_eq_getD_getElem?, Array.getElem?_setIfInBounds]
  by_cases same : ref = other
  · subst same
    by_cases there : ref < s.objects.size
    · simp [there]
    · simp [there]
  · simp [same]

theorem entries_setEntries (there : ref < s.objects.size) (entries : Entries) :
    (s.setEntries ref entries).entries ref = entries := by
  rw [entries_setEntries_eq, if_pos ⟨rfl, there⟩]

/-- One store **keeps the keys** of another: no object is lost and no key of an object, and no number
is a key that was none. -/
structure KeepsKeys (s s' : Store) : Prop where
  objects : s.objects.size ≤ s'.objects.size
  kept : ∀ ref key, (s.entries ref).has key = true → (s'.entries ref).has key = true
  numbers : ∀ ref n, (s'.entries ref).has (.number n) = true → (s.entries ref).has (.number n) = true

namespace KeepsKeys

/-- Where the objects are left alone, nothing happens to keys. -/
theorem of_eq (h : s'.objects = s.objects) : s.KeepsKeys s' := by
  have same (ref : ObjectRef) : s'.entries ref = s.entries ref := by
    rw [Store.entries, Store.entries, h]
  exact ⟨Nat.le_of_eq (congrArg _ h.symm), fun ref _ has => by rwa [same],
    fun ref _ has => by rwa [same] at has⟩

theorem refl (s : Store) : s.KeepsKeys s :=
  .of_eq rfl

theorem trans (first : s.KeepsKeys s') (second : s'.KeepsKeys t) : s.KeepsKeys t :=
  ⟨Nat.le_trans first.objects second.objects,
    fun ref key has => second.kept ref key (first.kept ref key has),
    fun ref n has => first.numbers ref n (second.numbers ref n has)⟩

/-- **An entry may be written** under a key that is there, or is a text. -/
theorem put {key : Key} (h : (s.entries ref).has key = true ∨ ∃ t, key = .text t) (v : Value) :
    s.KeepsKeys (s.setEntries ref ((s.entries ref).put key v)) where
  objects := Nat.le_of_eq Array.size_setIfInBounds.symm
  kept other k has := by
    rw [entries_setEntries_eq]
    split
    · rename_i same
      rw [← same.1] at has
      exact Entries.has_put.mpr (.inl has)
    · exact has
  numbers other n has := by
    rw [entries_setEntries_eq] at has
    split at has
    · rename_i same
      rw [← same.1]
      refine (Entries.has_put.mp has).resolve_right fun ⟨missing, isNumber⟩ => ?_
      rcases h with there | ⟨t, rfl⟩
      · cases there.symm.trans missing
      · cases isNumber
    · exact has

/-- **A new object** may have texts for keys. -/
theorem newObject {entries : Entries} (texts : entries.OnlyTexts) :
    s.KeepsKeys (s.newObject entries).2 := by
  have after (other : ObjectRef) : (s.newObject entries).2.entries other =
      if other = s.objects.size then entries else s.entries other := by
    simp only [Store.entries, Store.newObject, Array.getD_eq_getD_getElem?, Array.getElem?_push]
    split <;> rfl
  refine ⟨?_, fun other key has => ?_, fun other n has => ?_⟩
  · rw [Store.newObject, Array.size_push]
    exact Nat.le_succ _
  · rw [after]
    split
    · -- There was nothing in the place of the new object.
      rename_i new
      rw [new, Store.entries, Array.getD_eq_getD_getElem?, Array.getElem?_eq_none (Nat.le_refl _)]
        at has
      cases has
    · exact has
  · rw [after] at has
    split at has
    · rw [texts.has_number] at has
      cases has
    · exact has

theorem openInner (parent : FrameRef) : s.KeepsKeys (s.openInner parent).2 :=
  (newObject .nil).trans (.of_eq rfl)

theorem markFunction (frame : FrameRef) : s.KeepsKeys (s.markFunction frame) := by
  unfold Store.markFunction
  split <;> exact .of_eq rfl

/-- Names are texts. -/
theorem define (frame : FrameRef) (name : Text) (v : Value) : s.KeepsKeys (s.define frame name v) := by
  unfold Store.define
  split
  · exact .refl s
  · exact .put (.inr ⟨name, rfl⟩) v

end KeepsKeys

end Store

end Scriptlet
