import Mathlib.Data.List.Forall2
import Scriptlet.Proofs.Readback.Numeral
import Scriptlet.Proofs.Readback.Quoting
import Scriptlet.Value.Text

/-!
# Data, and how they are displayed

The value of a list or an object is a place in a store, and what is there may be shared or
may lead back to itself. *Data* are what a value is apart from places: a finite tree, which
the store *holds* at the value. So a value that holds data is acyclic, and two values have
the same structure if they hold the same data.

How a value is displayed depends on the data alone. The walk over a value enters no place
twice on its way down and writes `[Circular]` instead; that this never happens here follows
from the levels of the data. A place holds one datum only, and further down all data have
fewer levels, so that no place on the way can come up again.
-/

namespace Scriptlet

/-! ## Data -/

/-- **Data** apart from places in a store. -/
inductive Datum where
  | undefined
  | null
  | bool (b : Bool)
  | int (n : Int)
  | text (t : Text)
  | list (items : List Datum)
  /-- Keys and data in the order in which the keys were added. -/
  | object (entries : List (Text × Datum))

namespace Datum

theorem sizeOf_lt_list {d : Datum} {items : List Datum} (h : d ∈ items) :
    sizeOf d < sizeOf (list items) := by
  have := List.sizeOf_lt_of_mem h
  simp only [list.sizeOf_spec]
  omega

theorem sizeOf_lt_object {entry : Text × Datum} {entries : List (Text × Datum)}
    (h : entry ∈ entries) : sizeOf entry.2 < sizeOf (object entries) := by
  have := List.sizeOf_lt_of_mem h
  obtain ⟨key, d⟩ := entry
  simp only [object.sizeOf_spec, Prod.mk.sizeOf_spec] at this ⊢
  omega

/-- Induction over data: what holds of the parts holds of the whole. -/
@[elab_as_elim, induction_eliminator]
theorem induction {P : Datum → Prop} (undefined : P undefined) (null : P null)
    (bool : ∀ b, P (bool b)) (int : ∀ n, P (int n)) (text : ∀ t, P (text t))
    (list : ∀ items, (∀ d ∈ items, P d) → P (list items))
    (object : ∀ entries, (∀ entry ∈ entries, P entry.2) → P (object entries)) : ∀ d, P d
  | .undefined => undefined
  | .null => null
  | .bool b => bool b
  | .int n => int n
  | .text t => text t
  | .list items => list items fun d _ => induction undefined null bool int text list object d
  | .object entries => object entries fun entry _ =>
    induction undefined null bool int text list object entry.2
termination_by d => sizeOf d
decreasing_by
  · exact sizeOf_lt_list ‹_›
  · exact sizeOf_lt_object ‹_›

/-- The number of **levels**: lists and objects have one more than the highest of their parts. -/
def levels : Datum → Nat
  | list items => 1 + (items.map fun d => d.levels).foldr max 0
  | object entries => 1 + (entries.map fun entry => entry.2.levels).foldr max 0
  | _ => 1
termination_by d => sizeOf d
decreasing_by
  · exact sizeOf_lt_list ‹_›
  · exact sizeOf_lt_object ‹_›

/-- **Plain** data: the integers are in the safe range, the texts have code points of the
basic plane only, and no key of an object comes up twice. -/
def IsPlain : Datum → Prop
  | int n => n.natAbs ≤ maxSafeInteger
  | text t => ∀ c ∈ t, isBasic c = true
  | list items => ∀ d ∈ items, d.IsPlain
  | object entries => (entries.map Prod.fst).Nodup
    ∧ (∀ entry ∈ entries, ∀ c ∈ entry.1, isBasic c = true) ∧ ∀ entry ∈ entries, entry.2.IsPlain
  | _ => True
termination_by d => sizeOf d
decreasing_by
  · exact sizeOf_lt_list ‹_›
  · exact sizeOf_lt_object ‹_›

/-- **How data are displayed.** -/
def spelling : Datum → Text
  | undefined => "undefined"
  | null => "null"
  | bool b => boolText b
  | int n => Text.ofInt n
  | text t => t.quoted
  | list items => displayItems '[' ']' (items.map fun d => d.spelling)
  | object entries => displayItems openBrace closeBrace
    (entries.map fun entry => displayKey entry.1 ++ ": " ++ entry.2.spelling)
termination_by d => sizeOf d
decreasing_by
  · exact sizeOf_lt_list ‹_›
  · exact sizeOf_lt_object ‹_›

theorem levels_pos (d : Datum) : 0 < d.levels := by
  cases d <;> simp [levels]

theorem le_foldr_max {n : Nat} {ns : List Nat} (h : n ∈ ns) : n ≤ ns.foldr max 0 := by
  induction ns with
  | nil => cases h
  | cons m ns ih =>
    rcases List.mem_cons.mp h with rfl | h
    · exact Nat.le_max_left _ _
    · exact Nat.le_trans (ih h) (Nat.le_max_right _ _)

theorem levels_lt_list {d : Datum} {items : List Datum} (h : d ∈ items) :
    d.levels < (list items).levels := by
  have := le_foldr_max (List.mem_map_of_mem (f := fun d : Datum => d.levels) h)
  rw [levels]
  omega

theorem levels_lt_object {entry : Text × Datum} {entries : List (Text × Datum)}
    (h : entry ∈ entries) : entry.2.levels < (object entries).levels := by
  have := le_foldr_max (List.mem_map_of_mem (f := fun entry : Text × Datum => entry.2.levels) h)
  rw [levels]
  omega

end Datum

/-! ## Data in a store -/

mutual

/-- A store **holds data** at a value. -/
inductive Store.Holds (s : Store) : Datum → Value → Prop
  | undefined : Store.Holds s .undefined .undefined
  | null : Store.Holds s .null .null
  | bool (b : Bool) : Store.Holds s (.bool b) (.bool b)
  | int (n : Int) : Store.Holds s (.int n) (.int n)
  | text (t : Text) : Store.Holds s (.text t) (.text t)
  | list {ref : ListRef} {items : List Datum} {values : List Value}
    (held : s.lists[ref]? = some values) (each : List.Forall₂ (Store.Holds s) items values) :
    Store.Holds s (.list items) (.list ref)
  | object {ref : ObjectRef} {entries : List (Text × Datum)} {members : Entries}
    (held : s.objects[ref]? = some members)
    (each : List.Forall₂ (Store.HoldsEntry s) entries members) :
    Store.Holds s (.object entries) (.object ref)

/-- A store holds a key with data at an entry. -/
inductive Store.HoldsEntry (s : Store) : Text × Datum → Key × Value → Prop
  | mk (key : Text) {d : Datum} {v : Value} (h : Store.Holds s d v) :
    Store.HoldsEntry s (key, d) (.text key, v)

end

theorem Store.items_of_getElem? {s : Store} {ref : ListRef} {values : List Value}
    (h : s.lists[ref]? = some values) : s.items ref = values := by
  rw [items, Array.getD_eq_getD_getElem?, h, Option.getD_some]

theorem Store.entries_of_getElem? {s : Store} {ref : ObjectRef} {members : Entries}
    (h : s.objects[ref]? = some members) : s.entries ref = members := by
  rw [entries, Array.getD_eq_getD_getElem?, h, Option.getD_some]

/-- Rows that are related to one row are the same, if this is so of their members. -/
theorem eq_of_forall₂ {R : α → β → Prop} {as as' : List α} {bs : List β}
    (unique : ∀ a ∈ as, ∀ a' b, R a b → R a' b → a = a') (h : List.Forall₂ R as bs)
    (h' : List.Forall₂ R as' bs) : as = as' := by
  induction h generalizing as' with
  | nil => cases h'; rfl
  | cons first _ ih =>
    cases h' with
    | cons first' others' =>
      obtain ⟨here, more⟩ := List.forall_mem_cons.mp unique
      rw [here _ _ first first', ih more others']

/-- **A value holds one datum only.** -/
theorem Store.Holds.unique {s : Store} {d d' : Datum} {v : Value} (h : s.Holds d v)
    (h' : s.Holds d' v) : d = d' := by
  induction d generalizing d' v with
  | undefined | null | bool | int | text => cases h; cases h'; rfl
  | list items ih =>
    cases h with
    | list held each =>
      cases h' with
      | list held' each' =>
        cases held.symm.trans held'
        refine congrArg _ (eq_of_forall₂ (fun d hd d' v first first' => ?_) each each')
        exact ih d hd first first'
  | object entries ih =>
    cases h with
    | object held each =>
      cases h' with
      | object held' each' =>
        cases held.symm.trans held'
        refine congrArg _ (eq_of_forall₂ (fun entry he entry' member first first' => ?_) each each')
        cases first with
        | mk key first =>
          cases first' with
          | mk _ first' => exact congrArg (Prod.mk key) (ih _ he first first')

/-! ## Displaying data -/

/-- No place that holds data of at most so many levels has been entered. -/
def Unvisited.Covers (u : Unvisited) (s : Store) (levels : Nat) : Prop :=
  ∀ d v, s.Holds d v → d.levels ≤ levels →
    (∀ ref, v = .list ref → ref ∈ u.lists) ∧ (∀ ref, v = .object ref → ref ∈ u.objects)

namespace Unvisited.Covers

variable {s : Store} {u : Unvisited} {d : Datum} {n : Nat}

theorem all (s : Store) (n : Nat) : (Unvisited.all s).Covers s n := by
  intro d v h _
  constructor
  · rintro ref rfl
    cases h with
    | list held _ => exact List.mem_range.mpr (Array.getElem?_eq_some_iff.mp held).1
  · rintro ref rfl
    cases h with
    | object held _ => exact List.mem_range.mpr (Array.getElem?_eq_some_iff.mp held).1

/-- A list does not come up again among data of fewer levels. -/
theorem withoutList {ref : ListRef} (h : u.Covers s d.levels) (held : s.Holds d (.list ref))
    (less : n < d.levels) : (u.withoutList ref).Covers s n := by
  intro d' v held' few
  obtain ⟨lists, objects⟩ := h d' v held' (by omega)
  refine ⟨?_, objects⟩
  rintro ref' rfl
  refine (List.mem_erase_of_ne ?_).mpr (lists ref' rfl)
  rintro rfl
  cases held.unique held'
  omega

/-- An object does not come up again among data of fewer levels. -/
theorem withoutObject {ref : ObjectRef} (h : u.Covers s d.levels) (held : s.Holds d (.object ref))
    (less : n < d.levels) : (u.withoutObject ref).Covers s n := by
  intro d' v held' few
  obtain ⟨lists, objects⟩ := h d' v held' (by omega)
  refine ⟨lists, ?_⟩
  rintro ref' rfl
  refine (List.mem_erase_of_ne ?_).mpr (objects ref' rfl)
  rintro rfl
  cases held.unique held'
  omega

end Unvisited.Covers

/-- A traversal gives what it gives for each. -/
theorem mapM_of_forall₂ {f : β → Except ε γ} {g : α → γ} {as : List α} {bs : List β}
    (h : List.Forall₂ (fun a b => f b = .ok (g a)) as bs) : bs.mapM f = .ok (as.map g) := by
  induction h with
  | nil => rfl
  | cons first _ ih =>
    rw [List.mapM_cons, first, ih]
    rfl

/-- What holds of the members of a row that are related is related in another way. -/
theorem forall₂_of_mem {R S : α → β → Prop} {as : List α} {bs : List β}
    (h : List.Forall₂ R as bs) (weaken : ∀ a ∈ as, ∀ b, R a b → S a b) : List.Forall₂ S as bs :=
  ((List.forall₂_and_left as bs).mpr ⟨weaken, h⟩).imp fun _ _ both => both.1 _ both.2

theorem Store.displayFrom_eq {s : Store} {u : Unvisited} {d : Datum} {v : Value} (h : s.Holds d v)
    (plain : d.IsPlain) (covers : u.Covers s d.levels) : s.displayFrom u v = .ok d.spelling := by
  induction d generalizing v u with
  | undefined | null | bool | text =>
    cases h
    simp [displayFrom, textOf, textFrom, Datum.spelling]
  | int n =>
    cases h
    rw [Datum.IsPlain] at plain
    simp only [displayFrom, textOf, Value.int, textFrom, Number.display, Datum.spelling]
    exact numeralOfInt_eq plain
  | list items ih =>
    have whole := h
    cases h with
    | @list ref _ values held each =>
      rw [Datum.IsPlain] at plain
      have shown : values.mapM (s.displayFrom (u.withoutList ref))
          = .ok (items.map fun d => d.spelling) :=
        mapM_of_forall₂ <| forall₂_of_mem each fun d hd v hv =>
          ih d hd hv (plain d hd) (covers.withoutList whole (Datum.levels_lt_list hd))
      rw [displayFrom, dif_pos ((covers _ _ whole (Nat.le_refl _)).1 ref rfl), items_of_getElem? held,
        shown, Datum.spelling]
      rfl
  | object entries ih =>
    have whole := h
    cases h with
    | @object ref _ members held each =>
      rw [Datum.IsPlain] at plain
      obtain ⟨-, -, plain⟩ := plain
      have shown : members.mapM (fun entry => do
            let key ← entry.1.plain
            let value ← s.displayFrom (u.withoutObject ref) entry.2
            return displayKey key ++ ": " ++ value)
          = .ok (entries.map fun entry => displayKey entry.1 ++ ": " ++ entry.2.spelling) := by
        refine mapM_of_forall₂ (forall₂_of_mem each fun entry he member hm => ?_)
        cases hm with
        | mk key hv =>
          have value := ih _ he hv (plain _ he) (covers.withoutObject whole (Datum.levels_lt_object he))
          rw [value]
          rfl
      rw [displayFrom, dif_pos ((covers _ _ whole (Nat.le_refl _)).2 ref rfl),
        entries_of_getElem? held, shown, Datum.spelling]
      rfl

/-- **How a value that holds plain data is displayed** depends on the data alone. -/
theorem Store.display_eq {s : Store} {d : Datum} {v : Value} (h : s.Holds d v)
    (plain : d.IsPlain) : s.display v = .ok d.spelling :=
  displayFrom_eq h plain (.all s d.levels)

end Scriptlet
