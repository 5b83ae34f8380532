import Mathlib.Logic.Relation
import Scriptlet.Scope

/-!
# Sites, and what can be reached

Lists, objects, functions, frames and objects of the host are *sites* in a store.
From a site one gets to others: from a frame to its bindings and to the frame around
it, from a function to the frame in which it was made, and from a list, an object or
an object of the host to whatever its values name. What a run can get at is what can
be reached from the frame it runs in, from whatever the host keeps for itself, and what
it makes.

A change of the store either makes a new site or writes one, so what a site holds
afterwards was there before or is what has been written. The lemmas at the end say so
for each change, and nothing else is ever asked of them.
-/

namespace Scriptlet

/-- A **site** in a store: the place of a list, an object, a function, a frame or an object of
the host. -/
inductive Site where
  | list (ref : ListRef)
  | object (ref : ObjectRef)
  | function (ref : FunctionRef)
  | frame (ref : FrameRef)
  | host (ref : HostRef)
  deriving DecidableEq, Repr

/-! ## Values -/

namespace Value

/-- **What a value consists of**: itself, the items of a tuple and the value that a
method belongs to. -/
inductive Holds : Value → Value → Prop where
  | self (v : Value) : Holds v v
  | item {identity : Identity} {items : List Value} {v w : Value} (member : v ∈ items)
      (held : Holds v w) : Holds (.tuple identity items) w
  | subject {identity : Identity} {name : Text} {v w : Value} (held : Holds v w) :
      Holds (.method identity name v) w

/-- The site that a value is, if it is one. -/
def site? : Value → Option Site
  | list ref => some (.list ref)
  | object ref => some (.object ref)
  | function ref => some (.function ref)
  | host ref | hostMethod _ ref _ => some (.host ref)
  | _ => none

/-- Whether a value **names a site**. -/
def Names (v : Value) (p : Site) : Prop :=
  ∃ w, v.Holds w ∧ w.site? = some p

/-- Whether a value is put together from others. -/
def isComposed : Value → Bool
  | tuple .. | method .. => true
  | _ => false

/-- A value that is not composed consists of itself. -/
theorem holds_iff_eq {v w : Value} (h : v.isComposed = false) : v.Holds w ↔ w = v := by
  constructor
  · intro held
    cases held with
    | self => rfl
    | item => simp [isComposed] at h
    | subject => simp [isComposed] at h
  · rintro rfl
    exact .self _

theorem holds_tuple_iff {identity : Identity} {items : List Value} {w : Value} :
    (tuple identity items).Holds w ↔ w = .tuple identity items ∨ ∃ v ∈ items, v.Holds w := by
  constructor
  · rintro (_ | ⟨member, held⟩)
    · exact .inl rfl
    · exact .inr ⟨_, member, held⟩
  · rintro (rfl | ⟨v, member, held⟩)
    · exact .self _
    · exact .item member held

theorem holds_method_iff {identity : Identity} {name : Text} {v w : Value} :
    (method identity name v).Holds w ↔ w = .method identity name v ∨ v.Holds w := by
  constructor
  · rintro (_ | _ | held)
    · exact .inl rfl
    · exact .inr held
  · rintro (rfl | held)
    · exact .self _
    · exact .subject held

end Value

/-! ## Stores -/

/-- Whether a site **has been handed out** by a store. -/
def Site.IsIn (s : Store) : Site → Prop
  | list ref => ref < s.lists.size
  | object ref => ref < s.objects.size
  | function ref => ref < s.functions.size
  | frame ref => ref < s.frames.size
  | host ref => ref < s.hosts.size

namespace Store

/-- The **values that a site holds**. -/
def held (s : Store) : Site → List Value
  | .list ref => s.items ref
  | .object ref => (s.entries ref).map Prod.snd
  | .host ref => (s.attributes ref).map Prod.snd
  | .function _ | .frame _ => []

/-- Whether one gets **from a site to another** at once. -/
inductive Leads (s : Store) : Site → Site → Prop where
  /-- Through a value that the site holds. -/
  | value {p q : Site} {v : Value} (held : v ∈ s.held p) (names : v.Names q) : Leads s p q
  /-- From a function to the frame in which it was made. -/
  | scope {f : FunctionRef} {cell : FunctionCell} (found : s.functions[f]? = some cell) :
      Leads s (.function f) (.frame cell.scope)
  /-- From a frame to its bindings. -/
  | bindings {f : FrameRef} {cell : FrameCell} (found : s.frames[f]? = some cell) :
      Leads s (.frame f) (.object cell.bindings)
  /-- From a frame to the one around it. -/
  | parent {f outer : FrameRef} {cell : FrameCell} (found : s.frames[f]? = some cell)
      (inside : cell.parent = some outer) : Leads s (.frame f) (.frame outer)

/-- Whether one gets from a site to another **at last**. -/
def Reaches (s : Store) : Site → Site → Prop :=
  Relation.ReflTransGen s.Leads

/-- The sites of a store that are **out of reach** from some of them. -/
def unreached (s : Store) (roots : Set Site) : Set Site :=
  { p | p.IsIn s ∧ ∀ r ∈ roots, ¬ s.Reaches r p }

/-- What has not been handed out holds nothing. -/
theorem held_eq_nil {s : Store} {p : Site} (h : ¬ p.IsIn s) : s.held p = [] := by
  cases p with
  | list ref => simp_all [Site.IsIn, held, items]
  | object ref => simp_all [Site.IsIn, held, entries]
  | host ref => simp_all [Site.IsIn, held, attributes]
  | function | frame => rfl

/-! ## What a change of the store leaves behind -/

/-- Items that a list holds after a change of its items were there before or are new. -/
theorem mem_held_setItems {s : Store} {ref : ListRef} {items : List Value} {p : Site}
    {v : Value} (h : v ∈ (s.setItems ref items).held p) : v ∈ items ∨ v ∈ s.held p := by
  cases p with
  | list other =>
    simp only [held, Store.items, setItems, Array.getD_eq_getD_getElem?] at h ⊢
    rw [Array.getElem?_setIfInBounds] at h
    split at h
    · split at h
      · exact .inl h
      · simp at h
    · exact .inr h
  | object | function | frame | host => exact .inr h

theorem mem_held_setEntries {s : Store} {ref : ObjectRef} {entries : Entries} {p : Site}
    {v : Value} (h : v ∈ (s.setEntries ref entries).held p) :
    v ∈ entries.map Prod.snd ∨ v ∈ s.held p := by
  cases p with
  | object other =>
    simp only [held, Store.entries, setEntries, Array.getD_eq_getD_getElem?] at h ⊢
    rw [Array.getElem?_setIfInBounds] at h
    split at h
    · split at h
      · exact .inl h
      · simp at h
    · exact .inr h
  | list | function | frame | host => exact .inr h

theorem mem_held_setAttributes {s : Store} {ref : HostRef} {attributes : List (Text × Value)}
    {p : Site} {v : Value} (h : v ∈ (s.setAttributes ref attributes).held p) :
    v ∈ attributes.map Prod.snd ∨ v ∈ s.held p := by
  cases p with
  | host other =>
    simp only [held, Store.attributes, setAttributes, Array.getElem?_modify] at h ⊢
    split at h
    · cases hc : s.hosts[other]? with
      | none => simp [hc] at h
      | some cell => simp only [hc, Option.map_some, Option.getD_some] at h; exact .inl h
    · exact .inr h
  | list | object | function | frame => exact .inr h

theorem mem_held_newList {s : Store} {items : List Value} {p : Site} {v : Value}
    (h : v ∈ (s.newList items).2.held p) : v ∈ items ∨ v ∈ s.held p := by
  cases p with
  | list other =>
    simp only [held, Store.items, newList, Array.getD_eq_getD_getElem?, Array.getElem?_push] at h ⊢
    split at h
    · exact .inl h
    · exact .inr h
  | object | function | frame | host => exact .inr h

theorem mem_held_newObject {s : Store} {entries : Entries} {p : Site} {v : Value}
    (h : v ∈ (s.newObject entries).2.held p) : v ∈ entries.map Prod.snd ∨ v ∈ s.held p := by
  cases p with
  | object other =>
    simp only [held, Store.entries, newObject, Array.getD_eq_getD_getElem?,
      Array.getElem?_push] at h ⊢
    split at h
    · exact .inl h
    · exact .inr h
  | list | function | frame | host => exact .inr h

/-- A frame after a change of one frame is the changed one or as before. -/
theorem frames_setFrame {s : Store} {ref other : FrameRef} {cell found : FrameCell}
    (h : (s.setFrame ref cell).frames[other]? = some found) :
    (other = ref ∧ found = cell) ∨ s.frames[other]? = some found := by
  simp only [setFrame, Array.getElem?_setIfInBounds] at h
  split at h
  · split at h
    · exact .inl ⟨by simp_all, by simp_all⟩
    · simp at h
  · exact .inr h

theorem frames_newFrame {s : Store} {other : FrameRef} {cell found : FrameCell}
    (h : (s.newFrame cell).2.frames[other]? = some found) :
    (other = s.frames.size ∧ found = cell) ∨ s.frames[other]? = some found := by
  simp only [newFrame, Array.getElem?_push] at h
  split at h
  · exact .inl ⟨by simp_all, by simp_all⟩
  · exact .inr h

theorem functions_setFunction {s : Store} {ref other : FunctionRef} {cell found : FunctionCell}
    (h : (s.setFunction ref cell).functions[other]? = some found) :
    (other = ref ∧ found = cell) ∨ s.functions[other]? = some found := by
  simp only [setFunction, Array.getElem?_setIfInBounds] at h
  split at h
  · split at h
    · exact .inl ⟨by simp_all, by simp_all⟩
    · simp at h
  · exact .inr h

theorem functions_newFunction {s : Store} {other : FunctionRef} {cell found : FunctionCell}
    (h : (s.newFunction cell).2.functions[other]? = some found) :
    (other = s.functions.size ∧ found = cell) ∨ s.functions[other]? = some found := by
  simp only [newFunction, Array.getElem?_push] at h
  split at h
  · exact .inl ⟨by simp_all, by simp_all⟩
  · exact .inr h

end Store

end Scriptlet
