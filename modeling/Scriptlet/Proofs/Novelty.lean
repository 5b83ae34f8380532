import Scriptlet.Proofs.Site
import Scriptlet.Value.Number

/-!
# What is new changes nothing

Many a method gives a new list, and a program goes on with its values in a store that holds one
list more. No value that was there before is any different for it: a value can only name what has
been handed out, and the new list has not been until then. So the text of a value is the same as
before, and with it its number. It remains to be said what keeps a value from naming a list that
is not there; it is that neither the value does nor anything that the store holds.
-/

namespace Scriptlet

/-- A list of computations is the same if each of them is. -/
theorem mapM_congr_of_mem {f g : α → Except ε β} {xs : List α} (h : ∀ x ∈ xs, f x = g x) :
    xs.mapM f = xs.mapM g := by
  induction xs with
  | nil => rfl
  | cons x xs ih =>
    rw [List.mapM_cons, List.mapM_cons, h x List.mem_cons_self,
      ih fun y hy => h y (List.mem_cons_of_mem _ hy)]

/-- A value **names only lists** that a store has handed out. -/
def Store.Knows (s : Store) (v : Value) : Prop :=
  ∀ ref, v.Names (.list ref) → ref < s.lists.size

/-- A store is **closed** if whatever it holds names only lists that it has handed out. -/
def Store.IsClosed (s : Store) : Prop :=
  ∀ p, ∀ v ∈ s.held p, s.Knows v

/-- What is not yet visited, and a list besides. -/
def Unvisited.withList (u : Unvisited) (ref : ListRef) : Unvisited :=
  { u with lists := u.lists ++ [ref] }

namespace Store

variable {s : Store} {v : Value} {new : List Value}

theorem Knows.list {ref : ListRef} (h : s.Knows (.list ref)) : ref < s.lists.size :=
  h ref ⟨_, .self _, rfl⟩

theorem Knows.item {identity : Identity} {items : List Value} (h : s.Knows (.tuple identity items))
    {item : Value} (hitem : item ∈ items) : s.Knows item := by
  rintro ref ⟨w, held, site⟩
  exact h ref ⟨w, .item hitem held, site⟩

theorem Knows.subject {identity : Identity} {name : Text}
    (h : s.Knows (.method identity name v)) : s.Knows v := by
  rintro ref ⟨w, held, site⟩
  exact h ref ⟨w, .subject held, site⟩

theorem IsClosed.items (closed : s.IsClosed) {ref : ListRef} {item : Value}
    (hitem : item ∈ s.items ref) : s.Knows item :=
  closed (.list ref) item hitem

theorem IsClosed.entries (closed : s.IsClosed) {ref : ObjectRef} {entry : Key × Value}
    (hentry : entry ∈ s.entries ref) : s.Knows entry.2 :=
  closed (.object ref) entry.2 (List.mem_map_of_mem hentry)

theorem items_newList {ref : ListRef} (there : ref < s.lists.size) :
    (s.newList new).2.items ref = s.items ref := by
  rw [Store.items, Store.items, newList, Array.getD_eq_getD_getElem?,
    Array.getD_eq_getD_getElem?, Array.getElem?_push_lt there, Array.getElem?_eq_getElem there]

theorem items_newList_self : (s.newList new).2.items s.lists.size = new := by
  rw [Store.items, newList, Array.getD_eq_getD_getElem?, Array.getElem?_push_size]
  rfl

/-- A list that has been handed out is visited whether or not the new one may be. -/
theorem mem_append_size_iff {unvisited : List ListRef} {ref : ListRef}
    (there : ref < s.lists.size) : ref ∈ unvisited ++ [s.lists.size] ↔ ref ∈ unvisited := by
  rw [List.mem_append, List.mem_singleton]
  exact or_iff_left (Nat.ne_of_lt there)

theorem withoutList_withList {u : Unvisited} {ref other : ListRef} (there : ref ∈ u.lists) :
    (u.withList other).withoutList ref = (u.withoutList ref).withList other := by
  rw [Unvisited.withList, Unvisited.withoutList, List.erase_append_left _ there]
  rfl

theorem describeFrom_newList (closed : s.IsClosed) (unvisited : Unvisited)
    (entered : List Identity) (known : s.Knows v) :
    (s.newList new).2.describeFrom (unvisited.withList s.lists.size) entered v
      = s.describeFrom unvisited entered v := by
  induction unvisited, entered, v using Store.describeFrom.induct with
  | case7 unvisited entered ref there ih =>
    have still : ref ∈ (unvisited.withList s.lists.size).lists :=
      (mem_append_size_iff known.list).mpr there
    rw [describeFrom, describeFrom, dif_pos there, dif_pos still, items_newList known.list,
      withoutList_withList there, mapM_congr_of_mem fun item hitem => ih item (closed.items hitem)]
  | case8 unvisited entered ref gone =>
    have still : ref ∉ (unvisited.withList s.lists.size).lists :=
      mt (mem_append_size_iff known.list).mp gone
    rw [describeFrom, describeFrom, dif_neg gone, dif_neg still]
  | case9 unvisited entered ref there ih =>
    have still : ref ∈ (unvisited.withList s.lists.size).objects := there
    rw [describeFrom, describeFrom, dif_pos there, dif_pos still]
    show (s.entries ref).mapM _ >>= _ = _
    rw [mapM_congr_of_mem fun entry hentry => by
      show (entry.1.describe >>= fun _ => describeFrom _ ((unvisited.withoutObject ref).withList _) _ _ >>= _) = _
      rw [ih entry (closed.entries hentry)]]
  | case12 unvisited entered identity items notEntered ih =>
    rw [describeFrom, describeFrom, if_neg notEntered, if_neg notEntered,
      mapM_congr_of_mem fun item _ => ih item.1 item.2 (known.item item.2)]
  | case16 unvisited entered identity name subject notEntered ih =>
    rw [describeFrom, describeFrom, if_neg notEntered, if_neg notEntered, ih known.subject]
  | _ => simp_all [describeFrom, Unvisited.withList, newList, describeHost, hostShown]

theorem describe_newList (closed : s.IsClosed) (known : s.Knows v) :
    (s.newList new).2.describe v = s.describe v := by
  have same := fun unvisited => @describeFrom_newList _ _ new closed unvisited [] known
  rw [describe, describe, ← same]
  congr 1
  show (⟨List.range (s.lists.push new).size, _⟩ : Unvisited) = ⟨_, _⟩
  rw [Array.size_push, List.range_succ]
  rfl

theorem plain_newList (closed : s.IsClosed) (known : s.Knows v) :
    (s.newList new).2.plain v = s.plain v := by
  cases v with
  | text | host => rfl
  | _ => exact describe_newList closed known

theorem textFrom_newList (closed : s.IsClosed) (unvisited : List ListRef) (known : s.Knows v) :
    (s.newList new).2.textFrom (unvisited ++ [s.lists.size]) v = s.textFrom unvisited v := by
  induction unvisited, v using Store.textFrom.induct with
  | case6 unvisited ref there ih =>
    have still : ref ∈ unvisited ++ [s.lists.size] := (mem_append_size_iff known.list).mpr there
    rw [textFrom, textFrom, dif_pos there, dif_pos still, items_newList known.list,
      List.erase_append_left _ there,
      mapM_congr_of_mem fun item hitem => by rw [ih item (closed.items hitem)]]
  | case7 unvisited ref gone =>
    rw [textFrom, textFrom, dif_neg gone, dif_neg (mt (mem_append_size_iff known.list).mp gone)]
  | case14 unvisited v =>
    have plain : (s.newList new).2.plain v = s.plain v := plain_newList closed known
    cases v <;> simp_all [textFrom]
  | _ => simp_all [textFrom, newList]

/-- **A value has the text that it had**, -/
theorem textOf_newList (closed : s.IsClosed) (known : s.Knows v) :
    (s.newList new).2.textOf v = s.textOf v := by
  have same := fun unvisited => @textFrom_newList _ _ new closed unvisited known
  rw [textOf, textOf, ← same]
  congr 1
  show List.range (s.lists.push new).size = _
  rw [Array.size_push, List.range_succ]

/-- and its number. -/
theorem numberOf_newList (closed : s.IsClosed) (known : s.Knows v) :
    (s.newList new).2.numberOf v = s.numberOf v := by
  cases v with
  | list ref =>
    show ((s.newList new).2.textOf _ >>= _) = (s.textOf _ >>= _)
    rw [textOf_newList closed known]
  | _ => rfl

end Store

end Scriptlet
