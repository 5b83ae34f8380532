import Mathlib.Data.Finset.Basic
import Scriptlet.Proofs.Site

/-!
# Values that contain themselves

A list can be an item of itself, at once or by way of other lists and objects, and it can stand
in many places of one value without being in itself anywhere. Two manners of writing go into
containers: that of texts goes into lists, that of displaying into objects as well. Both come to
an end on every value, and where they leave a container out it is because they are inside it.

Two other descriptions of the same texts are given here. A *walk* takes down the containers it is
in: one record for all of the walk, to which a container is added when it is entered and from
which it is taken when it is left, be it because of a fault. A *rendering* keeps no record at all
and is told beforehand which occurrences to leave out. An *occurrence* in a value is given by the
way to it, part by part, and it recurs if its container is among those that are gone into on the
way. Writing, the walk, and the rendering that leaves out what recurs are proved to agree; the
record is then the same after the walk as before it, and a value in which nothing recurs is
written as if there were no cycles.
-/

namespace Scriptlet

/-! ## Two manners of writing -/

/-- A **manner** in which values are written: as texts, or as they are displayed. -/
inductive Manner where
  | text
  | display

/-- A **part** of a container as it is written: a label in front, and the value, unless nothing is
written for it. -/
structure WrittenPart where
  label : Except Unmet Text
  value? : Option Value

/-- A value **written** in a manner. -/
def Store.write (s : Store) : Manner → Value → Except Unmet Text
  | .text => s.textOf
  | .display => s.display

/-- A part written, by a way to write values. -/
def WrittenPart.write [Monad m] [MonadLiftT (Except Unmet) m] (write : Value → m Text)
    (part : WrittenPart) : m Text := do
  let label ← liftM part.label
  match part.value? with
  | some v => return label ++ (← write v)
  | none => return label

namespace Manner

/-- The site and the parts of a value that is **gone into**. -/
def container? (s : Store) : Manner → Value → Option (Site × List WrittenPart)
  | text, .list ref => some (.list ref, (s.items ref).map fun item =>
      ⟨.ok [], if item.isNullish then none else some item⟩)
  | display, .list ref => some (.list ref, (s.items ref).map fun item => ⟨.ok [], some item⟩)
  | display, .object ref => some (.object ref, (s.entries ref).map fun entry =>
      ⟨(displayKey · ++ ": ") <$> entry.1.plain, some entry.2⟩)
  | _, _ => none

/-- The parts of a container put together. -/
def enclose : Manner → Value → List Text → Text
  | text, _ => Text.join ","
  | display, .object _ => displayItems openBrace closeBrace
  | display, _ => displayItems '[' ']'

/-- What stands for a container that is left out. -/
def mark : Manner → Text
  | text => []
  | display => "[Circular]"

end Manner

/-! ## Walks with a record -/

/-- A computation that keeps a **record** of sites, and may end with a fault. -/
abbrev Recorded := EStateM HostFault (Finset Site)

namespace Recorded

/-- The record is **left as it is**. -/
def leaving (x : Except Unmet α) : Recorded α := fun seen =>
  match x with
  | .ok a => .ok a seen
  | .error u => .error (.unmet u) seen

instance : MonadLift (Except Unmet) Recorded := ⟨leaving⟩

/-- A site is on record while something is done, and **no longer than that**, however it ends. -/
def within (p : Site) (body : Recorded α) : Recorded α := do
  modify (insert p)
  tryFinally body (modify (Finset.erase · p))

theorem bind_leaving {x : Recorded α} {f : α → Recorded β} {y : Except Unmet α}
    {g : α → Except Unmet β} {seen : Finset Site} (first : x seen = leaving y seen)
    (second : ∀ a, f a seen = leaving (g a) seen) : (x >>= f) seen = leaving (y >>= g) seen := by
  show EStateM.bind x f seen = _
  rw [EStateM.bind, first]
  cases y with
  | ok a => exact second a
  | error u => rfl

theorem mapM_leaving {f : α → Recorded β} {g : α → Except Unmet β} {seen : Finset Site}
    {xs : List α} (h : ∀ x ∈ xs, f x seen = leaving (g x) seen) :
    xs.mapM f seen = leaving (xs.mapM g) seen := by
  induction xs with
  | nil => rfl
  | cons x xs ih =>
    obtain ⟨first, more⟩ := List.forall_mem_cons.mp h
    rw [List.mapM_cons, List.mapM_cons]
    exact bind_leaving first fun a => bind_leaving (ih more) fun as => rfl

theorem map_leaving (f : α → β) {x : Recorded α} {y : Except Unmet α} {seen : Finset Site}
    (h : x seen = leaving y seen) : (f <$> x) seen = leaving (f <$> y) seen := by
  show EStateM.map f x seen = _
  rw [EStateM.map, h]
  cases y <;> rfl

/-- A part leaves the record as it is if its value does. -/
theorem part_leaving {write : Value → Recorded Text} {write' : Value → Except Unmet Text}
    {part : WrittenPart} {seen : Finset Site}
    (h : ∀ v, part.value? = some v → write v seen = leaving (write' v) seen) :
    part.write write seen = leaving (part.write write') seen := by
  refine bind_leaving (x := leaving part.label) rfl fun label => ?_
  cases value : part.value? with
  | none => rfl
  | some v => exact bind_leaving (h v value) fun t => rfl

/-- **What is entered is left.** -/
theorem within_leaving {p : Site} {body : Recorded α} {x : Except Unmet α} {seen : Finset Site}
    (new : p ∉ seen) (h : body (insert p seen) = leaving x (insert p seen)) :
    within p body seen = leaving x seen := by
  have left : (insert p seen).erase p = seen := Finset.erase_insert_eq_erase seen p ▸
    Finset.erase_eq_of_notMem new
  have finished : tryFinally body (modify (Finset.erase · p)) (insert p seen)
      = leaving x ((insert p seen).erase p) := by
    show EStateM.map _ (tryFinally' body _) _ = _
    cases x with
    | ok a =>
      have ends : body (insert p seen) = .ok a (insert p seen) := h
      simp only [EStateM.map, tryFinally', ends]
      rfl
    | error u =>
      have ends : body (insert p seen) = .error (.unmet u) (insert p seen) := h
      simp only [EStateM.map, tryFinally', ends]
      rfl
  rw [left] at finished
  exact finished

end Recorded

namespace Manner

/-- **Walks** over a value and writes it, down to a depth. What is on record is left out. -/
def walk (m : Manner) (s : Store) : Nat → Value → Recorded Text
  | 0, _ => throw .tooDeep
  | depth + 1, v =>
    match m.container? s v with
    | none => liftM (s.write m v)
    | some (p, parts) => do
      if p ∈ (← get) then return m.mark
      Recorded.within p (m.enclose v <$> parts.mapM (WrittenPart.write (m.walk s depth)))

/-! ## Renderings without one -/

/-- **Renders** a value down to a depth. The occurrences to leave out are given. -/
def render (m : Manner) (s : Store) : Nat → (List Nat → Bool) → Value → Except HostFault Text
  | 0, _, _ => .error .tooDeep
  | depth + 1, isLeftOut, v =>
    match m.container? s v with
    | none => liftM (s.write m v)
    | some (_, parts) =>
      if isLeftOut [] then .ok m.mark
      else m.enclose v <$> parts.zipIdx.mapM fun (part, i) =>
        part.write (m.render s depth fun way => isLeftOut (i :: way))

/-- Follows a **way** into a value: the containers that are gone into, the outermost first, and the
value that one comes to. -/
def follow? (m : Manner) (s : Store) : List Nat → Value → Option (List Site × Value)
  | [], v => some ([], v)
  | i :: way, v => do
    let (p, parts) ← m.container? s v
    let w ← (← parts[i]?).value?
    let (around, u) ← m.follow? s way w
    return (p :: around, u)

/-- Whether an occurrence **recurs**: its container is gone into on the way to it, or is one of
those outside. -/
def recurs (m : Manner) (s : Store) (outside : List Site) (v : Value) (way : List Nat) : Bool :=
  match m.follow? s way v with
  | some (around, w) =>
    match m.container? s w with
    | some (p, _) => (outside ++ around).contains p
    | none => false
  | none => false

/-- A value is **acyclic** if nothing recurs in it. -/
def IsAcyclic (m : Manner) (s : Store) (v : Value) : Prop :=
  ∀ way, m.recurs s [] v way = false

end Manner

/-! ## What is left to enter -/

/-- A store **has** a value if it has handed out the site that the value is. -/
def Store.Has (s : Store) (v : Value) : Prop :=
  ∀ p, v.site? = some p → p.IsIn s

/-- A store is **whole** if it has whatever it holds. -/
def Store.IsWhole (s : Store) : Prop :=
  ∀ p, ∀ v ∈ s.held p, s.Has v

/-- Whether a walk may still enter a site. -/
def Unvisited.Admits (u : Unvisited) : Site → Prop
  | .list ref => ref ∈ u.lists
  | .object ref => ref ∈ u.objects
  | _ => False

/-- What is left after a site has been entered. -/
def Unvisited.without (u : Unvisited) : Site → Unvisited
  | .list ref => u.withoutList ref
  | .object ref => u.withoutObject ref
  | _ => u

/-- Everything in a store that is **not on record**. -/
def Store.offRecord (s : Store) (seen : Finset Site) : Unvisited :=
  ⟨(List.range s.lists.size).filter (.list · ∉ seen),
    (List.range s.objects.size).filter (.object · ∉ seen)⟩

/-- A value written in a manner, where only some places are entered. -/
def Store.writeFrom (s : Store) (u : Unvisited) : Manner → Value → Except Unmet Text
  | .text => s.textFrom u.lists
  | .display => s.displayFrom u

namespace Store

variable {s : Store} {m : Manner} {v : Value} {p : Site} {parts : List WrittenPart} {u : Unvisited}

theorem write_eq_writeFrom (s : Store) (m : Manner) (v : Value) :
    s.write m v = s.writeFrom (.all s) m v := by
  cases m <;> rfl

/-- A container is the site that it is, and its parts are what that holds. -/
theorem container?_spec (h : m.container? s v = some (p, parts)) :
    v.site? = some p ∧ ∀ part ∈ parts, ∀ w, part.value? = some w → w ∈ s.held p := by
  unfold Manner.container? at h
  split at h
  · cases h
    refine ⟨rfl, List.forall_mem_map.mpr fun item mem w written => ?_⟩
    obtain ⟨-, same⟩ := Option.ite_none_left_eq_some.mp written
    exact Option.some.inj same ▸ mem
  · cases h
    exact ⟨rfl, List.forall_mem_map.mpr fun item mem w written => Option.some.inj written ▸ mem⟩
  · cases h
    refine ⟨rfl, List.forall_mem_map.mpr fun entry mem w written => ?_⟩
    exact Option.some.inj written ▸ List.mem_map_of_mem mem
  · cases h

/-- What is no container is written in one way, whatever may be entered. -/
theorem writeFrom_of_no_container (h : m.container? s v = none) (u : Unvisited) :
    s.writeFrom u m v = s.write m v := by
  cases m with
  | text =>
    cases v with
    | list ref => cases h
    | _ => simp only [writeFrom, write, textOf, textFrom]
  | display =>
    cases v with
    | list ref | object ref => cases h
    | _ => simp only [writeFrom, write, display, displayFrom]

/-- What is written for a value without a label. -/
theorem write_unlabelled (write : Value → Except Unmet Text) (v : Value) :
    WrittenPart.write write ⟨.ok [], some v⟩ = write v := by
  show (write v >>= fun t => pure ([] ++ t)) = write v
  cases write v <;> rfl

/-- A container that may be entered is written by its parts, into which it is not entered again. -/
theorem writeFrom_of_admits (h : m.container? s v = some (p, parts)) (enter : u.Admits p) :
    s.writeFrom u m v
      = m.enclose v <$> parts.mapM (WrittenPart.write (s.writeFrom (u.without p) m)) := by
  unfold Manner.container? at h
  split at h
  · rename_i ref
    cases h
    have there : ref ∈ u.lists := enter
    rw [List.mapM_map, writeFrom, textFrom, dif_pos there, bind_pure_comp]
    refine congrArg (fun write => Text.join "," <$> (s.items ref).mapM write) ?_
    refine funext fun item => ?_
    show _ = WrittenPart.write _ ⟨.ok [], if item.isNullish then none else some item⟩
    cases item.isNullish with
    | true => rfl
    | false => exact (write_unlabelled ..).symm
  · rename_i ref
    cases h
    have there : ref ∈ u.lists := enter
    rw [List.mapM_map, writeFrom, displayFrom, dif_pos there, bind_pure_comp]
    exact congrArg (fun write => displayItems '[' ']' <$> (s.items ref).mapM write)
      (funext fun item => (write_unlabelled ..).symm)
  · rename_i ref
    cases h
    have there : ref ∈ u.objects := enter
    rw [List.mapM_map, writeFrom, displayFrom, dif_pos there, bind_pure_comp]
    refine congrArg (fun write => displayItems openBrace closeBrace <$> (s.entries ref).mapM write)
      (funext fun entry => ?_)
    show (entry.1.plain >>= _) = (((displayKey · ++ ": ") <$> entry.1.plain) >>= _)
    cases entry.1.plain <;> rfl
  · cases h

theorem writeFrom_of_not_admits (h : m.container? s v = some (p, parts)) (enter : ¬ u.Admits p) :
    s.writeFrom u m v = .ok m.mark := by
  unfold Manner.container? at h
  split at h
  · cases h
    exact (textFrom.eq_def ..).trans (dif_neg enter)
  · cases h
    exact (displayFrom.eq_def ..).trans (dif_neg enter)
  · cases h
    exact (displayFrom.eq_def ..).trans (dif_neg enter)
  · cases h

/-! ## What is on record and what is left to enter -/

theorem admits_offRecord_iff (seen : Finset Site) (h : m.container? s v = some (p, parts))
    (there : s.Has v) : (s.offRecord seen).Admits p ↔ p ∉ seen := by
  obtain ⟨site, -⟩ := container?_spec h
  have isIn := there p site
  unfold Manner.container? at h
  split at h
  case h_4 => cases h
  all_goals
    cases h
    show _ ∈ List.filter _ _ ↔ _
    rw [List.mem_filter, List.mem_range, decide_eq_true_iff]
    exact and_iff_right isIn

/-- What is on record as well is no longer left, and nothing else is lost. -/
theorem filter_insert_record (name : Nat → Site) (seen : Finset Site) (p : Site) (n : Nat) :
    (List.range n).filter (name · ∉ insert p seen)
      = ((List.range n).filter (name · ∉ seen)).filter (name · ≠ p) := by
  rw [List.filter_filter]
  refine List.filter_congr fun ref _ => ?_
  rw [← Bool.decide_and, decide_eq_decide, Finset.mem_insert, not_or]

theorem filter_insert_self {name : Nat → Site} (inj : ∀ r r', name r = name r' ↔ r = r')
    (seen : Finset Site) (ref n : Nat) :
    ((List.range n).filter (name · ∉ seen)).erase ref
      = (List.range n).filter (name · ∉ insert (name ref) seen) := by
  rw [filter_insert_record, (List.nodup_range.filter _).erase_eq_filter]
  refine List.filter_congr fun r _ => ?_
  rw [Bool.eq_iff_iff, decide_eq_true_iff, bne_iff_ne, ne_eq, ne_eq, inj]

theorem filter_insert_other {name : Nat → Site} {p : Site} (other : ∀ r, name r ≠ p)
    (seen : Finset Site) (n : Nat) :
    (List.range n).filter (name · ∉ seen) = (List.range n).filter (name · ∉ insert p seen) := by
  rw [filter_insert_record]
  exact (List.filter_eq_self.mpr fun r _ => decide_eq_true (other r)).symm

/-- What is entered is put on record, and is no longer left to enter. -/
theorem without_offRecord (seen : Finset Site) (h : m.container? s v = some (p, parts)) :
    (s.offRecord seen).without p = s.offRecord (insert p seen) := by
  have lists (ref : ListRef) :
      (s.offRecord seen).withoutList ref = s.offRecord (insert (.list ref) seen) :=
    congrArg₂ Unvisited.mk (filter_insert_self (fun _ _ => Site.list.injEq .. ▸ Iff.rfl) ..)
      (filter_insert_other (fun _ => Site.noConfusion) ..)
  have objects (ref : ObjectRef) :
      (s.offRecord seen).withoutObject ref = s.offRecord (insert (.object ref) seen) :=
    congrArg₂ Unvisited.mk (filter_insert_other (fun _ => Site.noConfusion) ..)
      (filter_insert_self (fun _ _ => Site.object.injEq .. ▸ Iff.rfl) ..)
  unfold Manner.container? at h
  split at h
  · cases h; exact lists _
  · cases h; exact lists _
  · cases h; exact objects _
  · cases h

theorem size_offRecord_lt {seen : Finset Site} (h : m.container? s v = some (p, parts))
    (enter : (s.offRecord seen).Admits p) :
    (s.offRecord (insert p seen)).size < (s.offRecord seen).size := by
  rw [← without_offRecord seen h]
  unfold Manner.container? at h
  split at h
  · cases h; exact Unvisited.size_withoutList_lt enter
  · cases h; exact Unvisited.size_withoutList_lt enter
  · cases h; exact Unvisited.size_withoutObject_lt enter
  · cases h

theorem offRecord_empty (s : Store) : s.offRecord ∅ = .all s := by
  have all (name : Nat → Site) (n : Nat) :
      (List.range n).filter (name · ∉ (∅ : Finset Site)) = List.range n :=
    List.filter_eq_self.mpr fun r _ => decide_eq_true (Finset.notMem_empty _)
  rw [offRecord, all, all]
  rfl

/-! ## The three descriptions agree -/

/-- **The walk writes what is written**, and leaves the record as it was. -/
theorem walk_eq (whole : s.IsWhole) (m : Manner) (depth : Nat) (seen : Finset Site)
    (has : s.Has v) (deep : (s.offRecord seen).size < depth) :
    m.walk s depth v seen = Recorded.leaving (s.writeFrom (s.offRecord seen) m v) seen := by
  induction depth generalizing v seen with
  | zero => exact absurd deep (Nat.not_lt_zero _)
  | succ depth ih =>
    rw [Manner.walk.eq_def]
    dsimp only
    cases h : m.container? s v with
    | none =>
      rw [writeFrom_of_no_container h]
      rfl
    | some container =>
      obtain ⟨p, parts⟩ := container
      have admits := admits_offRecord_iff seen h has
      by_cases entered : p ∈ seen
      · rw [writeFrom_of_not_admits h (mt admits.mp (not_not_intro entered))]
        show (if p ∈ seen then (pure m.mark : Recorded Text) else Recorded.within p _) seen = _
        rw [if_pos entered]
        rfl
      · rw [writeFrom_of_admits h (admits.mpr entered), without_offRecord seen h]
        show (if p ∈ seen then (pure m.mark : Recorded Text) else Recorded.within p _) seen = _
        rw [if_neg entered]
        have shallower := size_offRecord_lt h (admits.mpr entered)
        refine Recorded.within_leaving entered (Recorded.map_leaving _
          (Recorded.mapM_leaving fun part mem => Recorded.part_leaving fun w written => ?_))
        have held := (container?_spec h).2 part mem w written
        exact ih (insert p seen) (whole p w held) (by omega)

/-- The way to an occurrence goes through a part first. -/
theorem recurs_cons {part : WrittenPart} {w : Value} {i : Nat}
    (h : m.container? s v = some (p, parts)) (found : parts[i]? = some part)
    (written : part.value? = some w) (outside : List Site) (way : List Nat) :
    m.recurs s outside v (i :: way) = m.recurs s (outside ++ [p]) w way := by
  have first : m.follow? s (i :: way) v
      = (m.follow? s way w).map fun came => (p :: came.1, came.2) := by
    rw [Manner.follow?, h]
    show (parts[i]? >>= fun part => part.value? >>= _) = _
    rw [found]
    show (part.value? >>= _) = _
    rw [written]
    show (m.follow? s way w >>= _) = _
    cases m.follow? s way w <;> rfl
  rw [Manner.recurs, Manner.recurs, first]
  cases m.follow? s way w with
  | none => rfl
  | some came =>
    show (match m.container? s came.2 with
      | some (q, _) => (outside ++ p :: came.1).contains q
      | none => false) = _
    rw [List.append_cons]

theorem mapM_lift {f : α → Except HostFault β} {g : α → Except Unmet β} {xs : List α}
    (h : ∀ x ∈ xs, f x = liftM (g x)) : xs.mapM f = liftM (xs.mapM g) := by
  induction xs with
  | nil => rfl
  | cons x xs ih =>
    obtain ⟨first, more⟩ := List.forall_mem_cons.mp h
    rw [List.mapM_cons, List.mapM_cons, first, ih more]
    cases g x with
    | error u => rfl
    | ok b => cases xs.mapM g <;> rfl

theorem map_lift (f : α → β) (x : Except Unmet α) :
    f <$> (liftM x : Except HostFault α) = liftM (f <$> x) := by
  cases x <;> rfl

/-- A part comes to the same if its value does. -/
theorem part_lift {write : Value → Except HostFault Text} {write' : Value → Except Unmet Text}
    {part : WrittenPart} (h : ∀ v, part.value? = some v → write v = liftM (write' v)) :
    part.write write = liftM (part.write write') := by
  rw [WrittenPart.write, WrittenPart.write]
  cases part.label with
  | error u => rfl
  | ok label =>
    cases value : part.value? with
    | none => rfl
    | some v =>
      show (write v >>= _) = liftM (write' v >>= _)
      rw [h v value]
      cases write' v <;> rfl

/-- **The rendering that leaves out what recurs** gives what is written. -/
theorem render_eq (whole : s.IsWhole) (m : Manner) (depth : Nat) (outside : List Site)
    (has : s.Has v) (deep : (s.offRecord outside.toFinset).size < depth) :
    m.render s depth (m.recurs s outside v) v
      = liftM (s.writeFrom (s.offRecord outside.toFinset) m v) := by
  induction depth generalizing v outside with
  | zero => exact absurd deep (Nat.not_lt_zero _)
  | succ depth ih =>
    rw [Manner.render.eq_def]
    dsimp only
    cases h : m.container? s v with
    | none =>
      rw [writeFrom_of_no_container h]
    | some container =>
      obtain ⟨p, parts⟩ := container
      have admits := admits_offRecord_iff outside.toFinset h has
      have here : m.recurs s outside v [] = outside.contains p := by
        rw [Manner.recurs, Manner.follow?]
        dsimp only
        rw [h]
        dsimp only
        rw [List.append_nil]
      dsimp only
      rw [here]
      by_cases entered : p ∈ outside
      · rw [if_pos (List.contains_iff_mem.mpr entered), writeFrom_of_not_admits h
          (mt admits.mp (not_not_intro (List.mem_toFinset.mpr entered)))]
        rfl
      · have new : p ∉ outside.toFinset := mt List.mem_toFinset.mp entered
        have shallower := size_offRecord_lt h (admits.mpr new)
        have record : insert p outside.toFinset = (outside ++ [p]).toFinset := by
          ext q
          rw [Finset.mem_insert, List.mem_toFinset, List.mem_toFinset, List.mem_append,
            List.mem_singleton, or_comm]
        rw [record] at shallower
        rw [if_neg (mt List.contains_iff_mem.mp entered), writeFrom_of_admits h (admits.mpr new),
          without_offRecord _ h, record]
        have written : parts.zipIdx.mapM (fun (part, i) =>
              part.write (m.render s depth fun way => m.recurs s outside v (i :: way)))
            = (liftM (parts.mapM (WrittenPart.write
                (s.writeFrom (s.offRecord (outside ++ [p]).toFinset) m))) :
              Except HostFault (List Text)) := by
          conv => rhs; rw [← List.zipIdx_map_fst 0 parts, List.mapM_map]
          refine mapM_lift fun (part, i) mem => part_lift fun w value => ?_
          have found := List.mem_zipIdx_iff_getElem?.mp mem
          have held := (container?_spec h).2 part (List.mem_of_getElem? found) w value
          have there : (fun way => m.recurs s outside v (i :: way))
              = m.recurs s (outside ++ [p]) w :=
            funext fun way => recurs_cons h found value outside way
          rw [there]
          exact ih (outside ++ [p]) (whole p w held) (by omega)
        rw [written]
        exact map_lift ..

/-- **Containers are left out where they are inside themselves**, and nowhere else. A walk that goes
no deeper than there are containers comes to an end, whatever is on record, and leaves the record
as it was; with nothing on record it writes the value. Leaving out what recurs and nothing else,
a rendering without a record comes to the same, and where nothing recurs, nothing has to be left
out. -/
theorem write_marks_cycles (m : Manner) (whole : s.IsWhole) (has : s.Has v) :
    (∀ seen depth, (s.offRecord seen).size < depth →
      m.walk s depth v seen = Recorded.leaving (s.writeFrom (s.offRecord seen) m v) seen)
    ∧ ∀ depth, s.lists.size + s.objects.size < depth →
      m.walk s depth v ∅ = Recorded.leaving (s.write m v) ∅
      ∧ m.render s depth (m.recurs s [] v) v = liftM (s.write m v)
      ∧ (m.IsAcyclic s v → m.render s depth (fun _ => false) v = liftM (s.write m v)) := by
  refine ⟨fun seen depth => walk_eq whole m depth seen has, fun depth deep => ?_⟩
  have all : (s.offRecord ∅).size < depth := by
    rw [offRecord_empty, Unvisited.all, Unvisited.size, List.length_range, List.length_range]
    exact deep
  have rendered := render_eq whole m depth [] has all
  rw [List.toFinset_nil, offRecord_empty, ← write_eq_writeFrom] at rendered
  refine ⟨?_, rendered, fun acyclic => ?_⟩
  · rw [walk_eq whole m depth ∅ has all, offRecord_empty, ← write_eq_writeFrom]
  · rw [← rendered, show m.recurs s [] v = fun _ => false from funext acyclic]

/-- An object and a list that are inside themselves, and a list that only is so twice in another. -/
def knot : Store :=
  { empty with
    lists := #[[.bool true, .list 0, .list 1, .list 1], [.null]]
    objects := #[[(.text "a", .list 0), (.text "b", .object 0)]] }

theorem knot_isWhole : knot.IsWhole := by
  have lists (ref : ListRef) (h : ref < 2) : knot.Has (.list ref) := by
    rintro p ⟨⟩
    exact h
  have objects : knot.Has (.object 0) := by
    rintro p ⟨⟩
    exact Nat.one_pos
  intro p v mem
  match p with
  | .list 0 =>
    have mem : v ∈ [Value.bool true, .list 0, .list 1, .list 1] := mem
    simp only [List.mem_cons, List.not_mem_nil, or_false] at mem
    rcases mem with rfl | rfl | rfl | rfl
    · exact nofun
    · exact lists 0 (by decide)
    · exact lists 1 (by decide)
    · exact lists 1 (by decide)
  | .list 1 =>
    obtain rfl := List.mem_singleton.mp (show v ∈ [Value.null] from mem)
    exact nofun
  | .object 0 =>
    have mem : v ∈ [Value.list 0, .object 0] := mem
    simp only [List.mem_cons, List.not_mem_nil, or_false] at mem
    rcases mem with rfl | rfl
    · exact lists 0 (by decide)
    · exact objects

/-- Of a knot. -/
theorem write_marks_cycles_of_knot :
    knot.IsWhole ∧ knot.Has (.object 0) ∧ knot.lists.size + knot.objects.size < 4
    ∧ Manner.display.walk knot 4 (.object 0) ∅ = Recorded.leaving (.ok (Text.ofString
      "\x7b a: [ true, [Circular], [ null ], [ null ] ], b: [Circular] \x7d")) ∅ := by
  have has : knot.Has (.object 0) := by
    rintro p ⟨⟩
    exact Nat.one_pos
  have deep : knot.lists.size + knot.objects.size < 4 := by decide
  obtain ⟨walked, -, -⟩ := (write_marks_cycles .display knot_isWhole has).2 4 deep
  have written : knot.write .display (.object 0) = .ok (Text.ofString
      "\x7b a: [ true, [Circular], [ null ], [ null ] ], b: [Circular] \x7d") := by
    decide +kernel
  exact ⟨knot_isWhole, has, deep, by rw [walked, written]⟩

end Store

end Scriptlet
