import Scriptlet.Property
import Scriptlet.Proofs.Regime

/-!
# Veils

A program cannot tell apart two stores that differ only where it never looks. It looks
at a binding only by a name, and the names that it uses stand in its text; and it looks at
an attribute of an object of the host only if that is within reach. A *veil* says what a
run is kept from: bindings of the object in which the outermost frame binds names, and
attributes of the host. *Concealing* a store takes them away and leaves everything else
where it is, so that a run and the same run in the concealed store hand out the same
places and can be compared word by word.

A veil stays in place only as long as nobody gets around it. Under it, a store is *sound* if no
value within reach names the object whose bindings are hidden, if all functions within
reach were written with names that may be used, and if what is nobody's business has been left
as it was at the start. That last part is also about what is *not* hidden, and about
functions: no run ever changes one but for its name.
-/

namespace Scriptlet

/-! ## The names in a tree -/

namespace Node

/-- The text of a leaf. -/
def leafText? : Node → Option Text
  | leaf _ text _ => some text
  | _ => none

/-- The names of parameters. -/
def parameters (n : Node) : List Text :=
  n.children.filterMap identifier?

end Node

/-- The names that a branch **uses or binds by itself**: as an identifier, as the name of a
variable or a function, or as those of parameters. -/
def Kind.ownNames (kind : Kind) (children : List Node) : List Text :=
  match kind with
  | .identifier => (children.head?.bind Node.leafText?).toList
  | .declarator => (children.head?.bind Node.identifier?).toList
  | .functionDeclaration =>
    (children.head?.bind Node.identifier?).toList ++ (children[1]?.map Node.parameters).getD []
  | .function =>
    (children[0]?.map Node.parameters).getD [] ++ (children[2]?.bind Node.identifier?).toList
  | .arrow => (children[0]?.map Node.parameters).getD []
  | _ => []

mutual

/-- The **names in a tree**. The names of properties are not among them. -/
def Node.names : Node → List Text
  | .branch kind _ children => kind.ownNames children ++ Node.namesOfAll children
  | _ => []

/-- The names in some trees. -/
def Node.namesOfAll : List Node → List Text
  | [] => []
  | n :: rest => n.names ++ Node.namesOfAll rest

end

theorem Node.mem_namesOfAll {name : Text} {nodes : List Node} :
    name ∈ Node.namesOfAll nodes ↔ ∃ n ∈ nodes, name ∈ n.names := by
  induction nodes with
  | nil => simp [Node.namesOfAll]
  | cons n rest ih => simp [Node.namesOfAll, ih]

/-! ## Veils -/

/-- A **veil**: what a run is kept from, and what there was at the start. -/
structure Veil where
  /-- The sites that were out of reach at the start. -/
  garbage : Set Site
  /-- The object in which bindings are hidden, if there is one. -/
  context : Option ObjectRef
  /-- The names that may be used. -/
  used : Text → Bool
  /-- The names of which the bindings are hidden. -/
  hidden : Text → Bool
  /-- The attributes of the host that are hidden. -/
  attributes : Text → Bool
  /-- The attributes of the host that are to be left alone. -/
  spared : Text → Bool
  /-- The store at the start. -/
  start : Store
  /-- Every call may have a receiver. -/
  usesThis : used "this" = true
  /-- What is hidden is not used. -/
  hidden_unused : ∀ name, used name = true → hidden name = false
  /-- Only attributes that are out of reach are hidden, -/
  attributes_closed : ∀ name, isOpenAttribute name = true → attributes name = false
  /-- and only such are left alone. -/
  spared_closed : ∀ name, isOpenAttribute name = true → spared name = false

namespace Veil

/-- The regime that values keep to: none of them names what was out of reach, or the object in
which bindings are hidden. -/
def regime (V : Veil) : Regime where
  clean := False
  shaped := False
  plain := False
  garbage := { p | p ∈ V.garbage ∨ ∃ ref, V.context = some ref ∧ p = .object ref }
  outside := ∅
  logged := []

/-- Whether a value **fits behind a veil**. -/
abbrev Fits (V : Veil) (v : Value) : Prop := v.Fits V.regime

/-- Whether the binding under a key is hidden. -/
def hides (V : Veil) (key : Key) : Bool :=
  key.text?.any V.hidden

/-- Whether the binding under a key is one that no name is used for. -/
def leavesAlone (V : Veil) (key : Key) : Bool :=
  !key.text?.any V.used

/-- The entries of an object without the hidden bindings. -/
def veiledEntries (V : Veil) (ref : ObjectRef) (entries : Entries) : Entries :=
  if V.context = some ref then entries.filter fun e => !V.hides e.1 else entries

/-- Attributes without the hidden ones. -/
def veiledAttributes (V : Veil) (attributes : List (Text × Value)) : List (Text × Value) :=
  attributes.filter fun a => !V.attributes a.1

/-- The store **without what is hidden**. -/
def conceal (V : Veil) (s : Store) : Store :=
  { s with
    objects := s.objects.mapIdx V.veiledEntries
    hosts := s.hosts.map fun cell =>
      { cell with attributes := V.veiledAttributes cell.attributes } }

/-- Whether all names in a tree may be used. -/
def Speaks (V : Veil) (n : Node) : Prop :=
  ∀ name ∈ n.names, V.used name = true

/-- A function **fits**: its frame is within reach, and it was written with names that may be
used. -/
structure FitsFunction (V : Veil) (cell : FunctionCell) : Prop where
  scope : .frame cell.scope ∉ V.garbage
  params : ∀ name ∈ cell.params, V.used name = true
  body : V.Speaks cell.body

/-- A frame **fits**: its bindings and the frame around it are within reach. -/
structure FitsFrame (V : Veil) (cell : FrameCell) : Prop where
  bindings : .object cell.bindings ∉ V.garbage
  parent : ∀ p, cell.parent = some p → .frame p ∉ V.garbage

/-- A kind of objects of the host **fits**: the hidden attributes play no part in how such an
object is spelled and shown. -/
structure FitsKind (V : Veil) (kind : HostKind) : Prop where
  text : ∀ ref attributes, kind.text ref (V.veiledAttributes attributes) = kind.text ref attributes
  description : ∀ ref attributes,
    kind.description ref (V.veiledAttributes attributes) = kind.description ref attributes

/-- What **has been left alone** since the start: all functions but for their names, where
frames bind names, the bindings that no name is used for, and the attributes that are spared. No
run has been begun. -/
structure LeftAlone (V : Veil) (s : Store) : Prop where
  functions : ∀ (f : FunctionRef) (cell : FunctionCell), V.start.functions[f]? = some cell →
    ∃ name, s.functions[f]? = some { cell with name }
  frames : ∀ (f : FrameRef) (cell : FrameCell), V.start.frames[f]? = some cell →
    ∃ cell', s.frames[f]? = some cell' ∧ cell'.bindings = cell.bindings
  run : s.run = V.start.run
  bindings : ∀ ref, V.context = some ref →
    (s.entries ref).filter (fun e => V.leavesAlone e.1) =
      (V.start.entries ref).filter fun e => V.leavesAlone e.1
  attributes : ∀ ref, (s.attributes ref).filter (fun a => V.spared a.1) =
    (V.start.attributes ref).filter fun a => V.spared a.1

/-- A store is **sound** under a veil. -/
structure Sound (V : Veil) (s : Store) : Prop where
  /-- What values must not name is never handed out again. -/
  taken : ∀ p ∈ V.regime.garbage, p.IsIn s
  /-- What was there at the start is there. -/
  there : ∀ p : Site, p.IsIn V.start → p.IsIn s
  /-- What a site holds fits. -/
  held : ∀ p, p ∉ V.garbage → ∀ v ∈ s.held p, V.Fits v
  /-- Functions fit. -/
  functions : ∀ f cell, .function f ∉ V.garbage → s.functions[f]? = some cell → V.FitsFunction cell
  /-- Frames fit. -/
  frames : ∀ f cell, .frame f ∉ V.garbage → s.frames[f]? = some cell → V.FitsFrame cell
  /-- The kinds of objects of the host fit. -/
  kinds : ∀ kind ∈ s.hostKinds, V.FitsKind kind
  /-- What is nobody's business is as at the start. -/
  untouched : V.LeftAlone s

variable {V : Veil} {s : Store}

/-! ## Values and names -/

theorem mem_garbage {p : Site} :
    p ∈ V.regime.garbage ↔ p ∈ V.garbage ∨ ∃ ref, V.context = some ref ∧ p = .object ref :=
  .rfl

theorem not_mem_garbage {p : Site} (h : p ∉ V.regime.garbage) : p ∉ V.garbage :=
  fun hp => h (.inl hp)

/-- An object that a value names is not the one in which bindings are hidden. -/
theorem context_ne {ref : ObjectRef} (h : .object ref ∉ V.regime.garbage) :
    V.context ≠ some ref :=
  fun same => h (.inr ⟨ref, same, rfl⟩)

theorem fits_list {ref : ListRef} : V.Fits (.list ref) ↔ .list ref ∉ V.garbage :=
  (Value.fits_list ref).trans (not_congr (by simp [mem_garbage]))

theorem fits_function {ref : FunctionRef} :
    V.Fits (.function ref) ↔ .function ref ∉ V.garbage :=
  (Value.fits_function ref).trans (not_congr (by simp [mem_garbage]))

theorem fits_host {ref : HostRef} : V.Fits (.host ref) ↔ .host ref ∉ V.garbage :=
  (Value.fits_host ref).trans ((and_iff_right id).trans (not_congr (by simp [mem_garbage])))

theorem fits_hostMethod {i : Identity} {ref : HostRef} {m : Native} :
    V.Fits (.hostMethod i ref m) ↔ .host ref ∉ V.garbage :=
  (Value.fits_hostMethod i ref m).trans
    ((and_iff_right id).trans (not_congr (by simp [mem_garbage])))

theorem fits_object {ref : ObjectRef} :
    V.Fits (.object ref) ↔ .object ref ∉ V.regime.garbage := by
  simp

@[simp] theorem fits_failure : V.Fits .failure :=
  Value.fits_failure.mpr id

theorem fits_tuple {i : Identity} {items : List Value} :
    V.Fits (.tuple i items) ↔ ∀ v ∈ items, V.Fits v :=
  (Value.fits_tuple i items).trans (and_iff_right id)

/-- The part of a tree speaks with names that may be used. -/
theorem Speaks.child {kind : Kind} {position : Option Position} {children : List Node}
    (h : V.Speaks (.branch kind position children)) : ∀ n ∈ children, V.Speaks n :=
  fun n hn name hname => h name (by
    rw [Node.names, List.mem_append]
    exact .inr (Node.mem_namesOfAll.mpr ⟨n, hn, hname⟩))

/-- The names that a branch uses by itself may be used. -/
theorem Speaks.own {kind : Kind} {position : Option Position} {children : List Node}
    (h : V.Speaks (.branch kind position children)) :
    ∀ name ∈ kind.ownNames children, V.used name = true :=
  fun name hname => h name (by rw [Node.names, List.mem_append]; exact .inl hname)

/-- So do the parts of any node. -/
theorem Speaks.children {n : Node} (h : V.Speaks n) : ∀ m ∈ n.children, V.Speaks m := by
  cases n with
  | branch kind position children => exact h.child
  | leaf | stray => simp [Node.children]

/-! ## Reading a concealed store -/

@[simp] theorem lists_conceal : (V.conceal s).lists = s.lists := rfl

@[simp] theorem functions_conceal : (V.conceal s).functions = s.functions := rfl

@[simp] theorem frames_conceal : (V.conceal s).frames = s.frames := rfl

@[simp] theorem items_conceal (ref : ListRef) : (V.conceal s).items ref = s.items ref := rfl

@[simp] theorem objects_size_conceal : (V.conceal s).objects.size = s.objects.size :=
  Array.size_mapIdx

@[simp] theorem hosts_size_conceal : (V.conceal s).hosts.size = s.hosts.size :=
  Array.size_map

theorem entries_conceal (ref : ObjectRef) :
    (V.conceal s).entries ref = V.veiledEntries ref (s.entries ref) := by
  simp only [Store.entries, conceal, Array.getD_eq_getD_getElem?, Array.getElem?_mapIdx]
  cases s.objects[ref]? with
  | none => simp [veiledEntries]
  | some entries => rfl

/-- An object that a value names shows all of its entries. -/
theorem entries_conceal_of_ne {ref : ObjectRef} (h : V.context ≠ some ref) :
    (V.conceal s).entries ref = s.entries ref := by
  rw [entries_conceal, veiledEntries, if_neg h]

theorem attributes_conceal (ref : HostRef) :
    (V.conceal s).attributes ref = V.veiledAttributes (s.attributes ref) := by
  simp only [Store.attributes, conceal, Array.getElem?_map]
  cases s.hosts[ref]? with
  | none => simp [veiledAttributes]
  | some cell => rfl

@[simp] theorem hostKinds_conceal : (V.conceal s).hostKinds = s.hostKinds := by
  rw [Store.hostKinds, conceal, Array.map_map]
  rfl

/-- An object of the host is shown as before if its hidden attributes play no part in that. -/
theorem hostShown_conceal {shown : HostKind → HostRef → List (Text × Value) → Text} {ref : HostRef}
    (h : ∀ kind ∈ s.hostKinds, ∀ attributes,
      shown kind ref (V.veiledAttributes attributes) = shown kind ref attributes) :
    (V.conceal s).hostShown shown ref = s.hostShown shown ref := by
  simp only [Store.hostShown, conceal, Array.getElem?_map]
  cases found : s.hosts[ref]? with
  | none => rfl
  | some cell =>
    have isIn : cell.kind ∈ s.hostKinds := Array.mem_map_of_mem (Array.mem_of_getElem? found)
    exact h cell.kind isIn cell.attributes

/-- A name that may be used is not hidden. -/
theorem hides_bindingKey {name : Text} (h : V.used name = true) :
    V.hides (bindingKey name) = false :=
  V.hidden_unused name h

/-- Only a text is the same key as a text. -/
theorem same_bindingKey {key : Key} {name : Text} :
    key.same (bindingKey name) = true ↔ key = bindingKey name := by
  cases key <;> simp [Key.same, bindingKey, Key.number?]

/-! ## Filtered entries -/

section Filtered

variable {p : Key → Bool} {entries : Entries} {name : Text}

/-- What is bound to a name is found among the entries that are kept, if those of the name
are. -/
theorem get?_filter (h : p (bindingKey name) = true) :
    Entries.get? (entries.filter fun e => p e.1) (bindingKey name) =
      entries.get? (bindingKey name) := by
  induction entries with
  | nil => rfl
  | cons e rest ih =>
    rw [Entries.get?_cons, List.filter_cons]
    by_cases same : e.1.same (bindingKey name) = true
    · rw [if_pos (same_bindingKey.mp same ▸ h), Entries.get?_cons, if_pos same, if_pos same]
    · rw [if_neg same]
      split
      · rw [Entries.get?_cons, if_neg same, ih]
      · exact ih

theorem has_filter (h : p (bindingKey name) = true) :
    Entries.has (entries.filter fun e => p e.1) (bindingKey name) =
      entries.has (bindingKey name) := by
  rw [Entries.has, Entries.has, List.any_filter]
  refine List.any_congr rfl fun e => ?_
  by_cases same : e.1.same (bindingKey name) = true
  · rw [same_bindingKey.mp same, h, Bool.true_and]
  · simp only [Bool.not_eq_true] at same
    rw [same, Bool.and_false]

/-- Binding a name that is kept binds it among what is kept. -/
theorem filter_put (h : p (bindingKey name) = true) (v : Value) :
    (entries.put (bindingKey name) v).filter (fun e => p e.1) =
      Entries.put (entries.filter fun e => p e.1) (bindingKey name) v := by
  induction entries with
  | nil => simp [Entries.put, h]
  | cons e rest ih =>
    rw [Entries.put, List.filter_cons]
    by_cases same : e.1.same (bindingKey name) = true
    · have kept : p e.1 = true := same_bindingKey.mp same ▸ h
      rw [if_pos same, if_pos kept, List.filter_cons, if_pos kept, Entries.put, if_pos same]
    · rw [if_neg same, List.filter_cons]
      split
      · rw [Entries.put, if_neg same, ih]
      · exact ih

/-- Binding a name that is left out leaves the others as they are. -/
theorem filter_put_of_not (h : p (bindingKey name) = false) (v : Value) :
    (entries.put (bindingKey name) v).filter (fun e => p e.1) = entries.filter fun e => p e.1 := by
  induction entries with
  | nil => simp [Entries.put, h]
  | cons e rest ih =>
    rw [Entries.put]
    by_cases same : e.1.same (bindingKey name) = true
    · have out : p e.1 = false := same_bindingKey.mp same ▸ h
      rw [if_pos same, List.filter_cons, List.filter_cons]
      simp only [out, Bool.false_eq_true, if_false]
    · rw [if_neg same, List.filter_cons, List.filter_cons, ih]

end Filtered

section FilteredAttributes

variable {p : Text → Bool} {attributes : List (Text × Value)} {name : Text}

theorem lookup_filter (h : p name = true) :
    (attributes.filter fun a => p a.1).lookup name = attributes.lookup name := by
  induction attributes with
  | nil => rfl
  | cons a rest ih =>
    obtain ⟨other, w⟩ := a
    rw [List.filter_cons, List.lookup_cons]
    by_cases same : name = other
    · subst same
      simp [h]
    · have differs : (name == other) = false := by simpa using same
      rw [differs]
      split
      · simp only [List.lookup_cons, differs, ih]
      · exact ih

theorem filter_putAttribute (h : p name = true) (v : Value) :
    (putAttribute attributes name v).filter (fun a => p a.1) =
      putAttribute (attributes.filter fun a => p a.1) name v := by
  induction attributes with
  | nil => simp [putAttribute, h]
  | cons a rest ih =>
    rw [putAttribute, List.filter_cons]
    by_cases same : (a.1 == name) = true
    · have kept : p a.1 = true := beq_iff_eq.mp same ▸ h
      rw [if_pos same, if_pos kept, List.filter_cons, if_pos h, putAttribute, if_pos same]
    · rw [if_neg same, List.filter_cons]
      split
      · rw [putAttribute, if_neg same, ih]
      · exact ih

theorem filter_putAttribute_of_not (h : p name = false) (v : Value) :
    (putAttribute attributes name v).filter (fun a => p a.1) =
      attributes.filter fun a => p a.1 := by
  induction attributes with
  | nil => simp [putAttribute, h]
  | cons a rest ih =>
    rw [putAttribute]
    by_cases same : (a.1 == name) = true
    · have out : p a.1 = false := beq_iff_eq.mp same ▸ h
      rw [if_pos same, List.filter_cons, List.filter_cons]
      simp only [h, out, Bool.false_eq_true, if_false]
    · rw [if_neg same, List.filter_cons, List.filter_cons, ih]

end FilteredAttributes

/-! ## Changing a concealed store -/

theorem conceal_setEntries (ref : ObjectRef) (entries : Entries) :
    V.conceal (s.setEntries ref entries) =
      (V.conceal s).setEntries ref (V.veiledEntries ref entries) := by
  simp only [conceal, Store.setEntries, Array.mapIdx_setIfInBounds]

theorem conceal_newObject (entries : Entries) (h : V.context ≠ some s.objects.size) :
    V.conceal (s.newObject entries).2 = ((V.conceal s).newObject entries).2 := by
  simp only [conceal, Store.newObject, Array.mapIdx_push]
  rw [show V.veiledEntries s.objects.size entries = entries from if_neg h]

theorem conceal_setAttributes (ref : HostRef) (attributes : List (Text × Value)) :
    V.conceal (s.setAttributes ref attributes) =
      (V.conceal s).setAttributes ref (V.veiledAttributes attributes) := by
  simp only [conceal, Store.setAttributes, Store.mk.injEq, true_and, and_true]
  refine Array.ext_getElem? fun i => ?_
  simp only [Array.getElem?_map, Array.getElem?_modify]
  split
  · cases s.hosts[i]? <;> rfl
  · rfl

/-- Where no attribute is hidden, none is taken away. -/
theorem veiledAttributes_eq_id (attributes : ∀ name, V.attributes name = false) :
    V.veiledAttributes = id :=
  funext fun _ => List.filter_eq_self.mpr fun a _ => by simp [attributes]

/-- There all kinds of objects of the host fit. -/
theorem fitsKind (attributes : ∀ name, V.attributes name = false) (kind : HostKind) :
    V.FitsKind kind where
  text ref _ := congrArg (kind.text ref) (congrFun (veiledAttributes_eq_id attributes) _)
  description ref _ :=
    congrArg (kind.description ref) (congrFun (veiledAttributes_eq_id attributes) _)

/-- Where only bindings are hidden, concealing is a change of one object. -/
theorem conceal_eq_setEntries {ref : ObjectRef} (context : V.context = some ref)
    (attributes : ∀ name, V.attributes name = false) (s : Store) :
    V.conceal s = s.setEntries ref ((s.entries ref).filter fun e => !V.hides e.1) := by
  simp only [conceal, Store.setEntries, veiledAttributes_eq_id attributes, id, Store.mk.injEq,
    true_and, and_true]
  refine ⟨Array.ext_getElem? fun i => ?_, Array.map_id' _⟩
  rw [Array.getElem?_mapIdx, Array.getElem?_setIfInBounds]
  by_cases here : ref = i
  · subst here
    by_cases isIn : ref < s.objects.size <;> simp [isIn, veiledEntries, context, Store.entries]
  · have other (entries : Entries) : V.veiledEntries i entries = entries :=
      if_neg fun same => here (Option.some.inj (context.symm.trans same))
    cases s.objects[i]? <;> simp [here, other]

/-- Where nothing is hidden, nothing is taken away. -/
theorem conceal_eq_self (bindings : ∀ name, V.hidden name = false)
    (attributes : ∀ name, V.attributes name = false) (s : Store) : V.conceal s = s := by
  have entries : V.veiledEntries = fun _ entries => entries := by
    funext ref entries
    unfold veiledEntries hides
    split
    · exact List.filter_eq_self.mpr fun e _ => by
        cases e.1.text? <;> simp [bindings]
    · rfl
  simp only [conceal, entries, veiledAttributes_eq_id attributes, id]
  congr
  · exact Array.mapIdx_eq_iff.mpr fun i => by simp
  · exact Array.map_id' _

end Veil

end Scriptlet
