import Scriptlet.Proofs.Contract.Property
import Scriptlet.Proofs.Veil

/-!
# Stores that stay sound under a veil

Each change that a run makes to a store keeps it sound, and commutes with concealing it: the
changed store without what is hidden is the concealed store with the same change. What is
written is a list, an object that some value names, an attribute within reach or a name that may be
used, and none of these is hidden.
-/

namespace Scriptlet

/-- To write attributes changes no kind. -/
theorem Store.hostKinds_setAttributes {s : Store} (ref : HostRef)
    (attributes : List (Text × Value)) :
    (s.setAttributes ref attributes).hostKinds = s.hostKinds := by
  refine Array.ext_getElem? fun i => ?_
  simp only [hostKinds, setAttributes, Array.getElem?_map, Array.getElem?_modify]
  split
  · cases s.hosts[i]? <;> rfl
  · rfl

namespace Veil

variable {V : Veil} {s : Store}

/-! ## What has been left alone -/

/-- At the start all is as at the start. -/
theorem leftAlone_start (V : Veil) : V.LeftAlone V.start :=
  ⟨fun _ cell found => ⟨cell.name, found⟩, fun _ cell found => ⟨cell, found, rfl⟩, rfl,
    fun _ _ => rfl, fun _ => rfl⟩

/-- A change leaves alone what it should if it does so to functions, frames, bindings and
attributes. -/
theorem LeftAlone.change (h : V.LeftAlone s) {s' : Store}
    (functions : ∀ (f : FunctionRef) (cell : FunctionCell), s.functions[f]? = some cell →
      ∃ name, s'.functions[f]? = some { cell with name })
    (frames : ∀ (f : FrameRef) (cell : FrameCell), s.frames[f]? = some cell →
      ∃ cell', s'.frames[f]? = some cell' ∧ cell'.bindings = cell.bindings)
    (run : s'.run = s.run)
    (bindings : ∀ ref, V.context = some ref →
      (s'.entries ref).filter (fun e => V.leavesAlone e.1) =
        (s.entries ref).filter fun e => V.leavesAlone e.1)
    (attributes : ∀ ref, (s'.attributes ref).filter (fun a => V.spared a.1) =
      (s.attributes ref).filter fun a => V.spared a.1) : V.LeftAlone s' where
  functions f cell found := by
    obtain ⟨name, kept⟩ := h.functions f cell found
    obtain ⟨name', kept'⟩ := functions f _ kept
    exact ⟨name', kept'⟩
  frames f cell found := by
    obtain ⟨cell', kept, same⟩ := h.frames f cell found
    obtain ⟨cell'', kept', same'⟩ := frames f cell' kept
    exact ⟨cell'', kept', same'.trans same⟩
  run := run.trans h.run
  bindings ref hc := (bindings ref hc).trans (h.bindings ref hc)
  attributes ref := (attributes ref).trans (h.attributes ref)

/-- So does one that has nothing to do with functions and frames. -/
theorem LeftAlone.changeHeld (h : V.LeftAlone s) {s' : Store}
    (functions : s'.functions = s.functions) (frames : s'.frames = s.frames) (run : s'.run = s.run)
    (bindings : ∀ ref, V.context = some ref →
      (s'.entries ref).filter (fun e => V.leavesAlone e.1) =
        (s.entries ref).filter fun e => V.leavesAlone e.1)
    (attributes : ∀ ref, (s'.attributes ref).filter (fun a => V.spared a.1) =
      (s.attributes ref).filter fun a => V.spared a.1) : V.LeftAlone s' :=
  h.change (fun f cell found => ⟨cell.name, by rw [functions, found]⟩)
    (fun f cell found => ⟨cell, by rw [frames, found], rfl⟩) run bindings attributes

/-- A change of lists, identities or the log is none of what is to be left alone. -/
theorem LeftAlone.other (h : V.LeftAlone s) {s' : Store} (functions : s'.functions = s.functions)
    (frames : s'.frames = s.frames) (run : s'.run = s.run) (objects : s'.objects = s.objects)
    (hosts : s'.hosts = s.hosts) : V.LeftAlone s' :=
  h.changeHeld functions frames run (fun ref _ => by simp only [Store.entries, objects])
    fun ref => by simp only [Store.attributes, hosts]

/-- A change of frames has to leave alone where they bind names. -/
theorem LeftAlone.changeFrames (h : V.LeftAlone s) {s' : Store}
    (functions : s'.functions = s.functions)
    (frames : ∀ (f : FrameRef) (cell : FrameCell), s.frames[f]? = some cell →
      ∃ cell', s'.frames[f]? = some cell' ∧ cell'.bindings = cell.bindings)
    (run : s'.run = s.run) (objects : s'.objects = s.objects) (hosts : s'.hosts = s.hosts) :
    V.LeftAlone s' :=
  h.change (fun f cell found => ⟨cell.name, by rw [functions, found]⟩) frames run
    (fun ref _ => by simp only [Store.entries, objects])
    fun ref => by simp only [Store.attributes, hosts]

/-- A change of functions has to leave alone all but their names. -/
theorem LeftAlone.changeFunctions (h : V.LeftAlone s) {s' : Store}
    (functions : ∀ (f : FunctionRef) (cell : FunctionCell), s.functions[f]? = some cell →
      ∃ name, s'.functions[f]? = some { cell with name })
    (frames : s'.frames = s.frames) (run : s'.run = s.run) (objects : s'.objects = s.objects)
    (hosts : s'.hosts = s.hosts) : V.LeftAlone s' :=
  h.change functions (fun f cell found => ⟨cell, by rw [frames, found], rfl⟩) run
    (fun ref _ => by simp only [Store.entries, objects])
    fun ref => by simp only [Store.attributes, hosts]

/-! ## What a sound store holds -/

namespace Sound

variable (hs : V.Sound s)
include hs

/-- A site that has not been handed out can be named by values. -/
theorem fresh {p : Site} (h : ¬ p.IsIn s) : p ∉ V.regime.garbage :=
  fun hp => h (hs.taken p hp)

theorem context_lt {ref : ObjectRef} (h : V.context = some ref) : ref < s.objects.size :=
  hs.taken (.object ref) (.inr ⟨ref, h, rfl⟩)

theorem items {ref : ListRef} (h : V.Fits (.list ref)) : ∀ v ∈ s.items ref, V.Fits v :=
  hs.held (.list ref) (fits_list.mp h)

theorem entries {ref : ObjectRef} (h : .object ref ∉ V.garbage) :
    ∀ e ∈ s.entries ref, V.Fits e.2 :=
  fun e he => hs.held (.object ref) h e.2 (List.mem_map_of_mem he)

theorem attributes {ref : HostRef} (h : .host ref ∉ V.garbage) :
    ∀ a ∈ s.attributes ref, V.Fits a.2 :=
  fun a ha => hs.held (.host ref) h a.2 (List.mem_map_of_mem ha)

/-! ## Changes that keep a store sound -/

/-- **A change keeps a store sound** if no site is taken back, what sites hold afterwards was
there or fits, functions and frames were there or fit, and nobody's business is left alone. -/
theorem change {s' : Store} (taken : ∀ p : Site, p.IsIn s → p.IsIn s')
    (held : ∀ p v, v ∈ s'.held p → V.Fits v ∨ v ∈ s.held p)
    (functions : ∀ (f : FunctionRef) cell, s'.functions[f]? = some cell →
      V.FitsFunction cell ∨ s.functions[f]? = some cell)
    (frames : ∀ (f : FrameRef) cell, s'.frames[f]? = some cell →
      V.FitsFrame cell ∨ s.frames[f]? = some cell)
    (kinds : s'.hostKinds = s.hostKinds) (untouched : V.LeftAlone s') : V.Sound s' where
  taken p hp := taken p (hs.taken p hp)
  there p hp := taken p (hs.there p hp)
  held p hp v hv := (held p v hv).elim id (hs.held p hp v)
  functions f cell hf hc := (functions f cell hc).elim id (hs.functions f cell hf)
  frames f cell hf hc := (frames f cell hc).elim id (hs.frames f cell hf)
  kinds := kinds ▸ hs.kinds
  untouched := untouched

/-- A change of what sites hold, and of nothing else. -/
theorem changeHeld {s' : Store} (taken : ∀ p : Site, p.IsIn s → p.IsIn s')
    (held : ∀ p v, v ∈ s'.held p → V.Fits v ∨ v ∈ s.held p)
    (functions : s'.functions = s.functions) (frames : s'.frames = s.frames)
    (kinds : s'.hostKinds = s.hostKinds) (untouched : V.LeftAlone s') : V.Sound s' :=
  hs.change taken held (fun _ _ h => .inr (functions ▸ h)) (fun _ _ h => .inr (frames ▸ h))
    kinds untouched

theorem setItems {ref : ListRef} {items : List Value} (h : ∀ v ∈ items, V.Fits v) :
    V.Sound (s.setItems ref items) := by
  refine hs.changeHeld (fun p hp => ?_)
    (fun p v hv => (Store.mem_held_setItems hv).imp (h v) id) rfl rfl rfl
    (hs.untouched.other rfl rfl rfl rfl rfl)
  cases p <;> simpa [Site.IsIn, Store.setItems] using hp

theorem newList {items : List Value} (h : ∀ v ∈ items, V.Fits v) :
    V.Sound (s.newList items).2 := by
  refine hs.changeHeld (fun p hp => ?_)
    (fun p v hv => (Store.mem_held_newList hv).imp (h v) id) rfl rfl rfl
    (hs.untouched.other rfl rfl rfl rfl rfl)
  cases p <;> simp only [Site.IsIn, Store.newList, Array.size_push] at hp ⊢ <;>
    first | exact hp | exact Nat.lt_succ_of_lt hp

theorem newIdentity : V.Sound s.newIdentity.2 :=
  hs.changeHeld (fun p hp => by cases p <;> exact hp)
    (fun p _ hv => .inr (by cases p <;> exact hv)) rfl rfl rfl
    (hs.untouched.other rfl rfl rfl rfl rfl)

theorem note (r : LogRecord) : V.Sound (s.note r) :=
  hs.changeHeld (fun p hp => by cases p <;> exact hp)
    (fun p _ hv => .inr (by cases p <;> exact hv)) rfl rfl rfl
    (hs.untouched.other rfl rfl rfl rfl rfl)

/-- A new object is not the one in which bindings are hidden. -/
theorem newObject {entries : Entries} (h : ∀ e ∈ entries, V.Fits e.2) :
    V.Sound (s.newObject entries).2 := by
  refine hs.changeHeld (fun p hp => ?_) (fun p v hv => ?_) rfl rfl rfl
    (hs.untouched.changeHeld rfl rfl rfl (fun ref hc => ?_) fun _ => rfl)
  · cases p <;> simp only [Site.IsIn, Store.newObject, Array.size_push] at hp ⊢ <;>
      first | exact hp | exact Nat.lt_succ_of_lt hp
  · refine (Store.mem_held_newObject hv).imp (fun hm => ?_) id
    obtain ⟨e, he, rfl⟩ := List.mem_map.mp hm
    exact h e he
  · have other : ref ≠ s.objects.size := Nat.ne_of_lt (hs.context_lt hc)
    simp only [Store.entries, Store.newObject, Array.getD_eq_getD_getElem?, Array.getElem?_push,
      if_neg other]

/-- Entries of an object may be written if what is left alone in it stays as it is. -/
theorem setEntries {ref : ObjectRef} {entries : Entries} (h : ∀ e ∈ entries, V.Fits e.2)
    (same : V.context = some ref → entries.filter (fun e => V.leavesAlone e.1) =
      (s.entries ref).filter fun e => V.leavesAlone e.1) :
    V.Sound (s.setEntries ref entries) := by
  refine hs.changeHeld (fun p hp => ?_) (fun p v hv => ?_) rfl rfl rfl
    (hs.untouched.changeHeld rfl rfl rfl (fun other hc => ?_) fun _ => rfl)
  · cases p <;> simpa [Site.IsIn, Store.setEntries] using hp
  · refine (Store.mem_held_setEntries hv).imp (fun hm => ?_) id
    obtain ⟨e, he, rfl⟩ := List.mem_map.mp hm
    exact h e he
  · by_cases here : ref = other
    · subst here
      rw [← same hc]
      simp [Store.entries, Store.setEntries, Array.getD_eq_getD_getElem?, hs.context_lt hc]
    · simp [Store.entries, Store.setEntries, Array.getD_eq_getD_getElem?, here]

/-- Attributes may be written if those that are spared stay as they are. -/
theorem setAttributes {ref : HostRef} {attributes : List (Text × Value)}
    (h : ∀ a ∈ attributes, V.Fits a.2)
    (same : attributes.filter (fun a => V.spared a.1) =
      (s.attributes ref).filter fun a => V.spared a.1) :
    V.Sound (s.setAttributes ref attributes) := by
  refine hs.changeHeld (fun p hp => ?_) (fun p v hv => ?_) rfl rfl
    (Store.hostKinds_setAttributes ref attributes)
    (hs.untouched.changeHeld rfl rfl rfl (fun _ _ => rfl) fun other => ?_)
  · cases p <;> simpa [Site.IsIn, Store.setAttributes] using hp
  · refine (Store.mem_held_setAttributes hv).imp (fun hm => ?_) id
    obtain ⟨a, ha, rfl⟩ := List.mem_map.mp hm
    exact h a ha
  · simp only [Store.attributes, Store.setAttributes, Array.getElem?_modify] at same ⊢
    split
    · rename_i here
      subst here
      cases found : s.hosts[ref]? with
      | none => rfl
      | some cell => simpa [found] using same
    · rfl

theorem newFunction {cell : FunctionCell} (h : V.FitsFunction cell) :
    V.Sound (s.newFunction cell).2 := by
  refine hs.change (fun p hp => ?_) (fun p v hv => .inr (by cases p <;> exact hv))
    (fun f found hf => ?_) (fun _ _ hf => .inr hf) rfl
    (hs.untouched.changeFunctions (fun f found hf => ⟨found.name, ?_⟩) rfl rfl rfl rfl)
  · cases p <;> simp only [Site.IsIn, Store.newFunction, Array.size_push] at hp ⊢ <;>
      first | exact hp | exact Nat.lt_succ_of_lt hp
  · rcases Store.functions_newFunction hf with ⟨-, rfl⟩ | hf
    · exact .inl h
    · exact .inr hf
  · have old : f < s.functions.size := (Array.getElem?_eq_some_iff.mp hf).1
    simp only [Store.newFunction, Array.getElem?_push, Nat.ne_of_lt old, if_false, hf]

/-- A function may be given a name. -/
theorem nameFunction {ref : FunctionRef} {cell : FunctionCell}
    (found : s.functions[ref]? = some cell) (h : V.FitsFunction cell) (name : Option Text) :
    V.Sound (s.setFunction ref { cell with name }) := by
  refine hs.change (fun p hp => ?_) (fun p v hv => .inr (by cases p <;> exact hv))
    (fun f other hf => ?_) (fun _ _ hf => .inr hf) rfl
    (hs.untouched.changeFunctions (fun f other hf => ?_) rfl rfl rfl rfl)
  · cases p <;> simpa [Site.IsIn, Store.setFunction] using hp
  · rcases Store.functions_setFunction hf with ⟨-, rfl⟩ | hf
    · exact .inl ⟨h.scope, h.params, h.body⟩
    · exact .inr hf
  · have there : f < s.functions.size := (Array.getElem?_eq_some_iff.mp hf).1
    simp only [Store.setFunction, Array.getElem?_setIfInBounds]
    by_cases same : ref = f
    · subst same
      obtain rfl : cell = other := Option.some.inj (found.symm.trans hf)
      exact ⟨name, by simp [there]⟩
    · exact ⟨other.name, by simp [same, hf]⟩

theorem newFrame {cell : FrameCell} (h : V.FitsFrame cell) : V.Sound (s.newFrame cell).2 := by
  refine hs.change (fun p hp => ?_) (fun p v hv => .inr (by cases p <;> exact hv))
    (fun _ _ hf => .inr hf) (fun f found hf => ?_) rfl
    (hs.untouched.changeFrames rfl (fun f found hf => ⟨found, ?_, rfl⟩) rfl rfl rfl)
  · cases p <;> simp only [Site.IsIn, Store.newFrame, Array.size_push] at hp ⊢ <;>
      first | exact hp | exact Nat.lt_succ_of_lt hp
  · rcases Store.frames_newFrame hf with ⟨-, rfl⟩ | hf
    · exact .inl h
    · exact .inr hf
  · have old : f < s.frames.size := (Array.getElem?_eq_some_iff.mp hf).1
    simp only [Store.newFrame, Array.getElem?_push, Nat.ne_of_lt old, if_false, hf]

/-- A frame may be written that goes on binding names in the same object. -/
theorem setFrame {ref : FrameRef} {cell : FrameCell} (h : V.FitsFrame cell)
    (same : ∀ old, s.frames[ref]? = some old → cell.bindings = old.bindings) :
    V.Sound (s.setFrame ref cell) := by
  refine hs.change (fun p hp => ?_) (fun p v hv => .inr (by cases p <;> exact hv))
    (fun _ _ hf => .inr hf) (fun f found hf => ?_) rfl
    (hs.untouched.changeFrames rfl (fun f found hf => ?_) rfl rfl rfl)
  · cases p <;> simpa [Site.IsIn, Store.setFrame] using hp
  · rcases Store.frames_setFrame hf with ⟨-, rfl⟩ | hf
    · exact .inl h
    · exact .inr hf
  · have there : f < s.frames.size := (Array.getElem?_eq_some_iff.mp hf).1
    simp only [Store.setFrame, Array.getElem?_setIfInBounds]
    by_cases here : ref = f
    · subst here
      exact ⟨cell, by simp [there], same found hf⟩
    · exact ⟨found, by simp [here, hf], rfl⟩

end Sound

/-! ## Names -/

/-- Looking outward goes the same way, as long as what is looked for is in the same frames. -/
theorem firstFrame?_conceal (p : FrameRef → Bool) (frame : FrameRef) :
    (V.conceal s).firstFrame? p frame = s.firstFrame? p frame := by
  fun_induction Store.firstFrame? s p frame with
  | case1 frame here => rw [Store.firstFrame?, if_pos here]
  | case2 frame here noParent =>
    rw [Store.firstFrame?, if_neg here]
    have same : (V.conceal s).parent? frame = none := noParent
    split
    · rfl
    · rename_i found
      rw [same] at found
      cases found
  | case3 frame here parent hparent ih =>
    rw [Store.firstFrame?, if_neg here]
    have same : (V.conceal s).parent? frame = some parent := hparent
    split
    · rename_i none
      rw [same] at none
      cases none
    · rename_i other found
      obtain rfl : parent = other := Option.some.inj (same.symm.trans found)
      exact ih

theorem outermost_conceal (frame : FrameRef) :
    (V.conceal s).outermost frame = s.outermost frame := by
  fun_induction Store.outermost s frame with
  | case1 frame noParent =>
    have same : (V.conceal s).parent? frame = none := noParent
    rw [Store.outermost]
    split
    · rfl
    · rename_i found
      rw [same] at found
      cases found
  | case2 frame parent hparent ih =>
    have same : (V.conceal s).parent? frame = some parent := hparent
    rw [Store.outermost]
    split
    · rename_i none
      rw [same] at none
      cases none
    · rename_i other found
      obtain rfl : parent = other := Option.some.inj (same.symm.trans found)
      exact ih

theorem functionFrame?_conceal (frame : FrameRef) :
    (V.conceal s).functionFrame? frame = s.functionFrame? frame :=
  firstFrame?_conceal _ frame

section Names

variable {name : Text} (used : V.used name = true)
include used

/-- What a frame binds to a name that may be used is not hidden. -/
theorem get?_bindings_conceal (frame : FrameRef) :
    ((V.conceal s).bindings frame).get? (bindingKey name) =
      (s.bindings frame).get? (bindingKey name) := by
  unfold Store.bindings
  cases hf : s.frames[frame]? with
  | none => simp [hf]
  | some cell =>
    simp only [frames_conceal, hf, Option.map_some, Option.getD_some, entries_conceal,
      veiledEntries]
    split
    · exact get?_filter (p := fun key => !V.hides key) (by simp [hides_bindingKey used])
    · rfl

theorem binds_conceal (frame : FrameRef) :
    (V.conceal s).binds frame name = s.binds frame name := by
  unfold Store.binds Store.bindings
  cases hf : s.frames[frame]? with
  | none => simp [hf]
  | some cell =>
    simp only [frames_conceal, hf, Option.map_some, Option.getD_some, entries_conceal,
      veiledEntries]
    split
    · exact has_filter (p := fun key => !V.hides key) (by simp [hides_bindingKey used])
    · rfl

theorem binder?_conceal (frame : FrameRef) :
    (V.conceal s).binder? frame name = s.binder? frame name := by
  have same : ((V.conceal s).binds · name) = (s.binds · name) := funext (binds_conceal used)
  rw [Store.binder?, same, firstFrame?_conceal]
  rfl

theorem lookup_conceal (frame : FrameRef) :
    (V.conceal s).lookup frame name = s.lookup frame name := by
  simp only [Store.lookup, binder?_conceal used, get?_bindings_conceal used]

/-- **Binding a name that may be used** commutes with concealing. -/
theorem conceal_define (frame : FrameRef) (v : Value) :
    V.conceal (s.define frame name v) = (V.conceal s).define frame name v := by
  unfold Store.define
  cases hf : s.frames[frame]? with
  | none => simp [hf]
  | some cell =>
    simp only [frames_conceal, hf, conceal_setEntries, entries_conceal, veiledEntries]
    split
    · rw [filter_put (p := fun key => !V.hides key) (by simp [hides_bindingKey used])]
    · rfl

theorem conceal_assign (frame : FrameRef) (v : Value) :
    V.conceal (s.assign frame name v) = (V.conceal s).assign frame name v := by
  rw [Store.assign, Store.assign, conceal_define used, binder?_conceal used, outermost_conceal]

end Names

/-- Opening a frame commutes with concealing. -/
theorem Sound.conceal_openInner (hs : V.Sound s) (parent : FrameRef) :
    (V.conceal s).openInner parent =
      ((s.openInner parent).1, V.conceal (s.openInner parent).2) := by
  have fresh : V.context ≠ some s.objects.size := fun same =>
    Nat.lt_irrefl _ (hs.context_lt same)
  have object : (V.conceal s).newObject [] = (s.objects.size, V.conceal (s.newObject []).2) := by
    rw [conceal_newObject _ fresh]
    simp [Store.newObject]
  simp only [Store.openInner, object]
  rfl

theorem conceal_markFunction (frame : FrameRef) :
    V.conceal (s.markFunction frame) = (V.conceal s).markFunction frame := by
  unfold Store.markFunction
  simp only [frames_conceal]
  cases s.frames[frame]? <;> rfl

namespace Sound

variable (hs : V.Sound s)
include hs

/-- The frame around a frame within reach is within reach. -/
theorem parent? {frame parent : FrameRef} (h : .frame frame ∉ V.garbage)
    (hp : s.parent? frame = some parent) : .frame parent ∉ V.garbage := by
  unfold Store.parent? at hp
  cases hf : s.frames[frame]? with
  | none => simp [hf] at hp
  | some cell =>
    rw [hf] at hp
    exact (hs.frames frame cell h hf).parent parent ((Option.filter_eq_some_iff.mp hp).1)

theorem firstFrame? {p : FrameRef → Bool} {frame found : FrameRef} (h : .frame frame ∉ V.garbage)
    (hf : s.firstFrame? p frame = some found) : .frame found ∉ V.garbage := by
  fun_induction Store.firstFrame? s p frame with
  | case1 frame _ =>
    obtain rfl : frame = found := by simpa using hf
    exact h
  | case2 => cases hf
  | case3 frame _ parent hparent ih => exact ih (hs.parent? h hparent) hf

theorem outermost {frame : FrameRef} (h : .frame frame ∉ V.garbage) :
    .frame (s.outermost frame) ∉ V.garbage := by
  fun_induction Store.outermost s frame with
  | case1 => exact h
  | case2 frame parent hparent ih => exact ih (hs.parent? h hparent)

/-- The bindings of a frame within reach. -/
theorem bindings {frame : FrameRef} (h : .frame frame ∉ V.garbage) :
    ∀ e ∈ s.bindings frame, V.Fits e.2 := by
  intro e he
  unfold Store.bindings at he
  cases hf : s.frames[frame]? with
  | none => simp [hf] at he
  | some cell =>
    simp only [hf, Option.map_some, Option.getD_some] at he
    exact hs.entries (hs.frames frame cell h hf).bindings e he

/-- The value of a name fits. -/
theorem lookup {frame : FrameRef} {name : Text} (h : .frame frame ∉ V.garbage) :
    V.Fits (s.lookup frame name) := by
  unfold Store.lookup
  split
  · exact Value.fits_undefined
  · rename_i binder hb
    refine Value.fits_ofOption fun v hv => ?_
    obtain ⟨e, he, rfl⟩ := Entries.mem_of_get? hv
    exact hs.bindings (hs.firstFrame? h hb) e he

theorem define {frame : FrameRef} {name : Text} {v : Value} (h : .frame frame ∉ V.garbage)
    (used : V.used name = true) (hv : V.Fits v) : V.Sound (s.define frame name v) := by
  unfold Store.define
  split
  · exact hs
  · rename_i cell hf
    refine hs.setEntries
      (Entries.put_fits (hs.entries (hs.frames frame cell h hf).bindings) hv) fun _ => ?_
    exact filter_put_of_not (by simp [leavesAlone, bindingKey, Key.text?, used]) v

theorem assign {frame : FrameRef} {name : Text} {v : Value} (h : .frame frame ∉ V.garbage)
    (used : V.used name = true) (hv : V.Fits v) : V.Sound (s.assign frame name v) := by
  refine hs.define ?_ used hv
  cases hb : s.binder? frame name with
  | none => exact hs.outermost h
  | some binder => exact hs.firstFrame? h hb

/-- A frame opened inside another is within reach, and leaves the store sound. -/
theorem openInner {parent : FrameRef} (h : .frame parent ∉ V.garbage) :
    V.Sound (s.openInner parent).2 ∧ .frame (s.openInner parent).1 ∉ V.garbage := by
  have hs' : V.Sound (s.newObject []).2 := hs.newObject (by simp)
  have fits : V.FitsFrame ⟨(s.newObject []).1, some parent, false,
      none.or ((some parent).bind (s.newObject []).2.sourceOf)⟩ :=
    ⟨not_mem_garbage (hs.fresh (Nat.lt_irrefl _)), by simpa using h⟩
  exact ⟨hs'.newFrame fits, not_mem_garbage (hs'.fresh (Nat.lt_irrefl _))⟩

theorem markFunction {frame : FrameRef} (h : .frame frame ∉ V.garbage) :
    V.Sound (s.markFunction frame) := by
  unfold Store.markFunction
  split
  · exact hs
  · rename_i cell hf
    have fits := hs.frames frame cell h hf
    refine hs.setFrame ⟨fits.bindings, fits.parent⟩ fun old found => ?_
    obtain rfl : cell = old := Option.some.inj (hf.symm.trans found)
    rfl

end Sound

/-! ## Veils that bar nothing -/

/-- A veil **bars nothing** if everything is within reach under it, and all names may be used. -/
structure BarsNothing (V : Veil) : Prop where
  garbage : V.garbage = ∅
  context : V.context = none
  used : ∀ name, V.used name = true

namespace BarsNothing

variable (h : V.BarsNothing)
include h

theorem reached (p : Site) : p ∉ V.garbage := by
  rw [h.garbage]
  exact fun out => out

theorem speaks (n : Node) : V.Speaks n :=
  fun name _ => h.used name

theorem not_mem_garbage (p : Site) : p ∉ V.regime.garbage := by
  rw [mem_garbage]
  rintro (out | ⟨ref, same, rfl⟩)
  · exact h.reached p out
  · cases h.context.symm.trans same

theorem fits (v : Value) : V.Fits v :=
  fun _ _ => ⟨False.elim, False.elim, fun p _ => h.not_mem_garbage p⟩

/-- Under it a store is sound if what was there is there, and has been left alone. -/
theorem sound (there : ∀ p : Site, p.IsIn V.start → p.IsIn s)
    (kinds : ∀ kind ∈ s.hostKinds, V.FitsKind kind) (untouched : V.LeftAlone s) : V.Sound s where
  taken p hp := absurd hp (h.not_mem_garbage p)
  there := there
  held _ _ v _ := h.fits v
  functions _ _ _ _ := ⟨h.reached _, fun name _ => h.used name, h.speaks _⟩
  frames _ _ _ _ := ⟨h.reached _, fun _ _ => h.reached _⟩
  kinds := kinds
  untouched := untouched

end BarsNothing

end Veil

end Scriptlet
