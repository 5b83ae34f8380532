import Mathlib.Data.Set.Basic
import Scriptlet.Walk

/-!
# Marks are kept

A frame that belongs to a call is marked when it is opened, and the mark is what a return
looks for. Nothing takes a mark away again. Most of what a program does leaves the frames
alone altogether; a frame may be added, and a new one may be marked.

That marks are kept is a relation between the store before a step and the store after it, and
a step may keep others too.
-/

namespace Scriptlet

/-! ## Marks -/

/-- The frames of a store **that belong to calls**. -/
def Store.marks (s : Store) : Set FrameRef :=
  {frame | s.isFunctionFrame frame = true}

namespace Store

variable {s s' : Store} {frame : FrameRef}

theorem mem_marks_iff :
    frame ∈ s.marks ↔ ∃ cell, s.frames[frame]? = some cell ∧ cell.isFunction = true := by
  show s.frames[frame]?.any FrameCell.isFunction = true ↔ _
  rw [Option.any_eq_true]

/-- A frame that is marked is that of the call in which it is. -/
theorem functionFrame?_of_mem_marks (h : frame ∈ s.marks) :
    s.functionFrame? frame = some frame := by
  unfold functionFrame? firstFrame?
  exact if_pos h

/-- A frame that is there and marked is one that belongs to a call. -/
theorem mem_marks_markFunction (h : frame < s.frames.size) :
    frame ∈ (s.markFunction frame).marks := by
  have found : s.frames[frame]? = some s.frames[frame] := Array.getElem?_eq_getElem h
  unfold markFunction
  rw [found]
  refine mem_marks_iff.mpr ⟨{ s.frames[frame] with isFunction := true }, ?_, rfl⟩
  unfold setFrame
  rw [Array.getElem?_setIfInBounds_self_of_lt h]

/-! ## Frames that are kept -/

/-- A store **keeps the frames** of another: they are there with their sources and, where they
are marked, with their marks. -/
def KeepsFrames (s s' : Store) : Prop :=
  ∀ (frame : FrameRef) cell, s.frames[frame]? = some cell → ∃ cell', s'.frames[frame]? = some cell' ∧
    cell'.source = cell.source ∧ (cell.isFunction = true → cell'.isFunction = true)

theorem keepsFrames_of_eq (h : s'.frames = s.frames) : s.KeepsFrames s' :=
  fun _ cell found => ⟨cell, h ▸ found, rfl, id⟩

theorem KeepsFrames.trans {t : Store} (first : s.KeepsFrames s') (second : s'.KeepsFrames t) :
    s.KeepsFrames t := by
  intro frame cell found
  obtain ⟨cell', found', source, marked⟩ := first frame cell found
  obtain ⟨cell'', found'', source', marked'⟩ := second frame cell' found'
  exact ⟨cell'', found'', source'.trans source, marked' ∘ marked⟩

theorem KeepsFrames.marks_subset (h : s.KeepsFrames s') : s.marks ⊆ s'.marks := by
  intro frame hframe
  obtain ⟨cell, found, marked⟩ := mem_marks_iff.mp hframe
  obtain ⟨cell', found', -, marked'⟩ := h frame cell found
  exact mem_marks_iff.mpr ⟨cell', found', marked' marked⟩

/-- A frame that is there goes on running the source that it runs. -/
theorem KeepsFrames.sourceOf_eq (h : s.KeepsFrames s') {cell : FrameCell}
    (found : s.frames[frame]? = some cell) : s'.sourceOf frame = s.sourceOf frame := by
  obtain ⟨cell', found', source, -⟩ := h frame cell found
  unfold sourceOf
  rw [found, found']
  exact source

theorem keepsFrames_newFrame (cell : FrameCell) : s.KeepsFrames (s.newFrame cell).2 := by
  intro frame old found
  have there : frame ≠ s.frames.size := Nat.ne_of_lt (Array.getElem?_eq_some_iff.mp found).1
  refine ⟨old, ?_, rfl, id⟩
  unfold newFrame
  rw [Array.getElem?_push, if_neg there, found]

theorem keepsFrames_openInner (parent : FrameRef) : s.KeepsFrames (s.openInner parent).2 := by
  have first : s.KeepsFrames (s.newObject []).2 := keepsFrames_of_eq rfl
  exact first.trans (keepsFrames_newFrame _)

theorem keepsFrames_markFunction (frame : FrameRef) : s.KeepsFrames (s.markFunction frame) := by
  intro other cell found
  unfold markFunction
  cases hframe : s.frames[frame]? with
  | none => exact ⟨cell, found, rfl, id⟩
  | some own =>
    dsimp only
    unfold setFrame
    by_cases same : frame = other
    · subst same
      obtain rfl : own = cell := Option.some.inj (hframe.symm.trans found)
      refine ⟨{ own with isFunction := true }, ?_, rfl, fun _ => rfl⟩
      rw [Array.getElem?_setIfInBounds_self_of_lt (Array.getElem?_eq_some_iff.mp found).1]
    · exact ⟨cell, (Array.getElem?_setIfInBounds_ne same).trans found, rfl, id⟩

end Store

/-! ## One step after another -/

theorem Step.bind_of_ok {step : Step α} {next : α → Step β} {s s' : Store} {a : α}
    (h : step s = .ok a s') : (step >>= next) s = next a s' := by
  show EStateM.bind step next s = _
  unfold EStateM.bind
  rw [h]

theorem Step.bind_of_error {step : Step α} {next : α → Step β} {s s' : Store} {i : Interrupt}
    (h : step s = .error i s') : (step >>= next) s = .error i s' := by
  show EStateM.bind step next s = _
  unfold EStateM.bind
  rw [h]

/-- Two steps that give something give it one after the other. -/
theorem Step.of_bind_ok {step : Step α} {next : α → Step β} {s s' : Store} {b : β}
    (h : (step >>= next) s = .ok b s') : ∃ a s₁, step s = .ok a s₁ ∧ next a s₁ = .ok b s' := by
  cases hstep : step s with
  | ok a s₁ => exact ⟨a, s₁, rfl, (Step.bind_of_ok hstep).symm.trans h⟩
  | error i s₁ => cases (Step.bind_of_error hstep).symm.trans h

theorem Step.ofExcept_of_ok {x : Except Unmet α} {s : Store} {a : α} (h : x = .ok a) :
    ofExcept x s = .ok a s := by
  rw [h]
  rfl

theorem Step.ofExcept_of_error {x : Except Unmet α} {s : Store} {u : Unmet} (h : x = .error u) :
    ofExcept x s = .error (.fault (.unmet u)) s := by
  rw [h]
  rfl

theorem Step.read_of_ok {f : Store → Except Unmet α} {s : Store} {a : α} (h : f s = .ok a) :
    read f s = .ok a s :=
  ofExcept_of_ok h

theorem Step.read_of_error {f : Store → Except Unmet α} {s : Store} {u : Unmet}
    (h : f s = .error u) : read f s = .error (.fault (.unmet u)) s :=
  ofExcept_of_error h

/-- An interrupt comes out of a step whatever is made of its result. -/
theorem Step.map_error_iff {step : Step α} {f : α → β} {s s' : Store} {i : Interrupt} :
    (f <$> step) s = .error i s' ↔ step s = .error i s' := by
  show EStateM.map f step s = _ ↔ _
  unfold EStateM.map
  cases step s with
  | ok a s₁ => exact iff_of_false nofun nofun
  | error j s₁ => simp

/-! ## Steps that keep something -/

/-- The store that a step leaves, however it ends. -/
def Step.storeAfter (step : Step α) (s : Store) : Store :=
  match step s with
  | .ok _ s' => s'
  | .error _ s' => s'

/-- A step **keeps a relation** if the store before it is in this relation to the store after
it, however it ends. -/
def Step.Keeps (r : Store → Store → Prop) (step : Step α) : Prop :=
  ∀ s, r s (step.storeAfter s)

/-- A step **keeps marks** if every frame that was marked before it is so after it, however
it ends. -/
def Step.KeepsMarks (step : Step α) : Prop :=
  ∀ s, s.marks ⊆ (step.storeAfter s).marks

theorem Step.KeepsMarks.keeps {step : Step α} (h : step.KeepsMarks) :
    step.Keeps fun s s' => s.marks ⊆ s'.marks :=
  h

namespace Step.Keeps

variable {r : Store → Store → Prop}

theorem of_ok {step : Step α} (h : step.Keeps r) {s s' : Store} {a : α}
    (ends : step s = .ok a s') : r s s' := by
  have := h s
  unfold storeAfter at this
  rwa [ends] at this

theorem of_error {step : Step α} (h : step.Keeps r) {s s' : Store} {i : Interrupt}
    (ends : step s = .error i s') : r s s' := by
  have := h s
  unfold storeAfter at this
  rwa [ends] at this

/-- One step after another, where the second goes on with what the first gives. -/
theorem bindOf {step : Step α} {next : α → Step β} (first : step.Keeps r)
    (trans : ∀ {s s' t}, r s s' → r s' t → r s t)
    (second : ∀ a s s', step s = .ok a s' → (next a).Keeps r) : Keeps r (step >>= next) := by
  intro s
  cases hstep : step s with
  | error i s' =>
    unfold storeAfter
    rw [Step.bind_of_error hstep]
    exact first.of_error hstep
  | ok a s' =>
    have later := second a s s' hstep s'
    unfold storeAfter at later ⊢
    rw [Step.bind_of_ok hstep]
    exact trans (first.of_ok hstep) later

theorem map {step : Step α} (h : step.Keeps r) (f : α → β) : Keeps r (f <$> step) := by
  intro s
  show r s (Step.storeAfter (EStateM.map f step) s)
  unfold storeAfter EStateM.map
  cases hstep : step s with
  | ok a s' => exact h.of_ok hstep
  | error i s' => exact h.of_error hstep

/-- A handler of interrupts keeps what the interrupted step keeps, if what it does does. -/
theorem tryCatch {step : Step α} {handle : Interrupt → Step α} (h : step.Keeps r)
    (trans : ∀ {s s' t}, r s s' → r s' t → r s t) (handled : ∀ i, (handle i).Keeps r) :
    Keeps r (MonadExcept.tryCatch step handle : Step α) := by
  intro s
  show r s (Step.storeAfter (EStateM.tryCatch step handle) s)
  unfold storeAfter EStateM.tryCatch
  cases hstep : step s with
  | ok a s' => exact h.of_ok hstep
  | error i s' => exact trans (h.of_error hstep) (handled i s')

end Step.Keeps

end Scriptlet
