import Scriptlet.Interrupt

/-!
# Scope

A name is looked up in a frame, then in the frame around it, and so on to the
outermost. Assigning to a name changes the binding that looking it up would find;
where there is none, the outermost frame gets one.

Looking outward follows the parents of frames. A frame is always made inside one
that is there already, so its parent has a smaller number, and the way outward
comes to an end.
-/

namespace Scriptlet

/-- The name of a binding as a key. -/
def bindingKey (name : Text) : Key := .text name

namespace Store

/-- The bindings of a frame. -/
def bindings (s : Store) (frame : FrameRef) : Entries :=
  (s.frames[frame]?.map fun cell => s.entries cell.bindings).getD []

/-- Whether a frame binds a name. -/
def binds (s : Store) (frame : FrameRef) (name : Text) : Bool :=
  (s.bindings frame).has (bindingKey name)

/-- The frame around a frame. -/
def parent? (s : Store) (frame : FrameRef) : Option FrameRef :=
  match s.frames[frame]? with
  | none => none
  | some cell => cell.parent.filter (· < frame)

theorem parent?_lt {s : Store} {frame parent : FrameRef} (h : s.parent? frame = some parent) :
    parent < frame := by
  unfold parent? at h
  split at h
  · cases h
  · rename_i cell _
    cases hp : cell.parent with
    | none => simp [hp] at h
    | some p =>
      simp only [hp, Option.filter] at h
      split at h <;> simp_all

/-- The first frame with a property, from one frame outward. -/
def firstFrame? (s : Store) (p : FrameRef → Bool) (frame : FrameRef) : Option FrameRef :=
  if p frame then some frame
  else
    match _h : s.parent? frame with
    | none => none
    | some parent => s.firstFrame? p parent
termination_by frame
decreasing_by exact parent?_lt _h

/-- The outermost frame around a frame. -/
def outermost (s : Store) (frame : FrameRef) : FrameRef :=
  match _h : s.parent? frame with
  | none => frame
  | some parent => s.outermost parent
termination_by frame
decreasing_by exact parent?_lt _h

/-- The frame in which a name **is bound** as seen from a frame. -/
def binder? (s : Store) (frame : FrameRef) (name : Text) : Option FrameRef :=
  s.firstFrame? (s.binds · name) frame

/-- The **value of a name** as seen from a frame; undefined where it is not bound. -/
def lookup (s : Store) (frame : FrameRef) (name : Text) : Value :=
  match s.binder? frame name with
  | none => .undefined
  | some binder => Value.ofOption ((s.bindings binder).get? (bindingKey name))

/-- The store in which a frame **binds a name** to a value. -/
def define (s : Store) (frame : FrameRef) (name : Text) (v : Value) : Store :=
  match s.frames[frame]? with
  | none => s
  | some cell => s.setEntries cell.bindings ((s.entries cell.bindings).put (bindingKey name) v)

/-- The store after an **assignment** to a name as seen from a frame. -/
def assign (s : Store) (frame : FrameRef) (name : Text) (v : Value) : Store :=
  s.define ((s.binder? frame name).getD (s.outermost frame)) name v

/-- Whether a frame belongs to the call of a function. -/
def isFunctionFrame (s : Store) (frame : FrameRef) : Bool :=
  s.frames[frame]?.any FrameCell.isFunction

/-- The frame of the call **in which a frame is**, if it is in one. -/
def functionFrame? (s : Store) (frame : FrameRef) : Option FrameRef :=
  s.firstFrame? s.isFunctionFrame frame

/-- The source text that is being run in a frame. -/
def sourceOf (s : Store) (frame : FrameRef) : Option Text :=
  s.frames[frame]?.bind FrameCell.source

/-- The store in which another source text is run in a frame. -/
def setSource (s : Store) (frame : FrameRef) (source : Option Text) : Store :=
  match s.frames[frame]? with
  | none => s
  | some cell => s.setFrame frame { cell with source := source }

/-- A new frame that binds names in a given object. Unless it has a source text of
its own, it has that of the frame around it. -/
def openFrame (s : Store) (bindings : ObjectRef) (parent : Option FrameRef)
    (source : Option Text) : FrameRef × Store :=
  s.newFrame ⟨bindings, parent, false, source.or (parent.bind s.sourceOf)⟩

/-- The store in which a frame belongs to the call of a function. -/
def markFunction (s : Store) (frame : FrameRef) : Store :=
  match s.frames[frame]? with
  | none => s
  | some cell => s.setFrame frame { cell with isFunction := true }

/-- A new frame inside another one. -/
def openInner (s : Store) (parent : FrameRef) : FrameRef × Store :=
  let (bindings, s) := s.newObject []
  s.openFrame bindings (some parent) none

end Store

namespace Step

/-- Binds a name in a frame. -/
def define (frame : FrameRef) (name : Text) (v : Value) : Step Unit :=
  modify fun s => s.define frame name v

/-- The value of a name. -/
def lookup (frame : FrameRef) (name : Text) : Step Value := do
  return (← get).lookup frame name

end Step

end Scriptlet
