import Mathlib.Data.Set.Insert
import Scriptlet.Proofs.Site

/-!
# Frames stay where they are

A frame is made inside one that is there already, or inside none, and it stays there: nothing
gives a frame another parent, another object to bind names in, or takes it away. A function is made
in a frame that is there. So the frames are a *forest*, in which the way outward from each of them
goes to frames that were made before, and every function has its place in it.

The walk does not look whether a frame is there in which it is told to make something. It is kept
to the frames that it knows, and what it does leaves a forest if those are there.
-/

namespace Scriptlet

namespace Store

/-- The frames of a store are **a forest**: each binds names in an object that is there, and was
made inside one that had been made before it, or inside none. -/
structure IsForest (s : Store) : Prop where
  bindings : ∀ (frame : FrameRef) cell, s.frames[frame]? = some cell →
    cell.bindings < s.objects.size
  parents : ∀ (frame : FrameRef) cell, s.frames[frame]? = some cell →
    ∀ parent, cell.parent = some parent → parent < frame

/-- In a store **everything has its scope**: the frames are a forest, and every function was made
in one of them. -/
structure IsScoped (s : Store) : Prop extends s.IsForest where
  functions : ∀ (f : FunctionRef) cell, s.functions[f]? = some cell → cell.scope < s.frames.size

/-- One store **keeps the scopes** of another, given that some frames are known in that: if
everything has its scope and these frames are there, that is so afterwards, and no frame and no
object is lost. -/
def KeepsScopes (known : Set FrameRef) (s s' : Store) : Prop :=
  s.IsScoped → (∀ frame ∈ known, frame < s.frames.size) →
    s'.IsScoped ∧ s.frames.size ≤ s'.frames.size ∧ s.objects.size ≤ s'.objects.size

namespace KeepsScopes

variable {known more : Set FrameRef} {s s' t : Store}

/-- Where frames and functions are left alone, nothing happens to scopes. -/
theorem of_eq (frames : s'.frames = s.frames) (functions : s'.functions = s.functions)
    (objects : s.objects.size ≤ s'.objects.size) : s.KeepsScopes known s' := by
  intro hs _
  refine ⟨⟨⟨fun frame cell found => ?_, fun frame cell found => ?_⟩, fun f cell found => ?_⟩,
    frames ▸ Nat.le_refl _, objects⟩
  · exact Nat.lt_of_lt_of_le (hs.bindings frame cell (frames ▸ found)) objects
  · exact hs.parents frame cell (frames ▸ found)
  · rw [frames]
    exact hs.functions f cell (functions ▸ found)

theorem refl (s : Store) : s.KeepsScopes known s :=
  .of_eq rfl rfl (Nat.le_refl _)

theorem trans (first : s.KeepsScopes known s') (second : s'.KeepsScopes known t) :
    s.KeepsScopes known t := by
  intro hs there
  obtain ⟨hs', frames, objects⟩ := first hs there
  obtain ⟨hs'', frames', objects'⟩ :=
    second hs' fun frame isKnown => Nat.lt_of_lt_of_le (there frame isKnown) frames
  exact ⟨hs'', Nat.le_trans frames frames', Nat.le_trans objects objects'⟩

/-- What does with less knowledge does with more. -/
theorem mono (h : s.KeepsScopes known s') (less : known ⊆ more) : s.KeepsScopes more s' :=
  fun hs there => h hs fun frame isKnown => there frame (less isKnown)

/-- Knowledge of a frame that is there is not needed. -/
theorem of_there {frame : FrameRef} (there : frame < s.frames.size)
    (h : s.KeepsScopes (insert frame known) s') : s.KeepsScopes known s' := by
  refine fun hs others => h hs fun other isKnown => ?_
  rcases isKnown with rfl | isKnown
  · exact there
  · exact others other isKnown

/-- **A new frame** keeps the forest if it is inside a frame that is known, or inside none. -/
theorem newFrame {cell : FrameCell} (bindings : cell.bindings < s.objects.size)
    (inside : ∀ parent, cell.parent = some parent → parent ∈ known) :
    s.KeepsScopes known (s.newFrame cell).2 := by
  intro hs there
  have size : (s.newFrame cell).2.frames.size = s.frames.size + 1 := Array.size_push _
  refine ⟨⟨⟨fun frame cell' found => ?_, fun frame cell' found => ?_⟩, fun f cell' found => ?_⟩,
    by rw [size]; exact Nat.le_succ _, Nat.le_refl _⟩
  · rcases frames_newFrame found with ⟨-, rfl⟩ | found
    · exact bindings
    · exact hs.bindings frame cell' found
  · rcases frames_newFrame found with ⟨rfl, rfl⟩ | found
    · exact fun parent isInside => there parent (inside parent isInside)
    · exact hs.parents frame cell' found
  · rw [size]
    exact Nat.lt_succ_of_lt (hs.functions f cell' found)

theorem newObject (entries : Entries) : s.KeepsScopes known (s.newObject entries).2 :=
  .of_eq rfl rfl (by rw [Store.newObject, Array.size_push]; exact Nat.le_succ _)

theorem openInner {parent : FrameRef} (isKnown : parent ∈ known) :
    s.KeepsScopes known (s.openInner parent).2 := by
  have bindings : (s.newObject []).1 < (s.newObject []).2.objects.size := by
    simp [Store.newObject]
  refine (newObject []).trans (newFrame bindings fun _ isInside => ?_)
  exact Option.some.inj isInside ▸ isKnown

/-- A frame may be written anew if it stays where it is. -/
theorem setFrame {ref : FrameRef} {old cell : FrameCell} (found : s.frames[ref]? = some old)
    (bindings : cell.bindings = old.bindings) (parent : cell.parent = old.parent) :
    s.KeepsScopes known (s.setFrame ref cell) := by
  intro hs _
  have size : (s.setFrame ref cell).frames.size = s.frames.size := Array.size_setIfInBounds
  refine ⟨⟨⟨fun frame cell' found' => ?_, fun frame cell' found' => ?_⟩, fun f cell' found' => ?_⟩,
    size ▸ Nat.le_refl _, Nat.le_refl _⟩
  · rcases frames_setFrame found' with ⟨-, rfl⟩ | found'
    · exact bindings ▸ hs.bindings ref old found
    · exact hs.bindings frame cell' found'
  · rcases frames_setFrame found' with ⟨rfl, rfl⟩ | found'
    · exact parent ▸ hs.parents frame old found
    · exact hs.parents frame cell' found'
  · rw [size]
    exact hs.functions f cell' found'

theorem markFunction (frame : FrameRef) : s.KeepsScopes known (s.markFunction frame) := by
  unfold Store.markFunction
  split
  · exact .refl s
  · rename_i found
    exact .setFrame found rfl rfl

theorem define (frame : FrameRef) (name : Text) (v : Value) :
    s.KeepsScopes known (s.define frame name v) := by
  unfold Store.define
  split
  · exact .refl s
  · exact .of_eq rfl rfl (Nat.le_of_eq Array.size_setIfInBounds.symm)

/-- **A new function** has its scope if it is made in a frame that is known. -/
theorem newFunction {cell : FunctionCell} (isKnown : cell.scope ∈ known) :
    s.KeepsScopes known (s.newFunction cell).2 := by
  intro hs there
  refine ⟨⟨⟨hs.bindings, hs.parents⟩, fun f cell' found => ?_⟩, Nat.le_refl _, Nat.le_refl _⟩
  rcases functions_newFunction found with ⟨-, rfl⟩ | found
  · exact there _ isKnown
  · exact hs.functions f cell' found

/-- A function may be written anew if it keeps its scope. -/
theorem setFunction {ref : FunctionRef} {old cell : FunctionCell}
    (found : s.functions[ref]? = some old) (scope : cell.scope = old.scope) :
    s.KeepsScopes known (s.setFunction ref cell) := by
  intro hs _
  refine ⟨⟨⟨hs.bindings, hs.parents⟩, fun f cell' found' => ?_⟩, Nat.le_refl _, Nat.le_refl _⟩
  rcases functions_setFunction found' with ⟨-, rfl⟩ | found'
  · exact scope ▸ hs.functions ref old found
  · exact hs.functions f cell' found'

end KeepsScopes

end Store

end Scriptlet
