import Scriptlet.Proofs.Hoisting

/-!
# The way outward

From a frame one gets to the one that it is inside of, from that to the next, and so on, until a
frame is inside none. Where the frames are a forest this *way outward* comes to an end, and it
passes no frame twice, since it goes to frames that had been made before.

A program looks outward from a frame to find who binds a name, whose call it is in, or which frame
is the outermost. In looking it goes only to frames that were made before, and so has to come to an
end. In a forest nothing is missed by that: it looks through the way outward.
-/

namespace Scriptlet

namespace Store

/-- A list of frames is **the way outward** from a frame: that comes first, each is followed by the
one that it is inside of, and the last is inside none. -/
inductive WayOut (s : Store) : FrameRef → List FrameRef → Prop
  | outermost {frame : FrameRef} {cell : FrameCell} (found : s.frames[frame]? = some cell)
    (inNone : cell.parent = none) : WayOut s frame [frame]
  | inside {frame parent : FrameRef} {cell : FrameCell} {way : List FrameRef}
    (found : s.frames[frame]? = some cell) (isInside : cell.parent = some parent)
    (further : WayOut s parent way) : WayOut s frame (frame :: way)

variable {s s' : Store} {frame w : FrameRef} {way : List FrameRef} {name : Text}

namespace WayOut

/-- There is **but one way** outward. -/
theorem unique {way' : List FrameRef} (h : s.WayOut frame way) (h' : s.WayOut frame way') :
    way = way' := by
  induction h generalizing way' with
  | outermost found inNone =>
    cases h' with
    | outermost => rfl
    | inside found' isInside =>
      obtain rfl := Option.some.inj (found.symm.trans found')
      cases inNone.symm.trans isInside
  | inside found isInside _ ih =>
    cases h' with
    | outermost found' inNone =>
      obtain rfl := Option.some.inj (found.symm.trans found')
      cases inNone.symm.trans isInside
    | inside found' isInside' further' =>
      obtain rfl := Option.some.inj (found.symm.trans found')
      obtain rfl := Option.some.inj (isInside.symm.trans isInside')
      rw [ih further']

/-- The way depends on the frames alone. -/
theorem congr (same : s'.frames = s.frames) (h : s.WayOut frame way) : s'.WayOut frame way := by
  induction h with
  | outermost found inNone => exact .outermost (same ▸ found) inNone
  | inside found isInside _ ih => exact .inside (same ▸ found) isInside ih

/-- It begins with the frame itself. -/
theorem exists_cons (h : s.WayOut frame way) : ∃ rest, way = frame :: rest := by
  cases h <;> exact ⟨_, rfl⟩

/-- All that is passed is there. -/
theorem lt_size (h : s.WayOut frame way) : ∀ other ∈ way, other < s.frames.size := by
  induction h with
  | outermost found => exact List.forall_mem_singleton.mpr (Array.getElem?_eq_some_iff.mp found).1
  | inside found _ _ ih =>
    exact List.forall_mem_cons.mpr ⟨(Array.getElem?_eq_some_iff.mp found).1, ih⟩

end WayOut

/-! ## Looking outward -/

section Searches

variable {parent : FrameRef} {p : FrameRef → Bool}

theorem firstFrame?_of_none (inNone : s.parent? frame = none) :
    s.firstFrame? p frame = if p frame then some frame else none := by
  rw [firstFrame?]
  split
  · rfl
  · split
    · rfl
    · rename_i isInside
      cases inNone.symm.trans isInside

theorem firstFrame?_of_some (isInside : s.parent? frame = some parent) :
    s.firstFrame? p frame = if p frame then some frame else s.firstFrame? p parent := by
  rw [firstFrame?]
  split
  · rfl
  · split
    · rename_i inNone
      cases isInside.symm.trans inNone
    · rename_i isInside'
      cases isInside.symm.trans isInside'
      rfl

theorem outermost_of_none (inNone : s.parent? frame = none) : s.outermost frame = frame := by
  rw [outermost]
  split
  · rfl
  · rename_i isInside
    cases inNone.symm.trans isInside

theorem outermost_of_some (isInside : s.parent? frame = some parent) :
    s.outermost frame = s.outermost parent := by
  rw [outermost]
  split
  · rename_i inNone
    cases isInside.symm.trans inNone
  · rename_i isInside'
    cases isInside.symm.trans isInside'
    rfl

end Searches

/-! ## Forests -/

namespace IsForest

variable (forest : s.IsForest)
include forest

theorem parent?_eq {cell : FrameCell} (found : s.frames[frame]? = some cell) :
    s.parent? frame = cell.parent := by
  have before := forest.parents frame cell found
  unfold parent?
  rw [found]
  dsimp only
  cases isInside : cell.parent with
  | none => rfl
  | some parent => rw [Option.filter_some, if_pos (decide_eq_true (before parent isInside))]

/-- **The way outward comes to an end.** -/
theorem exists_wayOut (there : frame < s.frames.size) : ∃ way, s.WayOut frame way := by
  induction frame using Nat.strong_induction_on with
  | h frame ih =>
    have found : s.frames[frame]? = some s.frames[frame] := Array.getElem?_eq_getElem there
    cases isInside : s.frames[frame].parent with
    | none => exact ⟨_, .outermost found isInside⟩
    | some parent =>
      have before := forest.parents frame _ found parent isInside
      obtain ⟨way, further⟩ := ih parent before (before.trans there)
      exact ⟨_, .inside found isInside further⟩

/-- It goes to frames that had been made before. -/
theorem pairwise_of_wayOut (h : s.WayOut frame way) : way.Pairwise (· > ·) := by
  induction h with
  | outermost => exact List.pairwise_singleton _ _
  | @inside frame parent cell way found isInside further ih =>
    have before := forest.parents frame cell found parent isInside
    refine List.pairwise_cons.mpr ⟨fun other passed => ?_, ih⟩
    -- It is the parent, or on the way outward from there.
    obtain ⟨rest, rfl⟩ := further.exists_cons
    rcases List.mem_cons.mp passed with rfl | passed
    · exact before
    · exact ((List.pairwise_cons.mp ih).1 other passed).trans before

/-- What is first looked for in a frame, then in the one around it, and so on, is **looked for on
the way outward**. -/
theorem firstFrame?_eq (p : FrameRef → Bool) (h : s.WayOut frame way) :
    s.firstFrame? p frame = way.find? p := by
  induction h with
  | @outermost frame cell found inNone =>
    rw [firstFrame?_of_none ((forest.parent?_eq found).trans inNone), List.find?_cons]
    cases p frame <;> rfl
  | @inside frame parent cell way found isInside _ ih =>
    rw [firstFrame?_of_some ((forest.parent?_eq found).trans isInside), ih, List.find?_cons]
    cases p frame <;> rfl

theorem outermost_eq (h : s.WayOut frame way) : way.getLast? = some (s.outermost frame) := by
  induction h with
  | outermost found inNone =>
    rw [outermost_of_none ((forest.parent?_eq found).trans inNone)]
    rfl
  | inside found isInside further ih =>
    obtain ⟨rest, rfl⟩ := further.exists_cons
    rw [outermost_of_some ((forest.parent?_eq found).trans isInside), List.getLast?_cons_cons, ih]

end IsForest

/-- Looking outward from a frame **comes to an end**: the way is finite and passes no frame twice,
and whatever is looked for outward is looked for on it. -/
structure ComesToEnd (s : Store) (frame : FrameRef) (way : List FrameRef) : Prop where
  isWay : s.WayOut frame way
  nodup : way.Nodup
  /-- Who binds a name. -/
  binder : ∀ name, s.binder? frame name = way.find? (s.binds · name)
  /-- Whose call it is. -/
  call : s.functionFrame? frame = way.find? s.isFunctionFrame
  /-- Which frame is the outermost. -/
  outermost : way.getLast? = some (s.outermost frame)

/-- **In a forest** looking outward comes to an end. -/
theorem IsForest.exists_comesToEnd (forest : s.IsForest) (there : frame < s.frames.size) :
    ∃ way, s.ComesToEnd frame way := by
  obtain ⟨way, isWay⟩ := forest.exists_wayOut there
  exact ⟨way, isWay, (forest.pairwise_of_wayOut isWay).imp fun before => Nat.ne_of_gt before,
    fun name => forest.firstFrame?_eq (s.binds · name) isWay,
    forest.firstFrame?_eq s.isFunctionFrame isWay, forest.outermost_eq isWay⟩

/-! ## Looking names up -/

/-- Looking a name up from a frame **ends in** a frame: in the first on the way outward that binds
the name, and if there is none, in the outermost. -/
def EndsIn (s : Store) (frame : FrameRef) (name : Text) (w : FrameRef) : Prop :=
  ∃ way, s.WayOut frame way ∧ (way.find? (s.binds · name)).or way.getLast? = some w

/-- A frame binds a name if it binds it to something. -/
theorem binds_eq (s : Store) (frame : FrameRef) (name : Text) :
    s.binds frame name = (s.bound? frame name).isSome := by
  rw [binds, bound?, Entries.isSome_get?]

theorem EndsIn.unique {w' : FrameRef} (h : s.EndsIn frame name w) (h' : s.EndsIn frame name w') :
    w = w' := by
  obtain ⟨way, isWay, ends⟩ := h
  obtain ⟨way', isWay', ends'⟩ := h'
  obtain rfl := isWay.unique isWay'
  exact Option.some.inj (ends.symm.trans ends')

/-- It ends in a frame that is there. -/
theorem EndsIn.lt_size (h : s.EndsIn frame name w) : w < s.frames.size := by
  obtain ⟨way, isWay, ends⟩ := h
  refine isWay.lt_size w ?_
  rcases Option.or_eq_some_iff.mp ends with found | ⟨-, last⟩
  · exact List.mem_of_find?_eq_some found
  · exact List.mem_of_getLast? last

namespace IsForest

variable (forest : s.IsForest)
include forest

theorem exists_endsIn (there : frame < s.frames.size) (name : Text) :
    ∃ w, s.EndsIn frame name w := by
  obtain ⟨way, isWay⟩ := forest.exists_wayOut there
  cases found : way.find? (s.binds · name) with
  | some w => exact ⟨w, way, isWay, by rw [found]; rfl⟩
  | none => exact ⟨_, way, isWay, by rw [found, forest.outermost_eq isWay]; rfl⟩

/-- **The value of a name** is the one that the frame binds it to in which looking it up ends. -/
theorem lookup_eq (ends : s.EndsIn frame name w) :
    s.lookup frame name = Value.ofOption (s.bound? w name) := by
  obtain ⟨way, isWay, ends⟩ := ends
  have binder : s.binder? frame name = way.find? (s.binds · name) :=
    forest.firstFrame?_eq _ isWay
  unfold lookup
  rw [binder]
  rcases Option.or_eq_some_iff.mp ends with found | ⟨none, last⟩
  · rw [found]
    rfl
  · have unbound : s.bound? w name = .none := by
      have free := List.find?_eq_none.mp none w (List.mem_of_getLast? last)
      rwa [Bool.not_eq_true, binds_eq, Option.isSome_eq_false_iff, Option.isNone_iff_eq_none]
        at free
    rw [none, unbound]
    rfl

/-- **An assignment** binds the name in the frame in which looking it up ends. -/
theorem assign_eq (ends : s.EndsIn frame name w) (v : Value) :
    s.assign frame name v = s.define w name v := by
  obtain ⟨way, isWay, ends⟩ := ends
  have binder : s.binder? frame name = way.find? (s.binds · name) :=
    forest.firstFrame?_eq _ isWay
  unfold assign
  rw [binder]
  rcases Option.or_eq_some_iff.mp ends with found | ⟨none, last⟩
  · rw [found]
    rfl
  · obtain rfl := Option.some.inj (last.symm.trans (forest.outermost_eq isWay))
    rw [none]
    rfl

end IsForest

end Store

end Scriptlet
