import Scriptlet.Proofs.Scope.Outward
import Scriptlet.Proofs.Scope.Running

/-!
# Scope

Many frames look outward to the same one, so what one of them writes is seen from others, but not
from those that come on a binding of that name before. An assignment writes in the frame in which
looking the name up ends, and a declaration in the frame itself. Of all that there is, only this
binding changes; a name that has been written is seen from the frames from which looking it up ends
where it was written, and all else looks from everywhere as before.

Two frames may bind names in one object: the outermost frames of two runs do that if they were run
in one context. Then the frames have their bindings in common, and what is written in one of them
is written in the other. A frame of a call has its bindings for itself.

All this is so where the frames are a forest. They are that at every moment of a run, so in looking
outward a program always comes to an end.
-/

namespace Scriptlet

/-- What has been put under a name is not found under other keys. -/
theorem Entries.get?_put_of_not_same {entries : Entries} {name : Text} {v : Value} {key : Key}
    (h : (bindingKey name).same key = false) :
    (entries.put (bindingKey name) v).get? key = entries.get? key := by
  induction entries with
  | nil =>
    rw [put, get?_cons, if_neg (by rw [h]; exact Bool.false_ne_true)]
  | cons e rest ih =>
    rw [put]
    split
    · rename_i here
      have differs : ¬ e.1.same key = true := by
        rw [Veil.same_bindingKey.mp here, h]
        exact Bool.false_ne_true
      rw [get?_cons, get?_cons, if_neg differs, if_neg differs]
    · rw [get?_cons, get?_cons, ih]

namespace Store

/-- The object in which a frame binds names. -/
def bindingsOf? (s : Store) (frame : FrameRef) : Option ObjectRef :=
  s.frames[frame]?.map FrameCell.bindings

/-- Two frames **share their bindings** if they bind names in the same object. A frame shares them
with itself, and with another only if both were opened over an object of the host. -/
def Shares (s : Store) (frame other : FrameRef) : Prop :=
  ∃ ref, s.bindingsOf? frame = some ref ∧ s.bindingsOf? other = some ref

/-- A store comes of another **by writing a name in a frame**. -/
structure Writes (s s' : Store) (w : FrameRef) (name : Text) (v : Value) : Prop where
  /-- Nothing but objects has been changed, -/
  elsewhere : s' = { s with objects := s'.objects }
  /-- and of these only what stands under the name in the bindings of the frame. -/
  kept : ∀ ref key, (s.bindingsOf? w = some ref → (bindingKey name).same key = false) →
    (s'.entries ref).get? key = (s.entries ref).get? key
  /-- The name is bound there to what was written. -/
  bound : ∀ frame, s.Shares frame w → s'.bound? frame name = some v
  /-- No other binding of any frame is another now, -/
  unbound : ∀ frame other, (s.Shares frame w → other ≠ name) →
    s'.bound? frame other = s.bound? frame other
  /-- and no other name looks otherwise from anywhere. -/
  others : ∀ frame < s.frames.size, ∀ other, other ≠ name →
    s'.lookup frame other = s.lookup frame other
  /-- From the frames from which looking the name up ends where it was written, it is what was
  written, and from all others it looks as before. -/
  seen : ∀ frame < s.frames.size, ∃ b, s'.EndsIn frame name b ∧
    (s.Shares b w → s'.lookup frame name = v) ∧
    (¬ s.Shares b w → s'.lookup frame name = s.lookup frame name)

variable {s : Store} {frame w b : FrameRef} {name other : Text} {v : Value}

theorem shares_self (there : frame < s.frames.size) : s.Shares frame frame := by
  have found : s.bindingsOf? frame = some s.frames[frame].bindings := by
    rw [bindingsOf?, Array.getElem?_eq_getElem there]
    rfl
  exact ⟨_, found, found⟩

/-! ## Binding a name -/

@[simp] theorem frames_define (s : Store) (frame : FrameRef) (name : Text) (v : Value) :
    (s.define frame name v).frames = s.frames := by
  unfold define
  split <;> rfl

namespace IsForest

variable (forest : s.IsForest)
include forest

/-- The frames are a forest as before after a name has been bound. -/
theorem define (w : FrameRef) (name : Text) (v : Value) : (s.define w name v).IsForest := by
  have objects : (s.define w name v).objects.size = s.objects.size := by
    unfold Store.define
    split
    · rfl
    · exact Array.size_setIfInBounds
  refine ⟨fun frame cell found => ?_, fun frame cell found => ?_⟩
  · rw [objects]
    exact forest.bindings frame cell (by rwa [frames_define] at found)
  · exact forest.parents frame cell (by rwa [frames_define] at found)

section Written

variable (there : w < s.frames.size)
include there

/-- What is under a key in an object after a name has been bound. -/
theorem entries_define (name : Text) (v : Value) (ref : ObjectRef) :
    (s.define w name v).entries ref = if s.bindingsOf? w = some ref
      then (s.entries ref).put (bindingKey name) v else s.entries ref := by
  have found : s.frames[w]? = some s.frames[w] := Array.getElem?_eq_getElem there
  have isIn := forest.bindings w _ found
  unfold Store.define bindingsOf?
  rw [found]
  simp only [Option.map_some, Option.some.injEq, setEntries, entries,
    Array.getD_eq_getD_getElem?, Array.getElem?_setIfInBounds, isIn, if_true]
  split <;> rename_i same <;> simp [same]

/-- **Where a name is bound**, it is bound for all frames that share the bindings, -/
theorem bound?_define_of_shares (name : Text) (v : Value) (shares : s.Shares frame w) :
    (s.define w name v).bound? frame other =
      if other = name then some v else s.bound? frame other := by
  obtain ⟨ref, here, written⟩ := shares
  obtain ⟨cell, found, rfl⟩ := Option.map_eq_some_iff.mp here
  simp only [bound?, Store.bindings, frames_define, found, Option.map_some, Option.getD_some]
  rw [forest.entries_define there, if_pos written, Entries.get?_put]

/-- and for no others. -/
theorem bound?_define_of_not_shares (name : Text) (v : Value) (apart : ¬ s.Shares frame w) :
    (s.define w name v).bound? frame other = s.bound? frame other := by
  cases found : s.frames[frame]? with
  | none => simp [bound?, Store.bindings, found]
  | some cell =>
    have here : s.bindingsOf? frame = some cell.bindings := by rw [bindingsOf?, found]; rfl
    simp only [bound?, Store.bindings, frames_define, found, Option.map_some, Option.getD_some]
    rw [forest.entries_define there, if_neg fun written => apart ⟨_, here, written⟩]

/-- A name that is bound is bound by all frames that share the bindings. -/
theorem binds_define_of_shares (name : Text) (v : Value) (shares : s.Shares frame w) :
    (s.define w name v).binds frame name = true := by
  rw [binds_eq, forest.bound?_define_of_shares there name v shares, if_pos rfl]
  rfl

theorem binds_define_of_not_shares (name : Text) (v : Value) (apart : ¬ s.Shares frame w) :
    (s.define w name v).binds frame other = s.binds frame other := by
  rw [binds_eq, binds_eq, forest.bound?_define_of_not_shares there name v apart]

theorem bound?_define_of_ne (name : Text) (v : Value) (differs : other ≠ name)
    (frame : FrameRef) : (s.define w name v).bound? frame other = s.bound? frame other := by
  by_cases shares : s.Shares frame w
  · rw [forest.bound?_define_of_shares there name v shares, if_neg differs]
  · exact forest.bound?_define_of_not_shares there name v shares

/-- Where looking the name up ends apart from where it has been written, it ends as before: all
that is passed on the way is apart from it too. -/
theorem endsIn_of_not_shares (ends : (s.define w name v).EndsIn frame name b)
    (apart : ¬ s.Shares b w) : s.EndsIn frame name b := by
  obtain ⟨way, isWay, ends⟩ := ends
  -- Writing has taken no binding away, so what is free of the name now was free of it before.
  have passed {h : FrameRef} (free : ¬ (s.define w name v).binds h name = true) :
      ¬ s.binds h name = true := by
    by_cases shares : s.Shares h w
    · exact absurd (forest.binds_define_of_shares there name v shares) free
    · rwa [← forest.binds_define_of_not_shares there name v shares]
  refine ⟨way, isWay.congr (frames_define s w name v).symm, ?_⟩
  rcases Option.or_eq_some_iff.mp ends with found | ⟨none, last⟩
  · obtain ⟨binds, near, far, rfl, free⟩ := List.find?_eq_some_iff_append.mp found
    rw [forest.binds_define_of_not_shares there name v apart] at binds
    have first : (near ++ b :: far).find? (s.binds · name) = some b :=
      List.find?_eq_some_iff_append.mpr ⟨binds, near, far, rfl, fun h nearer => by
        simpa using passed (by simpa using free h nearer)⟩
    rw [first]
    rfl
  · have unbound : way.find? (s.binds · name) = .none :=
      List.find?_eq_none.mpr fun h isOn => passed (List.find?_eq_none.mp none h isOn)
    rw [unbound]
    exact last

/-- Other names are looked up as before. -/
theorem lookup_define_of_ne (name : Text) (v : Value) (differs : other ≠ name)
    (isThere : frame < s.frames.size) :
    (s.define w name v).lookup frame other = s.lookup frame other := by
  obtain ⟨b, ends⟩ := forest.exists_endsIn isThere other
  have alike (h : FrameRef) : (s.define w name v).binds h other = s.binds h other := by
    rw [binds_eq, binds_eq, forest.bound?_define_of_ne there name v differs]
  have ends' : (s.define w name v).EndsIn frame other b := by
    obtain ⟨way, isWay, ends⟩ := ends
    exact ⟨way, isWay.congr (frames_define s w name v), by simpa only [alike] using ends⟩
  rw [(forest.define w name v).lookup_eq ends', forest.lookup_eq ends,
    forest.bound?_define_of_ne there name v differs]

/-- The name is what was written if looking it up ends there, and otherwise what it was. -/
theorem lookup_define (ends : (s.define w name v).EndsIn frame name b) :
    (s.Shares b w → (s.define w name v).lookup frame name = v) ∧
      (¬ s.Shares b w → (s.define w name v).lookup frame name = s.lookup frame name) := by
  have looks := (forest.define w name v).lookup_eq ends
  refine ⟨fun shares => ?_, fun apart => ?_⟩
  · rw [looks, forest.bound?_define_of_shares there name v shares, if_pos rfl]
    rfl
  · rw [looks, forest.bound?_define_of_not_shares there name v apart,
      forest.lookup_eq (forest.endsIn_of_not_shares there ends apart)]

/-- **Binding a name** writes it in the frame. -/
theorem writes_define (name : Text) (v : Value) :
    s.Writes (s.define w name v) w name v where
  elsewhere := by
    unfold Store.define
    split <;> rfl
  kept ref key apart := by
    rw [forest.entries_define there]
    split
    · rename_i written
      exact Entries.get?_put_of_not_same (apart written)
    · rfl
  bound frame shares := (forest.bound?_define_of_shares there name v shares).trans (if_pos rfl)
  unbound frame other apart := by
    by_cases shares : s.Shares frame w
    · exact forest.bound?_define_of_ne there name v (apart shares) frame
    · exact forest.bound?_define_of_not_shares there name v shares
  others frame isThere other differs := forest.lookup_define_of_ne there name v differs isThere
  seen frame isThere := by
    obtain ⟨b, ends⟩ := (forest.define w name v).exists_endsIn
      (by rwa [frames_define]) name
    exact ⟨b, ends, forest.lookup_define there ends⟩

/-- From the frame itself the name is seen then. -/
theorem lookup_define_self (name : Text) (v : Value) :
    (s.define w name v).lookup w name = v := by
  obtain ⟨way, isWay⟩ := forest.exists_wayOut there
  have self := shares_self there
  have ends : (s.define w name v).EndsIn w name w := by
    refine ⟨way, isWay.congr (frames_define s w name v), ?_⟩
    -- The frame is the first on its own way, and by now it binds the name.
    obtain ⟨rest, rfl⟩ := isWay.exists_cons
    have first : (w :: rest).find? ((s.define w name v).binds · name) = some w :=
      List.find?_cons_of_pos (forest.binds_define_of_shares there name v self)
    rw [first]
    rfl
  exact (forest.lookup_define there ends).1 self

end Written

/-- **After an assignment** the name is what was assigned. -/
theorem lookup_assign (there : frame < s.frames.size) (ends : s.EndsIn frame name w) (v : Value) :
    (s.assign frame name v).lookup frame name = v := by
  have isThere : frame < (s.define w name v).frames.size := by rwa [frames_define]
  rw [forest.assign_eq ends]
  obtain ⟨b, ends'⟩ := (forest.define w name v).exists_endsIn isThere name
  refine (forest.lookup_define ends.lt_size ends').1 (Classical.byContradiction fun apart => ?_)
  -- Apart from the frame that was written, it would have ended there before as well.
  obtain rfl := ends.unique (forest.endsIn_of_not_shares ends.lt_size ends' apart)
  exact apart (shares_self ends.lt_size)

end IsForest

end Store

/-! ## Scope chains -/

open Store in
/-- **The laws of scope.** In every forest an assignment writes the name in the frame in which
looking it up ends, which is the first on the way outward that binds it, or the outermost; and a
declaration writes it in the frame itself. In either case the name is then seen from the frame.
And at every moment of a run the frames are a forest, and looking outward comes to an end. -/
theorem Program.scope_chains_hold :
    (∀ s : Store, s.IsForest → ∀ frame < s.frames.size, ∀ (name : Text) (v : Value),
      (∃ w, s.EndsIn frame name w ∧ s.Writes (s.assign frame name v) w name v) ∧
      (s.assign frame name v).lookup frame name = v ∧
      s.Writes (s.define frame name v) frame name v ∧
      (s.define frame name v).lookup frame name = v) ∧
    ∀ host : Host, host.KeepsScopes → ∀ (watch : Moment → Bool) (depth : Nat) (source : Text)
      (context : ObjectRef) (s s' : Store), s.IsScoped → context < s.objects.size →
      (evaluateAllWith (Task.watchedTo host watch depth) source context).storeAfter s = s' →
      s'.IsScoped ∧ ∀ frame < s'.frames.size, ∃ way, s'.ComesToEnd frame way := by
  refine ⟨fun s forest frame there name v => ?_, ?_⟩
  · obtain ⟨w, ends⟩ := forest.exists_endsIn there name
    refine ⟨⟨w, ends, ?_⟩, forest.lookup_assign there ends v, forest.writes_define there name v,
      forest.lookup_define_self there name v⟩
    rw [forest.assign_eq ends]
    exact forest.writes_define ends.lt_size name v
  · rintro host hhost watch depth source context s _ hs there rfl
    have hrun := Task.watchedTo_keepsScopes hhost watch depth
    obtain ⟨scopes, -⟩ := evaluateAllWith_keepsScopes hrun source there hs nofun
    exact ⟨scopes, fun frame isThere => scopes.exists_comesToEnd isThere⟩

/-- In a store with one frame everything has its scope. -/
theorem Store.blank_isScoped : Store.blank.IsScoped := by
  have only {frame : FrameRef} {cell : FrameCell} (found : Store.blank.frames[frame]? = some cell) :
      cell = ⟨0, none, false, none⟩ := by
    cases frame with
    | zero => cases found; rfl
    | succ => cases found
  refine ⟨⟨fun frame cell found => ?_, fun frame cell found parent isInside => ?_⟩, ?_⟩
  · rw [only found]
    exact Nat.zero_lt_one
  · rw [only found] at isInside
    cases isInside
  · intro f cell found
    cases found

/-- What is left of a run in which a function assigns to a name of its caller. -/
def Store.afterCall : Store :=
  (Program.evaluateAllWith (Task.watchedTo .callingBack (fun _ => false) 9)
    "var x = 1; function f(y) { x = y } f(2)" 0).storeAfter Store.blank

/-- The frame of the call is there, and the laws hold for it. -/
theorem Program.scope_chains_hold_of_call :
    Store.afterCall.frames.size = 3 ∧ (∃ way, Store.afterCall.ComesToEnd 2 way) ∧
      ∃ w, Store.afterCall.EndsIn 2 "x" w ∧
        Store.afterCall.Writes (Store.afterCall.assign 2 "x" (.int 3)) w "x" (.int 3) := by
  have size : Store.afterCall.frames.size = 3 := by decide +kernel
  have there : 2 < Store.afterCall.frames.size := size ▸ Nat.lt_succ_self 2
  obtain ⟨laws, runs⟩ := scope_chains_hold
  obtain ⟨hs, ends⟩ := runs .callingBack Host.callingBack_keepsScopes _ 9 _ 0 Store.blank
    Store.afterCall Store.blank_isScoped Nat.zero_lt_one rfl
  exact ⟨size, ends 2 there, (laws _ hs.toIsForest 2 there "x" (.int 3)).1⟩

end Scriptlet
