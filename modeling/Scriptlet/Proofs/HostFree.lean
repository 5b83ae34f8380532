import Mathlib.Data.Set.Insert
import Scriptlet.Proofs.Conformance
import Scriptlet.Proofs.Contract.Task

/-!
# Programs without a host

A program that is run in a context of mere data has nothing of the host to call. What
ends its run early is then an error of the language, or the depth is used up, or the
machine below the language is asked for more than it can give. There is no other fault:
no operation meets a value of a type that it is not defined for, no division fails, no
index is out of range, and no part of a node is missing.

The last of these ends is not always kept from programs, though. Some methods look
whether a count can be met before they ask for it, and others do not.
-/

namespace Scriptlet

/-- A value is **data** if it is nothing that can be called and nothing of the host. -/
def Value.isData : Value → Bool
  | undefined | null | bool _ | number _ | text _ | list _ | object _ => true
  | _ => false

/-- Only **data can be reached** from an object. -/
def Store.HoldsDataFrom (s : Store) (context : ObjectRef) : Prop :=
  ∀ p, s.Reaches (.object context) p → ∀ v ∈ s.held p, v.isData = true

section Ends

variable {r : EStateM.Result Interrupt Store α} {d : Demand}

end Ends

/-! ## Contexts of data -/

section Data

variable {s : Store} {context : ObjectRef}

/-- Data consists of itself alone. -/
theorem Value.eq_of_holds_data {v w : Value} (h : v.isData = true) (holds : v.Holds w) : w = v :=
  (holds_iff_eq (by cases v <;> first | rfl | cases h)).mp holds

/-- Data names no sites but lists and objects. -/
theorem Value.names_of_data {v : Value} {p : Site} (h : v.isData = true) (names : v.Names p) :
    (∃ ref, p = .list ref) ∨ ∃ ref, p = .object ref := by
  obtain ⟨w, holds, site⟩ := names
  obtain rfl := eq_of_holds_data h holds
  cases w with
  | list ref => exact .inl ⟨ref, (Option.some.inj site).symm⟩
  | object ref => exact .inr ⟨ref, (Option.some.inj site).symm⟩
  | undefined | null | bool | number | text => cases site
  | _ => cases h

/-- From an object one gets **to lists and objects only**. -/
def Store.ReachesDataOnly (s : Store) (context : ObjectRef) : Prop :=
  ∀ p, s.Reaches (.object context) p → (∃ ref, p = .list ref) ∨ ∃ ref, p = .object ref

/-- So it is where all values within reach name lists and objects only. -/
theorem Store.reachesDataOnly_of_names (h : ∀ p, s.Reaches (.object context) p → ∀ v ∈ s.held p,
    ∀ q, v.Names q → (∃ ref, q = .list ref) ∨ ∃ ref, q = .object ref) :
    s.ReachesDataOnly context := by
  intro p reaches
  induction reaches with
  | refl => exact .inr ⟨context, rfl⟩
  | tail before leads ih =>
    rename_i q r
    cases leads with
    | value held names => exact h q before _ held r names
    | scope found => rcases ih with ⟨_, same⟩ | ⟨_, same⟩ <;> cases same
    | bindings found => rcases ih with ⟨_, same⟩ | ⟨_, same⟩ <;> cases same
    | parent found inside => rcases ih with ⟨_, same⟩ | ⟨_, same⟩ <;> cases same

/-- From a context of data one gets to lists and objects only. -/
theorem Store.HoldsDataFrom.reached (h : s.HoldsDataFrom context) {p : Site}
    (reaches : s.Reaches (.object context) p) :
    (∃ ref, p = .list ref) ∨ ∃ ref, p = .object ref :=
  reachesDataOnly_of_names (fun q reached v hv _ names => Value.names_of_data (h q reached v hv) names)
    p reaches

/-- The frame that a run is opened in. -/
theorem Store.getElem?_openFrame {source : Option Text} :
    (s.openFrame context none source).2.frames[(s.openFrame context none source).1]? =
      some ⟨context, none, false, source.or none⟩ :=
  Array.getElem?_push_size

/-- What can be reached from the frame of a run is the frame itself and what could be
reached from the context. -/
theorem Store.ReachesDataOnly.reached_openFrame (h : s.ReachesDataOnly context)
    {source : Option Text} {p : Site}
    (reaches : (s.openFrame context none source).2.Reaches
      (.frame (s.openFrame context none source).1) p) :
    p = .frame (s.openFrame context none source).1 ∨ s.Reaches (.object context) p := by
  induction reaches with
  | refl => exact .inl rfl
  | tail before leads ih =>
    refine .inr ?_
    rcases ih with rfl | ih
    · cases leads with
      | value held names => cases held
      | bindings found =>
        obtain rfl := Option.some.inj (found.symm.trans getElem?_openFrame)
        exact .refl
      | parent found inside =>
        obtain rfl := Option.some.inj (found.symm.trans getElem?_openFrame)
        cases inside
    · -- What is reached in a context of data is no frame, so opening one changes nothing.
      rcases h _ ih with ⟨ref, rfl⟩ | ⟨ref, rfl⟩
      · cases leads with
        | value held names => exact ih.tail (.value held names)
      · cases leads with
        | value held names => exact ih.tail (.value held names)

end Data

/-- A run in a context of data **starts soundly**, whatever is taken for granted. -/
theorem Store.HoldsDataFrom.sound {s : Store} {context : ObjectRef} (h : s.HoldsDataFrom context)
    (source : Option Text) :
    let frame := (s.openFrame context none source).1
    let start := (s.openFrame context none source).2
    (Regime.ofStart True True True {frame} {.frame frame} start).Sound start := by
  refine Regime.sound_start ?_ ?_ ?_
  · rintro r rfl p reaches v hv w holds
    rcases Store.ReachesDataOnly.reached_openFrame (fun _ => h.reached) reaches with rfl | reached
    · cases hv
    · have data : v.isData = true := h p reached v (by
        rcases h.reached reached with ⟨ref, rfl⟩ | ⟨ref, rfl⟩ <;> exact hv)
      obtain rfl := Value.eq_of_holds_data data holds
      cases w <;> first | exact ⟨fun _ => rfl, fun _ => rfl⟩ | cases data
  · rintro r rfl f cell reaches
    rcases Store.ReachesDataOnly.reached_openFrame (fun _ => h.reached) reaches with same | reached
    · cases same
    · rcases h.reached reached with ⟨_, same⟩ | ⟨_, same⟩ <;> cases same
  · rintro f rfl
    exact ⟨_, getElem?_openFrame, rfl, by simp⟩

namespace Program

/-- Running a text is running the program in it, if there is one, in a new frame. -/
theorem evaluateAllWith_eq (run : Runner) (source : Text) (context : ObjectRef) (s : Store) :
    evaluateAllWith run source context s =
      match parseProgram source with
      | .error e => .error (.malformed e) s
      | .ok program =>
        runWith run program (s.openFrame context none (some source)).1
          (s.openFrame context none (some source)).2 := by
  unfold evaluateAllWith read
  cases parseProgram source <;> rfl

end Program

end Scriptlet
