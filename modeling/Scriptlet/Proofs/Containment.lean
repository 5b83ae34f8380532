import Mathlib.Data.Set.Insert
import Scriptlet.Proofs.Moment

/-!
# Failures are contained

A failure is handed up from part to part while a program is evaluated, and it is never
stored: no variable, no list and no object holds one, no function is handed one, and
none is returned. This holds at every moment of a run and not just at its end, of every
program and of every tree that was put together by hand, however its run ends.
-/

namespace Scriptlet

/-- A value is **clean** if it is no failure and does not consist of one. -/
def Value.IsClean (v : Value) : Prop :=
  ¬ v.Holds .failure

/-- A store is **clean from some sites** if all values are clean that are held by what can be
reached from them. -/
def Store.IsCleanFrom (s : Store) (sites : Set Site) : Prop :=
  ∀ p ∈ sites, ∀ q, s.Reaches p q → ∀ v ∈ s.held q, v.IsClean

/-- A task is clean if no function is handed a failure: not as an argument, not as the
receiver, and not as the value that a method belongs to. -/
def Task.IsClean : Task → Prop
  | eval .. => True
  | activate _ args receiver _ => (∀ v ∈ args, v.IsClean) ∧ ∀ v, receiver = some v → v.IsClean
  | call callee args => callee.IsClean ∧ ∀ v ∈ args, v.IsClean

/-- An interrupt is clean if it returns no failure. -/
def Interrupt.IsClean : Interrupt → Prop
  | returned v => v.IsClean
  | _ => True

/-- A moment is **clean** from some sites if the store is, and if no failure is handed to a
function, given by a function of the host or by a builtin method, or returned. A node that
has been evaluated may give one. -/
def Moment.IsClean (sites : Set Site) : Moment → Prop
  | before task s => s.IsCleanFrom sites ∧ task.IsClean
  | after (.call _ _) v s => s.IsCleanFrom sites ∧ v.IsClean
  | after _ _ s => s.IsCleanFrom sites
  | interrupted _ i s => s.IsCleanFrom sites ∧ i.IsClean

/-- A **host that hands out no failure**, in a run from some sites of a store: as long as
what its functions are given and can reach is clean, so is what they give and leave. -/
def Host.HandsOutNoFailure (host : Host) (roots : Set Site) (s : Store) : Prop :=
  host.Keeps (.ofStart True False False ∅ roots s)

/-! ## From regimes to cleanness -/

section Clean

variable {R : Regime} (clean : R.clean)
include clean

/-- Where no failure is stored, values that fit are clean. -/
theorem Value.Fits.isClean {v : Value} (h : v.Fits R) : v.IsClean := fun holds => by
  cases (h .failure holds).1 clean

/-- Where no failure is stored, sound stores are clean from all that is no garbage. -/
theorem Regime.Sound.isCleanFrom {s : Store} (hs : R.Sound s) : s.IsCleanFrom R.garbageᶜ :=
  fun _ hp q reaches v hv => (hs.held q (hs.not_mem_of_reaches hp reaches) v hv).isClean clean

theorem Task.Fits.isClean {task : Task} (h : task.Fits R) : task.IsClean := by
  cases task with
  | eval n frame => trivial
  | activate f args receiver constructs =>
    exact ⟨fun v hv => (h.2.1 v hv).isClean clean, fun v hv => (h.2.2 v hv).isClean clean⟩
  | call callee args => exact ⟨h.1.isClean clean, fun v hv => (h.2 v hv).isClean clean⟩

theorem Interrupt.Fits.isClean {i : Interrupt} {may : Prop} (h : i.Fits R may) : i.IsClean := by
  cases i with
  | returned v => exact h.2.isClean clean
  | _ => trivial

/-- Where no failure is stored, moments that fit are clean. -/
theorem Moment.Fits.isClean {m : Moment} (h : m.Fits R) : m.IsClean R.garbageᶜ := by
  cases m with
  | before task s => exact ⟨h.1.isCleanFrom clean, h.2.isClean clean⟩
  | after task v s =>
    cases task with
    | call callee args => exact ⟨h.1.isCleanFrom clean, h.2.isClean clean⟩
    | eval | activate => exact h.1.isCleanFrom clean
  | interrupted task i s => exact ⟨h.1.isCleanFrom clean, h.2.isClean clean⟩

end Clean

/-! ## Whole runs -/

namespace Program

/-- **Containment.** A run starts from a frame, and from whatever sites the host keeps for
itself, where no failure can be reached. At every moment of it, and at its end, no
failure can be reached from any frame, list, object or function but those that were out
of reach at the start; none is handed to a function or returned, and none is among the
results. -/
theorem contains_failures {host : Host} {program : Node} {frame : FrameRef} {s : Store}
    {roots : Set Site} (start : .frame frame ∈ roots) (clean : s.IsCleanFrom roots)
    (hhost : host.HandsOutNoFailure roots s) (depth : Nat) :
    (∀ m, Passes host depth program frame s m → m.IsClean (s.unreached roots)ᶜ) ∧
      match runWith (Task.runTo host depth) program frame s with
      | .ok results s' => s'.IsCleanFrom (s.unreached roots)ᶜ ∧ ∀ v ∈ results, v.IsClean
      | .error i s' => s'.IsCleanFrom (s.unreached roots)ᶜ ∧ i.IsClean := by
  let R : Regime := .ofStart True False False ∅ roots s
  have sound : R.Sound s := by
    refine Regime.sound_start (fun r hr p reaches v hv w holds => ⟨fun _ => ?_, False.elim⟩)
      (fun _ _ _ _ _ _ => False.elim) (by simp)
    cases w <;> first | rfl | exact absurd holds (clean r hr p reaches v hv)
  have reached : .frame frame ∉ R.garbage := Store.root_not_mem_unreached start
  have shapes : ∀ n ∈ program.children, R.Has Node.isStatement n := fun _ _ => False.elim
  refine ⟨fun m passes => (fits_of_passes hhost sound reached shapes passes).isClean trivial, ?_⟩
  have ends := runWith_obeys (Task.runTo_keeps hhost depth) reached shapes sound
  cases hrun : runWith (Task.runTo host depth) program frame s with
  | ok results s' =>
    rw [hrun] at ends
    exact ⟨ends.1.isCleanFrom trivial, fun v hv => (ends.2 v hv).isClean trivial⟩
  | error i s' =>
    rw [hrun] at ends
    exact ⟨ends.1.isCleanFrom trivial, ends.2.isClean trivial⟩

/-- The list `[null.x]`, in which the element fails, evaluated where nothing is bound. -/
theorem contains_failures_of_null_member :
    let program : Node := .branch .program none [.branch .expressionStatement none
      [.branch .array none [.branch .member none
        [.branch .literal none [.leaf .nullWord "null" ⟨1, none⟩],
         .leaf .identifier "x" ⟨1, none⟩]]]]
    let roots : Set Site := {.frame 0}
    .frame 0 ∈ roots ∧ Store.blank.IsCleanFrom roots ∧
      Host.bare.HandsOutNoFailure roots Store.blank ∧
      (∀ m, Passes .bare 9 program 0 Store.blank m → m.IsClean (Store.blank.unreached roots)ᶜ) ∧
      match runWith (Task.runTo .bare 9) program 0 Store.blank with
      | .ok results s' => s'.IsCleanFrom (Store.blank.unreached roots)ᶜ ∧ ∀ v ∈ results, v.IsClean
      | .error i s' => s'.IsCleanFrom (Store.blank.unreached roots)ᶜ ∧ i.IsClean := by
  have clean : Store.blank.IsCleanFrom {.frame 0} := fun _ _ q _ v hv => by
    simp [Store.held_blank q] at hv
  have start : .frame 0 ∈ ({.frame 0} : Set Site) := Set.mem_singleton _
  exact ⟨start, clean, Host.bare_keeps _, contains_failures start clean (Host.bare_keeps _) 9⟩

end Program

/-!
## Failures are warned of

A failure is a value like any other to most of the walk: it is looked for and handed up,
and nothing is said again where it passes. So that none comes out in silence rests on two
things. Where a failure arises, a warning is given. And a failure that comes out has arisen
since the start, because none can be picked up from what is stored.
-/

/-- In the regime that a clean store starts, where no failure is stored, the store is sound. -/
theorem Store.IsCleanFrom.sound {s : Store} {roots : Set Site} (clean : s.IsCleanFrom roots) :
    (Regime.ofStart True False False ∅ roots s).Sound s := by
  refine Regime.sound_start (fun r hr p reaches v hv w holds => ⟨fun _ => ?_, False.elim⟩)
    (fun _ _ _ _ _ _ => False.elim) (fun f hf => absurd hf (Set.notMem_empty f))
  by_cases failure : w = .failure
  · subst failure
    exact absurd holds (clean r hr p reaches v hv)
  · cases w with
    | failure => exact absurd rfl failure
    | _ => rfl

end Scriptlet
