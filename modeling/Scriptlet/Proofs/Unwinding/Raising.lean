import Mathlib.Logic.Relation
import Scriptlet.Proofs.Unwinding.Doing

/-!
# The way of an error

An error is raised by the walk itself, without a position, or by a function of the host, and
then passes through whatever has handed on what it comes out of. Each evaluation that it passes
through sets it at the position of its node, unless it has one by then. So an error that has a
position has passed through an evaluation.

Of the functions of the host this has to be asked, since nothing is known of what they do.
-/

namespace Scriptlet

variable {P : Node → Prop} {host : Host}

/-! ## Hosts -/

/-- A host that **lets errors pass**. -/
structure Host.LetsErrorsPass (P : Node → Prop) (host : Host) : Prop where
  /-- Stores develop under its functions, as long as they do under what these call. -/
  develops : ∀ f run args, (∀ t : Task, t.IsCall → (run t).Keeps (Store.Develops P)) →
    (host f run args).Keeps (Store.Develops P)
  /-- What its functions do depends on calls only. -/
  calls : ∀ f run args s t₀ s₀, (∀ t : Task, t.IsCall → (run t).Keeps (Store.Develops P)) →
    DependsOn (fun run => host f run args) run s t₀ s₀ → t₀.IsCall ∧ s.Develops P s₀
  /-- An error that comes out of one of its functions has no position, or has come out of a call
  as it is. -/
  raises : ∀ f run args s e s', host f run args s = .error (.error e) s' →
    e.position = none ∨ ∃ t₀ s₀, DependsOn (fun run => host f run args) run s t₀ s₀ ∧
      run t₀ s₀ = .error (.error e) s'

/-- A host whose functions are composed of calls lets errors pass. -/
theorem Host.letsErrorsPass_of_composed
    (h : ∀ f args, Composed P Set.univ Task.IsCall fun run => host f run args) :
    host.LetsErrorsPass P where
  develops f _ args hrun := (h f args).keeps (Store.develops_orders P) hrun
  calls f _ args _ _ _ hrun depends := (h f args).handsOn (Store.develops_orders P) hrun depends
  raises f _ args _ _ _ raised := (h f args).raises raised

theorem Host.bare_letsErrorsPass : Host.bare.LetsErrorsPass P :=
  Host.letsErrorsPass_of_composed fun _ _ => .own (.throw nofun)

theorem Host.callingBack_letsErrorsPass : Host.callingBack.LetsErrorsPass P := by
  refine Host.letsErrorsPass_of_composed fun f args => ?_
  cases args with
  | nil => exact .own (.fault _)
  | cons callee args => exact .task trivial

/-! ## Errors -/

/-- The **error of the program** that a step ends with, if it ends with one. -/
def Step.error? (step : Step α) (s : Store) : Option ProgramError :=
  match step s with
  | .error (.error e) _ => some e
  | _ => none

theorem Step.exists_of_error? {step : Step α} {s : Store} {e : ProgramError}
    (h : step.error? s = some e) : ∃ s', step s = .error (.error e) s' := by
  unfold error? at h
  split at h
  · rename_i e s' raised
    cases h
    exact ⟨s', raised⟩
  · cases h

theorem ProgramError.locatedAt_none (e : ProgramError) : e.locatedAt none = e := by
  unfold locatedAt
  rw [Option.or_none]

/-- An error that has a position keeps it. -/
theorem ProgramError.locatedAt_of_isSome {e : ProgramError} (h : e.position.isSome)
    (position : Option Position) : e.locatedAt position = e := by
  unfold locatedAt
  rw [Option.or_of_isSome h]

/-- An error that has none gets the one that it is set at. -/
theorem ProgramError.position_locatedAt {e : ProgramError} (h : e.position = none)
    (position : Option Position) : (e.locatedAt position).position = position := by
  show e.position.or position = position
  rw [h, Option.none_or]

/-! ## Tasks -/

namespace Task

/-- The **position of a task**: that of the node that it evaluates. -/
def position? : Task → Option Position
  | eval n _ => n.position?
  | _ => none

variable {run : Runner} {t : Task} {s s' : Store} {e : ProgramError}

/-- **Where an error of a task comes from**, before it is set at the position of the task. -/
theorem perform_raises (hhost : host.LetsErrorsPass P)
    (raised : t.perform host run s = .error (.error e) s') :
    ∃ e₀, e = e₀.locatedAt t.position? ∧ (e₀.position = none ∨ ∃ t₀ s₀,
      DependsOn (fun run => t.perform host run) run s t₀ s₀ ∧ run t₀ s₀ = .error (.error e₀) s') := by
  cases t with
  | eval n frame => exact Walk.node_raises raised
  | activate f args receiver constructs =>
    exact ⟨e, e.locatedAt_none.symm, Walk.activate_raises raised⟩
  | call callee args =>
    refine ⟨e, e.locatedAt_none.symm, ?_⟩
    cases own : (Task.call callee args).hostCall? with
    | some called =>
      obtain ⟨f, given⟩ := called
      simp only [perform_of_hostCall? own] at raised ⊢
      exact hhost.raises f run given s e s' raised
    | none =>
      have composed : Composed P ∅ _ _ := Walk.hostCall_composed host own
      exact composed.raises raised

theorem runTo_develops (hereditary : Node.Hereditary P) (hhost : host.LetsErrorsPass P) (depth : Nat)
    (isOf : t.IsOf P) : (runTo host depth t).Keeps (Store.Develops P) :=
  runTo_ordered hereditary (Store.develops_orders P)
    (fun f run args hrun => hhost.develops f run args fun t call => hrun t call.isOf) depth isOf

end Task

/-! ## Doings -/

namespace Doing

variable {d e : Doing} {s' : Store} {x : ProgramError}

/-- A doing **evaluates a node.** -/
def Evaluates (d : Doing) (n : Node) : Prop :=
  ∃ frame, d.task = .eval n frame

/-- A doing **is of a sort** of nodes if its task is, and if the functions that there are before
it have bodies of the sort. -/
structure IsOf (P : Node → Prop) (d : Doing) : Prop where
  task : d.task.IsOf P
  start : d.start.HasBodies P

theorem IsOf.evaluates {n : Node} (h : d.IsOf P) (evaluates : d.Evaluates n) : P n := by
  obtain ⟨frame, same⟩ := evaluates
  have task := h.task
  rwa [same] at task

/-- **What is handed on by what is of a sort** is of it. -/
theorem HandsOn.isOf (h : e.HandsOn host d) (hereditary : Node.Hereditary P)
    (hhost : host.LetsErrorsPass P) (he : e.IsOf P) : d.IsOf P := by
  have hrun (t : Task) (isOf : t.IsOf P) : (Task.runTo host d.depth t).Keeps (Store.Develops P) :=
    Task.runTo_develops hereditary hhost d.depth isOf
  have ordered : Store.Orders P Set.univ _ := Store.develops_orders P
  have depends := h.2
  have isOf := he.task
  cases htask : e.task with
  | eval n frame =>
    rw [htask] at depends isOf
    obtain ⟨-, isOf, develops⟩ := Walk.node_handsOn hereditary ordered isOf hrun depends
    exact ⟨isOf, (develops he.start).2⟩
  | activate f args receiver constructs =>
    rw [htask] at depends
    obtain ⟨cell, s₁, found, opened, -, depends⟩ := Walk.activate_dependsOn depends
    have body := he.start f cell found
    obtain ⟨among, develops⟩ := Walk.running_handsOn hereditary ordered hrun body depends
    have opens : (Walk.opening cell args receiver).IsOwn P Set.univ :=
      Walk.opening_isOwn (Set.mem_univ _) args receiver
    have before := (opens.keeps ordered).of_ok opened
    exact ⟨among.isOf (Walk.of_mem_partsOf hereditary body), ((before.trans develops) he.start).2⟩
  | call callee args =>
    rw [htask] at depends
    have calls : d.task.IsCall ∧ e.start.Develops P d.start := by
      cases own : (Task.call callee args).hostCall? with
      | some called =>
        obtain ⟨f, given⟩ := called
        simp only [Task.perform_of_hostCall? own] at depends
        exact hhost.calls f _ given _ _ _ (fun t call => hrun t call.isOf) depends
      | none =>
        exact (Walk.hostCall_composed host own).handsOn ordered
          (fun t call => hrun t call.isOf) depends
    exact ⟨calls.1.isOf, (calls.2 he.start).2⟩

/-- A doing **passes an error on** that comes out of another, which it hands on: it ends with the
error, set at its own position unless the error has one, and in the same store. -/
def PassesOn (host : Host) (s' : Store) (e d : Doing) : Prop :=
  e.HandsOn host d ∧ ∃ x, d.result host = .error (.error x) s' ∧
    e.result host = .error (.error (x.locatedAt e.task.position?)) s'

/-- **Where an error of a doing comes from**: it is raised there without a position, or it is
passed on. -/
theorem raises (hhost : host.LetsErrorsPass P) (raised : d.result host = .error (.error x) s') :
    ∃ x₀, x = x₀.locatedAt d.task.position? ∧
      (x₀.position = none ∨ ∃ d', d.PassesOn host s' d' ∧ d'.result host = .error (.error x₀) s') := by
  obtain ⟨depth, task, start⟩ := d
  cases depth with
  | zero => cases raised
  | succ depth =>
    obtain ⟨x₀, rfl, from?⟩ := Task.perform_raises hhost raised
    refine ⟨x₀, rfl, from?.imp_right fun ⟨t₀, s₀, depends, came⟩ => ?_⟩
    exact ⟨⟨depth, t₀, s₀⟩, ⟨⟨rfl, depends⟩, x₀, came, raised⟩, came⟩

/-- **An error that has a position has passed through an evaluation.** -/
theorem exists_evaluates (hhost : host.LetsErrorsPass P)
    (raised : d.result host = .error (.error x) s') (located : x.position.isSome) :
    ∃ d' n, Relation.ReflTransGen (PassesOn host s') d d' ∧ d'.Evaluates n := by
  induction hdepth : d.depth using Nat.strongRecOn generalizing d x with
  | _ depth ih =>
    by_cases evaluates : ∃ n, d.Evaluates n
    · obtain ⟨n, evaluates⟩ := evaluates
      exact ⟨d, n, .refl, evaluates⟩
    -- Where no node is evaluated the error is as it comes, so it is passed on.
    have nowhere : d.task.position? = none := by
      cases htask : d.task with
      | eval n frame => exact absurd ⟨n, frame, htask⟩ evaluates
      | activate | call => rfl
    obtain ⟨x₀, rfl, from?⟩ := raises hhost raised
    rw [nowhere, x₀.locatedAt_none] at located
    rcases from? with bare | ⟨d', passes, came⟩
    · rw [bare] at located
      cases located
    · have deeper : d'.depth < depth := by
        rw [← hdepth, passes.1.1]
        exact Nat.lt_succ_self _
      obtain ⟨d'', n, way, evaluates⟩ := ih d'.depth deeper came located rfl
      exact ⟨d'', n, .head passes way, evaluates⟩

end Doing

end Scriptlet
