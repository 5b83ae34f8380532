import Scriptlet.Proofs.Moment
import Scriptlet.Proofs.Unwinding.Doing

/-!
# Runs keep scopes

A task that is handed on tells of one frame at most: the one in which a node is to be evaluated.
The frame of a call nobody tells of. It is opened inside the frame in which the function was made,
and that this is there is what the store has to see to. So it is shown of runs that they keep the
scopes of everything, given that the frame is there which they are told of.

A run that is watched may be halted at any moment, and then leaves the store as it is at that
moment. So what is shown of the stores that watched runs leave is true all the time.
-/

namespace Scriptlet

open Store (KeepsScopes)

/-- The **frames that a task tells of**. -/
def Task.frames : Task → Set FrameRef
  | eval _ frame => {frame}
  | _ => ∅

/-- A runner **keeps scopes** if each task does, given the frames that it tells of. -/
def Runner.KeepsScopes (run : Runner) : Prop :=
  ∀ t : Task, (run t).Keeps (Store.KeepsScopes t.frames)

/-- A host whose functions **keep scopes**, as long as what they call does. They are told of no
frame. -/
def Host.KeepsScopes (host : Host) : Prop :=
  ∀ f run args, run.KeepsScopes → (host f run args).Keeps (Store.KeepsScopes ∅)

theorem Host.callingBack_keepsScopes : Host.callingBack.KeepsScopes := by
  intro f run args hrun
  cases args with
  | nil => exact .refl
  | cons callee args => exact hrun (.call callee args)

variable {host : Host} {run : Runner} {frame : FrameRef} {s : Store}

namespace Runner.KeepsScopes

/-- Whatever stays in a frame is told of no other. -/
theorem staysIn (hrun : run.KeepsScopes) {t : Task} (stays : t.StaysIn frame) :
    (run t).Keeps (Store.KeepsScopes {frame}) := by
  cases t with
  | eval n own =>
    obtain rfl : own = frame := stays
    exact hrun (.eval n own)
  | _ => exact fun s => (hrun _ s).mono (Set.empty_subset _)

/-- Calls are told of no frame at all. -/
theorem isCall (hrun : run.KeepsScopes) {t : Task} (call : t.IsCall) :
    (run t).Keeps (Store.KeepsScopes ∅) := by
  cases t with
  | eval => exact call.elim
  | activate f args receiver constructs => exact hrun (.activate f args receiver constructs)
  | call callee args => exact hrun (.call callee args)

end Runner.KeepsScopes

/-! ## Tasks -/

/-- A task that is watched is halted at once, or leaves what it leaves otherwise. -/
theorem Runner.storeAfter_watched (run : Runner) (watch : Moment → Bool) (t : Task) (s : Store) :
    (run.watched watch t).storeAfter s = s
      ∨ (run.watched watch t).storeAfter s = (run t).storeAfter s := by
  unfold Step.storeAfter watched
  by_cases objects : watch (.before t s) = true
  · rw [if_pos objects]
    exact .inl rfl
  · rw [if_neg objects]
    right
    cases run t s with
    | ok v s' =>
      dsimp only
      cases watch (.after t v s') <;> rfl
    | error i s' =>
      dsimp only
      cases watch (.interrupted t i s') <;> rfl

/-- **Being watched makes no difference** to what is kept, whether the watch objects or not. -/
theorem Runner.watched_ordered {r : Store → Store → Prop} (refl : ∀ s, r s s) {t : Task}
    (hrun : (run t).Keeps r) (watch : Moment → Bool) : (run.watched watch t).Keeps r := by
  intro s
  rcases storeAfter_watched run watch t s with same | same
  · rw [same]
    exact refl s
  · rw [same]
    exact hrun s

/-- **Running tasks to any depth** keeps a relation between stores at every moment, where the nodes
and the bodies of functions are of a sort. -/
theorem Task.watchedTo_ordered {P : Node → Prop} (hereditary : Node.Hereditary P)
    {r : Store → Store → Prop} (hr : Store.Orders P Set.univ r)
    (hhost : ∀ f run args, (∀ t, t.IsOf P → (run t).Keeps r) → (host f run args).Keeps r)
    (watch : Moment → Bool) (depth : Nat) {t : Task} (isOf : t.IsOf P) :
    (Task.watchedTo host watch depth t).Keeps r := by
  induction depth generalizing t with
  | zero =>
    have tooDeep : Step.Keeps r (throw .tooDeep : Step Value) := fun s => hr.refl s
    exact Runner.watched_ordered hr.refl tooDeep watch
  | succ depth ih =>
    exact Runner.watched_ordered hr.refl (perform_ordered hereditary hr hhost (fun _ => ih) isOf) watch

section Tasks

variable (hrun : run.KeepsScopes)
include hrun

theorem Walk.node_keepsScopes (n : Node) :
    (node run n frame).Keeps (KeepsScopes {frame}) := by
  have composed : Composed (fun _ => True) {frame} (Task.StaysIn frame) fun run =>
      evaluating run n frame :=
    evaluating_composed Node.hereditary_true trivial (Set.mem_singleton frame)
  rw [node_eq]
  exact (composed.keeps Store.scopes_orders fun _ => hrun.staysIn).locating .trans .refl

theorem Walk.running_keepsScopes (body : Node) (constructs : Bool) :
    (running run body constructs frame).Keeps (KeepsScopes {frame}) :=
  running_keeps Node.hereditary_true Store.scopes_orders (Set.mem_singleton frame)
    (fun _ stays _ => hrun.staysIn stays) trivial constructs

/-- **A call** keeps scopes: the frame in which the function was made is there, and so is the frame
of the call by the time when the body is run. -/
theorem Walk.activate_keepsScopes (f : FunctionRef) (args : List Value) (receiver : Option Value)
    (constructs : Bool) : (activate run f args receiver constructs).Keeps (KeepsScopes ∅) := by
  intro s hs none
  unfold Step.storeAfter
  cases found : s.functions[f]? with
  | none =>
    rw [activate_of_none found]
    exact KeepsScopes.refl s hs none
  | some cell =>
    rw [activate_of_some found]
    -- At first the frame around the function is known, and once that has been opened, only its own.
    have scope : ∀ frame ∈ ({cell.scope} : Set FrameRef), frame < s.frames.size := by
      rintro _ rfl
      exact hs.functions f cell found
    have opens : (opening cell args receiver).IsOwn (fun _ => True) {cell.scope} :=
      opening_isOwn (Set.mem_singleton _) args receiver
    have kept := opens.keeps Store.scopes_orders
    cases opened : opening cell args receiver s with
    | error i s₁ =>
      rw [Step.bind_of_error opened]
      exact kept.of_error opened hs scope
    | ok frame s₁ =>
      rw [Step.bind_of_ok opened]
      obtain ⟨hs₁, frames, objects⟩ := kept.of_ok opened hs scope
      obtain ⟨own, found, -⟩ := Store.mem_marks_iff.mp (opening_marks opened).2
      have there : ∀ other ∈ ({frame} : Set FrameRef), other < s₁.frames.size := by
        rintro _ rfl
        exact (Array.getElem?_eq_some_iff.mp found).1
      obtain ⟨hs₂, frames', objects'⟩ := running_keepsScopes hrun cell.body constructs s₁ hs₁ there
      exact ⟨hs₂, frames.trans frames', objects.trans objects'⟩

theorem Task.perform_keepsScopes (hhost : host.KeepsScopes) (t : Task) :
    (t.perform host run).Keeps (KeepsScopes t.frames) := by
  cases t with
  | eval n frame => exact Walk.node_keepsScopes hrun n
  | activate f args receiver constructs =>
    exact Walk.activate_keepsScopes hrun f args receiver constructs
  | call callee args =>
    cases own : (Task.call callee args).hostCall? with
    | some called =>
      -- What a function of the host does is left to the host.
      obtain ⟨f, given⟩ := called
      rw [perform_of_hostCall? own]
      exact hhost f run given hrun
    | none =>
      have composed : Composed (fun _ => True) ∅ Task.IsCall fun run =>
          Walk.hostCall host run callee args := Walk.hostCall_composed host own
      exact composed.keeps Store.scopes_orders fun _ => hrun.isCall

/-- A runner that is watched keeps scopes if it does otherwise. -/
theorem Runner.watched_keepsScopes (watch : Moment → Bool) : (run.watched watch).KeepsScopes :=
  fun t => watched_ordered .refl (hrun t) watch

end Tasks

/-- **Running tasks to any depth** keeps scopes at every moment. -/
theorem Task.watchedTo_keepsScopes (hhost : host.KeepsScopes) (watch : Moment → Bool)
    (depth : Nat) : Runner.KeepsScopes (Task.watchedTo host watch depth) := by
  induction depth with
  | zero => exact Runner.watched_keepsScopes (fun _ s => KeepsScopes.refl s) watch
  | succ depth ih => exact Runner.watched_keepsScopes (Task.perform_keepsScopes ih hhost) watch

/-! ## Programs -/

namespace Program

/-- **Running a program** keeps scopes, given its frame. -/
theorem runWith_keepsScopes (hrun : run.KeepsScopes) (program : Node) :
    (runWith run program frame).Keeps (KeepsScopes {frame}) :=
  (runWith_composed Node.hereditary_true trivial (Set.mem_singleton frame)).keeps
    Store.scopes_orders fun _ among => hrun.staysIn among.staysIn

/-- **Running a text** in a context that is there keeps scopes. -/
theorem evaluateAllWith_keepsScopes (hrun : run.KeepsScopes) (source : Text) {context : ObjectRef}
    (there : context < s.objects.size) :
    s.KeepsScopes ∅ ((evaluateAllWith run source context).storeAfter s) := by
  unfold Step.storeAfter
  cases parsed : parseProgram source with
  | error e =>
    have reads : read source s = .error (.malformed e) s := by
      rw [read, parsed]
      rfl
    rw [evaluateAllWith, Step.bind_of_error reads]
    exact .refl s
  | ok program =>
    have reads : read source s = .ok program s := by
      rw [read, parsed]
      rfl
    have opens : Step.make (·.openFrame context none (some source)) s =
      .ok s.frames.size (s.openFrame context none (some source)).2 := rfl
    rw [evaluateAllWith, Step.bind_of_ok reads, Step.bind_of_ok opens]
    -- The program is told of one frame, which did not exist before.
    have opened : s.KeepsScopes ∅ (s.openFrame context none (some source)).2 :=
      .newFrame there nofun
    have runs : (runWith run program s.frames.size).Keeps (KeepsScopes {s.frames.size}) :=
      runWith_keepsScopes hrun program
    have known : ({s.frames.size} : Set FrameRef) ⊆ insert s.frames.size ∅ :=
      Set.singleton_subset_iff.mpr (Set.mem_insert _ _)
    refine opened.trans (.of_there ?_ ((runs _).mono known))
    simp [Store.openFrame, Store.newFrame]

end Program

end Scriptlet
