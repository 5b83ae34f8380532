import Scriptlet.Proofs.Contract.Task

/-!
# Moments of a run

What a run does on its way to its end cannot be seen from the end. A *moment* is what
there is just before a task is done, or just after: the task, the store, and what has
come of it. A run is looked at in each of them by *watching* it. The watch is asked at
every moment, down to the innermost task and also where a function of the host calls
back, and it may object, which halts the run. So a moment belongs to a run if a watch
that objects to nothing else halts the run.

Between two moments the walk only goes on by itself: nothing of the program or of the
host is run, and no value is handed to any function.
-/

namespace Scriptlet

/-- A **moment** of a run. -/
inductive Moment where
  /-- A task is about to be done. -/
  | before (task : Task) (s : Store)
  /-- It has given a value. -/
  | after (task : Task) (v : Value) (s : Store)
  /-- It has been interrupted. -/
  | interrupted (task : Task) (i : Interrupt) (s : Store)

/-- A runner **that is watched**: it halts at the moments the watch objects to. -/
def Runner.watched (watch : Moment → Bool) (run : Runner) : Runner := fun task s =>
  if watch (.before task s) then .error .halted s
  else
    match run task s with
    | .ok v s' => if watch (.after task v s') then .error .halted s' else .ok v s'
    | .error i s' => if watch (.interrupted task i s') then .error .halted s' else .error i s'

/-- **Runs a task** to a given depth while it is watched, with all that it needs done. -/
def Task.watchedTo (host : Host) (watch : Moment → Bool) : Nat → Runner
  | 0 => Runner.watched watch fun _ => throw .tooDeep
  | depth + 1 => Runner.watched watch fun task => task.perform host (Task.watchedTo host watch depth)

/-- Whether a run of a program, to a given depth, **passes a moment**: a watch that objects
to no other halts it. -/
def Program.Passes (host : Host) (depth : Nat) (program : Node) (frame : FrameRef) (s : Store)
    (m : Moment) : Prop :=
  ∃ watch : Moment → Bool, (∀ m', watch m' = true → m' = m) ∧
    ∃ s', runWith (Task.watchedTo host watch depth) program frame s = .error .halted s'

/-! ## Watching changes nothing -/

/-- A watch that never objects may as well not be there. -/
theorem Runner.watched_never (run : Runner) : run.watched (fun _ => false) = run := by
  funext task s
  simp only [watched, Bool.false_eq_true, if_false]
  cases run task s <;> rfl

/-- Running a task under such a watch is running it. -/
theorem Task.watchedTo_never (host : Host) (depth : Nat) :
    Task.watchedTo host (fun _ => false) depth = Task.runTo host depth := by
  induction depth with
  | zero => exact Runner.watched_never _
  | succ depth ih =>
    rw [Task.watchedTo, Runner.watched_never, ih]
    rfl

/-- A watch that objects before a task halts the run there. -/
theorem Task.watchedTo_before {host : Host} {watch : Moment → Bool} {task : Task} {s : Store}
    (h : watch (.before task s) = true) (depth : Nat) :
    Task.watchedTo host watch depth task s = .error .halted s := by
  cases depth <;> simp [Task.watchedTo, Runner.watched, h]

/-- A run **passes the moment before its first statement**, if it has one. -/
theorem Program.passes_first {host : Host} {depth : Nat} {program n : Node} {rest : List Node}
    {frame : FrameRef} {s s' : Store} (first : program.children = n :: rest)
    (prepared : prepare program frame s = .ok () s') :
    Passes host depth program frame s (.before (.eval n frame) s') := by
  classical
  let watch : Moment → Bool := fun m => decide (m = .before (.eval n frame) s')
  have halts : Task.watchedTo host watch depth (.eval n frame) s' = .error .halted s' :=
    Task.watchedTo_before (decide_eq_true rfl) depth
  refine ⟨watch, fun m' => of_decide_eq_true, s', ?_⟩
  change EStateM.bind (prepare program frame) _ s = _
  simp only [EStateM.bind, prepared, first]
  change EStateM.bind _ _ s' = _
  simp only [EStateM.bind, halts]

/-! ## Regimes hold at every moment -/

section Regime

variable {R : Regime}

/-- A task **fits a regime** if what it is done with does. -/
def Task.Fits (R : Regime) : Task → Prop
  | eval _ frame => .frame frame ∉ R.garbage
  | activate f args receiver _ =>
    (Value.function f).Fits R ∧ (∀ v ∈ args, v.Fits R) ∧ ∀ v, receiver = some v → v.Fits R
  | call callee args => callee.Fits R ∧ ∀ v ∈ args, v.Fits R

/-- A moment **fits a regime** if the store is sound and what is handed over fits. A value
that is given fits, or is a failure that a warning has been given of. -/
def Moment.Fits (R : Regime) : Moment → Prop
  | before task s => R.Sound s ∧ task.Fits R
  | after (.call _ _) v s => R.Sound s ∧ v.Fits R
  | after _ v s => R.Sound s ∧ R.Yields v s
  | interrupted _ i s => R.Sound s ∧ i.Fits R True

/-- What a watched runner does obeys, if what it watches does and no moment of it that
fits is objected to. -/
theorem Runner.watched_obeys {watch : Moment → Bool} (h : ∀ m, m.Fits R → watch m = false)
    {run : Runner} {task : Task} {may : Prop} {s : Store} {P : Value → Store → Prop}
    (fits : task.Fits R) (obeys : (run task).Obeys R may s P)
    (after : ∀ v s', R.Sound s' → P v s' → (Moment.after task v s').Fits R) :
    (run.watched watch task).Obeys R may s P := by
  intro hs
  have ends := obeys hs
  simp only [watched, h (.before task s) ⟨hs, fits⟩, Bool.false_eq_true, if_false]
  cases hrun : run task s with
  | ok v s' =>
    rw [hrun] at ends
    simp only [h (.after task v s') (after v s' ends.1 ends.2), Bool.false_eq_true, if_false]
    exact ends
  | error i s' =>
    rw [hrun] at ends
    simp only [h (.interrupted task i s') ⟨ends.1, ends.2.mono fun _ => trivial⟩,
      Bool.false_eq_true, if_false]
    exact ends

theorem Runner.watched_keeps {watch : Moment → Bool} (h : ∀ m, m.Fits R → watch m = false)
    {run : Runner} (hrun : run.Keeps R) : (run.watched watch).Keeps R where
  eval reached fits :=
    watched_obeys h reached (hrun.eval reached fits) fun _ _ hs hv => ⟨hs, hv⟩
  activate callee arguments subject :=
    watched_obeys h ⟨callee, arguments, subject⟩ (hrun.activate callee arguments subject)
      fun _ _ hs hv => ⟨hs, hv⟩
  call fits callable arguments :=
    watched_obeys h ⟨fits, arguments⟩ (hrun.call fits callable arguments)
      fun _ _ hs hv => ⟨hs, hv⟩

/-- **A watch that objects to no moment that fits** objects to none at all. -/
theorem Task.watchedTo_keeps {host : Host} (hhost : host.Keeps R) {watch : Moment → Bool}
    (h : ∀ m, m.Fits R → watch m = false) (depth : Nat) :
    Runner.Keeps R (Task.watchedTo host watch depth) := by
  induction depth with
  | zero =>
    exact Runner.watched_keeps h
      ⟨fun _ _ => .throw trivial, fun _ _ _ => .throw trivial, fun _ _ _ => .throw trivial⟩
  | succ depth ih => exact Runner.watched_keeps h (Task.perform_keeps hhost ih)

/-- **Every moment of a run fits**, if the run starts soundly. -/
theorem Program.fits_of_passes {host : Host} (hhost : host.Keeps R) {depth : Nat} {program : Node}
    {frame : FrameRef} {s : Store} {m : Moment} (hs : R.Sound s)
    (reached : .frame frame ∉ R.garbage)
    (h : ∀ n ∈ program.children, R.Has Node.isStatement n)
    (passes : Passes host depth program frame s m) : m.Fits R := by
  obtain ⟨watch, only, s', halted⟩ := passes
  refine Classical.byContradiction fun unfit => ?_
  have quiet : ∀ m', m'.Fits R → watch m' = false := fun m' fits => by
    cases objects : watch m' with
    | false => rfl
    | true => exact absurd (only m' objects ▸ fits) unfit
  have ends := runWith_obeys (Task.watchedTo_keeps hhost quiet depth) reached h hs
  rw [halted] at ends
  exact ends.2

end Regime

end Scriptlet
