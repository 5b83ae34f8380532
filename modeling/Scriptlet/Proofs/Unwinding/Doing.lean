import Scriptlet.Proofs.Contract.Task
import Scriptlet.Proofs.Unwinding.Activation

/-!
# What a run does

A run does one task inside another, and a return passes through some of them. So a run is
taken here as the tree of its *doings*: a doing is a task that is done to some depth from
some store, and it has a result. It hands on another doing if what comes of it depends on
that.

A regime is handed down in this tree. Whatever is done is proper and starts from a sound
store, since a runner that halts at everything else would keep the regime too, and then
nothing could be halted. Only of the functions of the host this has to be asked, because they
may go on after they have been halted.
-/

namespace Scriptlet

/-- A **doing**: a task that is done, with the depth to which it is done and the store that
there is before. -/
structure Doing where
  /-- The depth. -/
  depth : Nat
  /-- The task. -/
  task : Task
  /-- The store before. -/
  start : Store

namespace Doing

/-- **What comes of a doing.** -/
def result (host : Host) (d : Doing) : EStateM.Result Interrupt Store Value :=
  Task.runTo host d.depth d.task d.start

/-- A doing **hands on another**, which is done to a depth of one less: what comes of it
depends on that. -/
def HandsOn (host : Host) (e d : Doing) : Prop :=
  e.depth = d.depth + 1 ∧
    DependsOn (fun run => e.task.perform host run) (Task.runTo host d.depth) e.start d.task d.start

/-- What comes of a doing that hands on another is what is done for its task, with a runner
to the depth of the other. -/
theorem HandsOn.result_eq {host : Host} {e d : Doing} (h : e.HandsOn host d) :
    e.result host = e.task.perform host (Task.runTo host d.depth) e.start := by
  unfold result
  rw [h.1]
  rfl

end Doing

/-- What a run of a program **does**: what it depends on, and whatever that hands on. -/
inductive Program.Does (host : Host) (depth : Nat) (program : Node) (frame : FrameRef)
    (s : Store) : Doing → Prop
  /-- What the program hands on by itself. -/
  | statement {t₀ : Task} {s₀ : Store}
    (depends : DependsOn (fun run => runWith run program frame) (Task.runTo host depth) s t₀ s₀) :
    Does host depth program frame s ⟨depth, t₀, s₀⟩
  /-- What is handed on by what it does. -/
  | inside {e d : Doing} (does : Does host depth program frame s e) (hands : e.HandsOn host d) :
    Does host depth program frame s d

/-- **What a run does first** is its first statement. -/
theorem Program.does_first {host : Host} {depth : Nat} {program n : Node} {rest : List Node}
    {frame : FrameRef} {s s' : Store} (first : program.children = n :: rest)
    (prepared : prepare program frame s = .ok () s') :
    Does host depth program frame s ⟨depth, .eval n frame, s'⟩ := by
  refine .statement (.of_interrupts fun run i ends => ?_)
  unfold runWith
  rw [Step.bind_of_ok prepared, first]
  exact Step.bind_of_error ends

/-! ## What is proper -/

section Regime

variable {R : Regime} {run : Runner} {t₀ : Task} {s s₀ : Store}

/-- A task is **proper** in a regime: a node that is evaluated can be walked, its frame is
within reach, and what is handed to a function fits. -/
def Task.Proper (R : Regime) : Task → Prop
  | eval n frame => .frame frame ∉ R.garbage ∧ R.Has Node.isWalked n
  | activate f args receiver _ =>
    (Value.function f).Fits R ∧ (∀ v ∈ args, v.Fits R) ∧ ∀ v, receiver = some v → v.Fits R
  | call callee args =>
    callee.Fits R ∧ (R.plain → callee.isCallable = true) ∧ ∀ v ∈ args, v.Fits R

/-- Where a function of the host is called, there are such, and it is given what fits. -/
theorem Task.Proper.of_hostCall? {t : Task} (proper : t.Proper R) {f : Native} {args : List Value}
    (h : t.hostCall? = some (f, args)) : ¬ R.plain ∧ ∀ v ∈ args, v.Fits R := by
  cases t with
  | eval | activate => cases h
  | call callee given =>
    cases callee with
    | native =>
      cases h
      exact ⟨(Value.fits_native _).mp proper.1, proper.2.2⟩
    | hostMethod _ ref =>
      cases h
      obtain ⟨hp, href⟩ := (Value.fits_hostMethod _ _ _).mp proper.1
      exact ⟨hp, List.forall_mem_cons.mpr ⟨(Value.fits_host ref).mpr ⟨hp, href⟩, proper.2.2⟩⟩
    | _ => cases h

/-- Whether a return may come out of a task. -/
def Task.MayReturn (R : Regime) : Task → Prop
  | eval n frame => R.MayReturn n frame
  | _ => ¬ R.shaped

theorem Runner.Keeps.obeys {t : Task} (hrun : run.Keeps R) (proper : t.Proper R) :
    (run t).Obeys R (t.MayReturn R) s fun _ _ => True := by
  cases t with
  | eval n frame =>
    exact (hrun.eval proper.1 proper.2).mono id fun _ _ _ _ => trivial
  | activate f args receiver constructs =>
    exact (hrun.activate proper.1 proper.2.1 proper.2.2).mono id fun _ _ _ _ => trivial
  | call callee args =>
    exact (hrun.call proper.1 proper.2.1 proper.2.2).mono id fun _ _ _ _ => trivial

/-- A runner that does as another for all that is proper keeps what that keeps. -/
theorem Runner.Keeps.of_agree {run' : Runner} (hrun : run.Keeps R)
    (agree : ∀ t s, R.Sound s → t.Proper R → run' t s = run t s) : run'.Keeps R := by
  constructor
  · intro n frame s reached fits hs
    rw [agree (.eval n frame) s hs ⟨reached, fits⟩]
    exact hrun.eval reached fits hs
  · intro f args receiver constructs s callee arguments subject hs
    rw [agree (.activate f args receiver constructs) s hs ⟨callee, arguments, subject⟩]
    exact hrun.activate callee arguments subject hs
  · intro callee args s fits callable arguments hs
    rw [agree (.call callee args) s hs ⟨fits, callable, arguments⟩]
    exact hrun.call fits callable arguments hs

/-- **What a procedure halts at is proper**, if the procedure obeys the regime. -/
theorem Task.proper_of_halts {p : Runner → Step α} {may : Prop} {P : α → Store → Prop}
    (hrun : run.Keeps R) (hs : R.Sound s)
    (obeys : ∀ run : Runner, run.Keeps R → (p run).Obeys R may s P)
    (halts : ∀ run' : Runner, run.AgreeBut run' t₀ s₀ → run' t₀ s₀ = .error .halted s₀ →
      p run' s = .error .halted s₀) : R.Sound s₀ ∧ t₀.Proper R := by
  -- A runner that halts there and nowhere else does all that is proper as before, so it keeps the
  -- regime as well. Then the procedure, which obeys, does not halt.
  refine Classical.byContradiction fun improper => ?_
  have agree := run.interruptedAt_agreeBut t₀ s₀ .halted
  have keeps : (run.interruptedAt t₀ s₀ .halted).Keeps R := hrun.of_agree fun t s hs proper =>
    agree t s fun here => improper ⟨here.2 ▸ hs, here.1 ▸ proper⟩
  have ends := obeys _ keeps hs
  rw [halts _ agree (run.interruptedAt_self t₀ s₀ .halted)] at ends
  exact ends.2

/-! ## Hosts -/

/-- A host that **leaves calls alone**. -/
structure Host.LeavesCallsAlone (R : Regime) (host : Host) : Prop where
  /-- It keeps the regime: no return comes out of its functions, as long as none comes out of
  what they call. -/
  keeps : host.Keeps R
  /-- It takes no mark away from a frame. -/
  marks : host.KeepsMarks
  /-- What its functions do, where there are any, depends on the runner only for calls, of what
  fits. -/
  calls : ¬ R.plain → ∀ f run run' args s, run.Keeps R → R.Sound s → (∀ v ∈ args, v.Fits R) →
    (∀ t s, t.IsCall → R.Sound s → t.Proper R → run' t s = run t s) →
      host f run' args s = host f run args s

/-- A host whose functions **call their first argument** with the others. -/
def Host.callingBack : Host := fun _ run args =>
  match args with
  | callee :: args => run (.call callee args)
  | [] => Step.fault .wrongType

/-- Calling back is leaving calls alone. -/
theorem Host.callingBack_leavesCallsAlone (R : Regime) : Host.callingBack.LeavesCallsAlone R where
  keeps hplain _ run args s hrun hargs := by
    cases args with
    | nil => exact .fault hplain
    | cons callee args =>
      exact hrun.call (hargs callee List.mem_cons_self) (fun hp => absurd hp hplain)
        fun v hv => hargs v (List.mem_cons_of_mem _ hv)
  marks _ run args hrun := by
    cases args with
    | nil =>
      have own : Step.IsOwn (fun _ => True) ∅ (Step.fault .wrongType : Step Value) :=
        .fault .wrongType
      exact own.keepsMarks
    | cons callee args => exact hrun _
  calls hplain _ _ _ args s _ hs hargs agree := by
    cases args with
    | nil => rfl
    | cons callee args =>
      exact agree (.call callee args) s trivial hs ⟨hargs callee List.mem_cons_self,
        fun hp => absurd hp hplain, fun v hv => hargs v (List.mem_cons_of_mem _ hv)⟩

/-! ## Regimes are handed down -/

variable {host : Host} {d e : Doing}

/-- Unless it is a function of the host that is called, a task that depends on another is halted
by it. -/
theorem Task.perform_halts {t : Task} {run' : Runner} {s₁ : Store} (own : t.hostCall? = none)
    (depends : DependsOn (fun run => t.perform host run) run s t₀ s₀)
    (agree : run.AgreeBut run' t₀ s₀) (halts : run' t₀ s₀ = .error .halted s₁) :
    t.perform host run' s = .error .halted s₁ := by
  cases t with
  | eval n frame =>
    exact Walk.node_carries (Walk.dependsOn_of_node depends) agree halts nofun
  | activate f args receiver constructs =>
    obtain ⟨cell, s', found, opened, -, depends⟩ := Walk.activate_dependsOn depends
    exact (Walk.activate_of_some found).trans <| (Step.bind_of_ok opened).trans <|
      Walk.running_carries depends agree halts nofun
  | call callee args =>
    have composed : Composed (fun _ => True) ∅ _ _ :=
      Walk.hostCall_composed host own
    exact composed.carries depends agree halts

/-- **What is handed on by what is proper is proper.** -/
theorem Doing.HandsOn.proper (h : e.HandsOn host d) (hhost : host.LeavesCallsAlone R)
    (hs : R.Sound e.start) (proper : e.task.Proper R) : R.Sound d.start ∧ d.task.Proper R := by
  have hrun : Runner.Keeps R (Task.runTo host d.depth) := Task.runTo_keeps hhost.keeps d.depth
  cases own : e.task.hostCall? with
  | some called =>
    -- A function of the host need not be composed: that it leaves calls alone is used.
    obtain ⟨f, args⟩ := called
    obtain ⟨-, run', agree, differ⟩ := h
    obtain ⟨hp, hargs⟩ := proper.of_hostCall? own
    simp only [Task.perform_of_hostCall? own] at differ
    refine Classical.byContradiction fun improper => differ ?_
    exact hhost.calls hp f _ run' args e.start hrun hs hargs
      fun t s _ hs proper => agree t s fun here => improper ⟨here.2 ▸ hs, here.1 ▸ proper⟩
  | none =>
    refine Task.proper_of_halts hrun hs
      (fun run hrun => (Task.perform_keeps hhost.keeps hrun).obeys proper)
      fun run' agree halts => ?_
    exact Task.perform_halts own h.2 agree halts

/-- What the program hands on by itself is evaluated in its frame. -/
theorem Program.runWith_composed {P : Node → Prop} {known : Set FrameRef}
    (hereditary : Node.Hereditary P) {program : Node} (h : P program) {frame : FrameRef}
    (isKnown : frame ∈ known) :
    Composed P known (Task.IsAmong program.children frame) fun run =>
      runWith run program frame := by
  have inTurn (nodes : List Node) (h : ∀ n ∈ nodes, n ∈ program.children) :
      Composed P known (Task.IsAmong program.children frame) fun run =>
        runStatements run frame nodes := by
    induction nodes with
    | nil => exact .pure _
    | cons n rest ih =>
      exact .andThen (.task ⟨h n List.mem_cons_self, rfl⟩) fun _ =>
        .andThen (ih fun m hm => h m (List.mem_cons_of_mem _ hm)) fun _ => .pure _
  have prepares : (prepare program frame).IsOwn P known :=
    .bind (.changeElsewhere fun _ => ⟨rfl, rfl, .of_eq rfl, Nat.le_refl _⟩) fun _ =>
      (Walk.hoist_isOwn hereditary (hereditary _ h) isKnown).bind fun _ => Step.remark_isOwn _ _
  exact .after prepares fun _ => inTurn program.children fun _ h => h

/-- **Whatever a run does is proper**, if it starts soundly. -/
theorem Program.Does.proper {depth : Nat} {program : Node} {frame : FrameRef}
    (does : Program.Does host depth program frame s d) (hhost : host.LeavesCallsAlone R)
    (hs : R.Sound s) (reached : .frame frame ∉ R.garbage)
    (statements : ∀ n ∈ program.children, R.Has Node.isStatement n) :
    R.Sound d.start ∧ d.task.Proper R := by
  induction does with
  | statement depends =>
    refine Task.proper_of_halts (Task.runTo_keeps hhost.keeps depth) hs
      (fun run hrun => Program.runWith_obeys hrun reached statements) fun run' agree halts => ?_
    exact (runWith_composed Node.hereditary_true trivial (Set.mem_univ frame)).carries depends
      agree halts
  | inside _ hands ih => exact hands.proper hhost ih.1 ih.2

end Regime

end Scriptlet
