import Scriptlet.Proofs.Shape
import Scriptlet.Proofs.Unwinding.Calling
import Scriptlet.Proofs.Unwinding.Part

/-!
# Running functions

Running a function is the one thing that is not composed, because it takes the returns
that come out of the statements of a body. It opens a frame, marks it as that of a call
and binds names in it; from then on all that it hands on is evaluated in this frame. So
where the body is a block, a return that comes out of one of its statements is what the
call gives, and where it is an expression there is nothing that would take a return.

An error that comes out of a call has come out of a part of the body, or has been raised while
the frame was opened. With this, running tasks keeps marks to every depth.
-/

namespace Scriptlet

/-- What depends on a task and begins with a step of its own depends on it after that. -/
theorem DependsOn.after {step : Step α} {q : α → Runner → Step β} {run : Runner} {s s₀ : Store}
    {t₀ : Task} (h : DependsOn (fun run => step >>= fun a => q a run) run s t₀ s₀) :
    ∃ a s', step s = .ok a s' ∧ DependsOn (q a) run s' t₀ s₀ := by
  obtain ⟨run', agree, differ⟩ := h
  cases hstep : step s with
  | ok a s' =>
    have goesOn (run : Runner) : (step >>= fun a => q a run) s = q a run s' :=
      Step.bind_of_ok hstep
    exact ⟨a, s', rfl, run', agree, fun same =>
      differ ((goesOn run').trans (same.trans (goesOn run).symm))⟩
  | error i s' =>
    exact absurd ((Step.bind_of_error hstep).trans (Step.bind_of_error hstep).symm) differ

namespace Walk

/-! ## Taking returns -/

theorem catchingReturn_of_returned {step : Step Value} {s s' : Store} {v : Value}
    (h : step s = .error (.returned v) s') : catchingReturn step s = .ok v s' := by
  show EStateM.tryCatch step _ s = _
  unfold EStateM.tryCatch
  rw [h]
  rfl

/-- Nothing but returns is taken. -/
theorem catchingReturn_of_error {step : Step Value} {s s' : Store} {i : Interrupt}
    (h : step s = .error i s') (noReturn : ∀ v, i ≠ .returned v) :
    catchingReturn step s = .error i s' := by
  show EStateM.tryCatch step _ s = _
  unfold EStateM.tryCatch
  rw [h]
  cases i with
  | returned v => exact absurd rfl (noReturn v)
  | _ => rfl

/-- An interrupt that is not taken has come out without that. -/
theorem error_of_catchingReturn {step : Step Value} {s s' : Store} {i : Interrupt}
    (h : catchingReturn step s = .error i s') : step s = .error i s' := by
  cases hstep : step s with
  | ok v s₁ =>
    have same : catchingReturn step s = .ok v s₁ := by
      show EStateM.tryCatch step _ s = _
      unfold EStateM.tryCatch
      rw [hstep]
    cases same.symm.trans h
  | error j s₁ =>
    cases j with
    | returned v => cases (catchingReturn_of_returned hstep).symm.trans h
    | _ => exact (catchingReturn_of_error hstep nofun).symm.trans h

theorem catchingReturn_keeps {r : Store → Store → Prop} {step : Step Value} (h : step.Keeps r)
    (trans : ∀ {s s' t}, r s s' → r s' t → r s t) (refl : ∀ s, r s s) :
    (catchingReturn step).Keeps r :=
  .tryCatch h trans fun i => by cases i <;> exact refl

/-- What depends on a task in spite of taking returns depends on it without that. -/
theorem dependsOn_of_catchingReturn {p : Runner → Step Value} {run : Runner} {s s₀ : Store}
    {t₀ : Task} (h : DependsOn (fun run => catchingReturn (p run)) run s t₀ s₀) :
    DependsOn p run s t₀ s₀ := by
  obtain ⟨run', agree, differ⟩ := h
  refine ⟨run', agree, fun same => differ ?_⟩
  show EStateM.tryCatch (p run') _ s = EStateM.tryCatch (p run) _ s
  unfold EStateM.tryCatch
  rw [same]

/-! ## The parts of a call -/

/-- Opens the frame of a call, and binds the parameters and the receiver in it. -/
def opening (cell : FunctionCell) (args : List Value) (receiver : Option Value) :
    Step FrameRef := do
  let frame ← Step.make (·.openInner cell.scope)
  modify fun s => s.markFunction frame
  bindParameters frame cell.params args
  bindReceiver frame cell.kind receiver
  Step.remark .call
    ("call " ++ cell.describe ++ " with " ++ Text.ofNat args.length ++ " args")
  return frame

/-- Runs what a function has as its body. -/
def running (run : Runner) (body : Node) (constructs : Bool) (frame : FrameRef) : Step Value :=
  match body with
  | .branch .block _ statements => Walk.body run statements frame constructs
  | expression => run (.eval expression frame)

variable {run run' : Runner} {f : FunctionRef} {args : List Value} {receiver : Option Value}
  {constructs : Bool} {s s₀ : Store} {t₀ : Task} {cell : FunctionCell}

/-- **A call consists of two parts.** -/
theorem activate_of_some (found : s.functions[f]? = some cell) :
    activate run f args receiver constructs s =
      (opening cell args receiver >>= running run cell.body constructs) s := by
  have look : (MonadState.get : Step Store) s = .ok s s := rfl
  unfold activate
  rw [Step.bind_of_ok look]
  simp only [found, opening, bind_assoc, pure_bind]
  rfl

theorem activate_of_none (missing : s.functions[f]? = none) :
    activate run f args receiver constructs s = .ok .undefined s := by
  have look : (MonadState.get : Step Store) s = .ok s s := rfl
  unfold activate
  rw [Step.bind_of_ok look]
  simp only [missing]
  rfl

/-! ### Opening a frame -/

section Opening

variable {P : Node → Prop} {known : Set FrameRef}

/-- What follows the mark of a new frame. -/
theorem opening_isOwn_after (cell : FunctionCell) (args : List Value)
    (receiver : Option Value) (frame : FrameRef) : Step.IsOwn P known (do
      bindParameters frame cell.params args
      bindReceiver frame cell.kind receiver
      Step.remark .call
        ("call " ++ cell.describe ++ " with " ++ Text.ofNat args.length ++ " args")
      return frame : Step FrameRef) :=
  (bindParameters_isOwn frame _ args).bind fun _ =>
    (bindReceiver_isOwn frame _ receiver).bind fun _ =>
      (Step.remark_isOwn _ _).bind fun _ => .pure frame

theorem opening_isOwn {cell : FunctionCell} (isKnown : cell.scope ∈ known) (args : List Value)
    (receiver : Option Value) : (opening cell args receiver).IsOwn P known :=
  (openInner_isOwn isKnown).bind fun frame =>
    .bind (.change fun _ => .markFunction frame) fun _ =>
      opening_isOwn_after cell args receiver frame

end Opening

/-- **The frame of a call** gets the next place, and is marked. -/
theorem opening_marks {frame : FrameRef} {s' : Store}
    (opened : opening cell args receiver s = .ok frame s') :
    frame = s.frames.size ∧ frame ∈ s'.marks := by
  obtain ⟨own, s₁, made, opened⟩ := Step.of_bind_ok opened
  obtain ⟨_, s₂, marked, opened⟩ := Step.of_bind_ok opened
  -- The frame is marked before anything is bound in it, and stays marked after.
  have after : Step.IsOwn (fun _ => True) ∅ _ := opening_isOwn_after cell args receiver own
  have kept : s₂.marks ⊆ s'.marks := (after.keeps Store.marks_orders).of_ok opened
  obtain ⟨_, s₃, -, opened⟩ := Step.of_bind_ok opened
  obtain ⟨_, s₄, -, opened⟩ := Step.of_bind_ok opened
  obtain ⟨_, s₅, -, opened⟩ := Step.of_bind_ok opened
  obtain rfl : own = frame := by cases opened; rfl
  obtain rfl : s₁.markFunction own = s₂ := by cases marked; rfl
  obtain ⟨rfl, there⟩ : own = s.frames.size ∧ own < s₁.frames.size := by
    cases made
    exact ⟨rfl, by simp⟩
  exact ⟨rfl, kept (Store.mem_marks_markFunction there)⟩

/-! ### Running a body -/

/-- **The parts of a body** that a call evaluates in its frame: the statements of a block, or
else the expression itself. -/
def partsOf : Node → List Node
  | .branch .block _ statements => statements
  | expression => [expression]

/-- The part of a block that a return is taken out of. -/
theorem untilFailure_constructs_composed {P : Node → Prop} {known : Set FrameRef}
    (statements : List Node) (constructs : Bool) (frame : FrameRef) :
    Composed P known (Task.IsAmong statements frame) fun run => (do
      match ← untilFailure run frame .undefined statements with
      | .failure => return .failure
      | v => return if constructs then .undefined else v : Step Value) :=
  .andThen (untilFailure_composed statements _ fun _ h => h) fun v =>
    .unlessFailure v (.pure _) (.pure _)

section Keeping

variable {P : Node → Prop} (hereditary : Node.Hereditary P) {r : Store → Store → Prop}
include hereditary

theorem of_mem_partsOf {body : Node} (h : P body) : ∀ n ∈ partsOf body, P n := by
  unfold partsOf
  split
  · exact hereditary _ h
  · exact List.forall_mem_singleton.mpr h

section Body

variable {known : Set FrameRef} {frame : FrameRef} (hr : Store.Orders P known r)
  (isKnown : frame ∈ known) (hrun : ∀ t, t.StaysIn frame → t.IsOf P → (run t).Keeps r)
include hr isKnown hrun

theorem body_keeps {statements : List Node} (h : ∀ n ∈ statements, P n) (constructs : Bool) :
    (body run statements frame constructs).Keeps r := by
  have composed : Composed P known _ _ :=
    untilFailure_constructs_composed statements constructs frame
  refine ((hoist_isOwn hereditary h isKnown).keeps hr).bindOf hr.trans fun _ _ _ _ => ?_
  have kept := composed.keeps hr fun t among => hrun t among.staysIn (among.isOf h)
  exact catchingReturn_keeps kept hr.trans hr.refl

theorem running_keeps {body : Node} (h : P body) (constructs : Bool) :
    (running run body constructs frame).Keeps r := by
  unfold running
  split
  · exact body_keeps hereditary hr isKnown hrun (hereditary _ h) constructs
  · exact hrun (.eval _ frame) rfl h

end Body

/-- **Running a function** keeps a relation if the runner does. -/
theorem activate_keeps (hr : Store.Orders P Set.univ r) (hrun : ∀ t, t.IsOf P → (run t).Keeps r)
    (f : FunctionRef) (args : List Value) (receiver : Option Value) (constructs : Bool) :
    (activate run f args receiver constructs).Keeps r := by
  intro s
  refine hr.given fun bodies => ?_
  cases found : s.functions[f]? with
  | none =>
    unfold Step.storeAfter
    rw [activate_of_none found]
    exact hr.refl s
  | some cell =>
    have parts := ((opening_isOwn (Set.mem_univ cell.scope) args receiver).keeps hr).bindOf hr.trans
      fun frame _ _ _ => running_keeps hereditary hr (Set.mem_univ frame) (fun t _ => hrun t)
        (bodies f cell found) constructs
    have kept := parts s
    unfold Step.storeAfter at kept ⊢
    rw [activate_of_some found]
    exact kept

end Keeping

/-! ## What a call depends on -/

/-- A body that is no block is composed: it is handed on as it is. -/
theorem running_composed {P : Node → Prop} {known : Set FrameRef} {body : Node}
    (expression : body.isOf .block = false) (constructs : Bool) (frame : FrameRef) :
    Composed P known (Task.IsAmong (partsOf body) frame) fun run =>
      running run body constructs frame := by
  have parts : partsOf body = [body] := by
    unfold partsOf
    split
    · cases expression
    · rfl
  have alone (run : Runner) : running run body constructs frame = run (.eval body frame) := by
    unfold running
    split
    · cases expression
    · rfl
  simp only [alone]
  exact .task ⟨parts ▸ List.mem_singleton_self body, rfl⟩

variable {body : Node} {frame : FrameRef} {run'' : Runner} {s₁ s' : Store} {i : Interrupt}
  {v : Value} {e : ProgramError}

/-- **What running a body depends on** is one of its parts. -/
theorem running_handsOn {P : Node → Prop} (hereditary : Node.Hereditary P)
    {r : Store → Store → Prop} (hr : Store.Orders P Set.univ r)
    (hrun : ∀ t, t.IsOf P → (run t).Keeps r)
    (h : P body)
    (depends : DependsOn (fun run => running run body constructs frame) run s t₀ s₀) :
    t₀.IsAmong (partsOf body) frame ∧ r s s₀ := by
  have hparts := of_mem_partsOf hereditary h
  cases block : body.isOf .block with
  | false =>
    have composed : Composed P Set.univ _ _ := running_composed block constructs frame
    exact composed.handsOn hr (fun t among => hrun t (among.isOf hparts)) depends
  | true =>
    -- Hoisting hands on nothing, so the difference is made after it, in the statements.
    obtain ⟨position, statements, rfl⟩ := Node.isOf_iff.mp block
    obtain ⟨_, s', hoisted, depends⟩ := depends.after
    have composed : Composed P Set.univ _ _ :=
      untilFailure_constructs_composed statements constructs frame
    obtain ⟨among, kept⟩ := composed.handsOn hr (fun t among => hrun t (among.isOf hparts))
      (dependsOn_of_catchingReturn depends)
    have before := ((hoist_isOwn hereditary hparts (Set.mem_univ _)).keeps hr).of_ok hoisted
    exact ⟨among, hr.trans before kept⟩

/-- Interrupts other than returns are carried out of a body. -/
theorem running_carries
    (depends : DependsOn (fun run => running run body constructs frame) run s t₀ s₀)
    (agree : run.AgreeBut run'' t₀ s₀) (ends : run'' t₀ s₀ = .error i s₁)
    (noReturn : ∀ v, i ≠ .returned v) : running run'' body constructs frame s = .error i s₁ := by
  cases block : body.isOf .block with
  | false =>
    have composed : Composed (fun _ => True) ∅ _ _ := running_composed block constructs frame
    exact composed.carries depends agree ends
  | true =>
    obtain ⟨position, statements, rfl⟩ := Node.isOf_iff.mp block
    obtain ⟨_, s', hoisted, depends⟩ := depends.after
    have composed : Composed (fun _ => True) ∅ _ _ :=
      untilFailure_constructs_composed statements constructs frame
    have carried := composed.carries (dependsOn_of_catchingReturn depends) agree ends
    exact (Step.bind_of_ok hoisted).trans (catchingReturn_of_error carried noReturn)

/-- **A return that comes out of a part of a block is taken**: it is what the block gives. -/
theorem running_catches (block : body.isOf .block = true)
    (depends : DependsOn (fun run => running run body constructs frame) run s t₀ s₀)
    (agree : run.AgreeBut run'' t₀ s₀) (ends : run'' t₀ s₀ = .error (.returned v) s₁) :
    running run'' body constructs frame s = .ok v s₁ := by
  obtain ⟨position, statements, rfl⟩ := Node.isOf_iff.mp block
  obtain ⟨_, s', hoisted, depends⟩ := depends.after
  have composed : Composed (fun _ => True) ∅ _ _ :=
    untilFailure_constructs_composed statements constructs frame
  have carried := composed.carries (dependsOn_of_catchingReturn depends) agree ends
  exact (Step.bind_of_ok hoisted).trans (catchingReturn_of_returned carried)

/-- **Where an error of a body comes from**: it has no position, or it has come out of a part. -/
theorem running_raises (raised : running run body constructs frame s = .error (.error e) s') :
    e.position = none ∨ ∃ t₀ s₀,
      DependsOn (fun run => running run body constructs frame) run s t₀ s₀ ∧
        run t₀ s₀ = .error (.error e) s' := by
  cases block : body.isOf .block with
  | false =>
    have composed : Composed (fun _ => True) ∅ _ _ := running_composed block constructs frame
    exact composed.raises raised
  | true =>
    obtain ⟨position, statements, rfl⟩ := Node.isOf_iff.mp block
    have hoisting : (hoist frame statements).IsOwn (fun _ => True) Set.univ :=
      hoist_isOwn Node.hereditary_true (fun _ _ => trivial) trivial
    cases hoisted : hoist frame statements s with
    | error i s₁ =>
      cases (Step.bind_of_error hoisted).symm.trans raised
      exact .inl (hoisting.bare hoisted)
    | ok _ s₁ =>
      have composed : Composed (fun _ => True) ∅ _ _ :=
        untilFailure_constructs_composed statements constructs frame
      have within := error_of_catchingReturn ((Step.bind_of_ok hoisted).symm.trans raised)
      refine (composed.raises within).imp_right fun ⟨t₀, s₀, depends, came⟩ => ⟨t₀, s₀, ?_, came⟩
      have halted := composed.carries depends (run.interruptedAt_agreeBut t₀ s₀ .halted)
        (run.interruptedAt_self t₀ s₀ .halted)
      refine .of_halts ?_ fun same => by cases same.symm.trans raised
      exact (Step.bind_of_ok hoisted).trans (catchingReturn_of_error halted nofun)

/-- **What a call depends on**, after its frame has been opened and marked. -/
theorem activate_dependsOn
    (depends : DependsOn (fun run => activate run f args receiver constructs) run s t₀ s₀) :
    ∃ cell s', s.functions[f]? = some cell ∧
      opening cell args receiver s = .ok s.frames.size s' ∧ s.frames.size ∈ s'.marks ∧
      DependsOn (fun run => running run cell.body constructs s.frames.size) run s' t₀ s₀ := by
  cases found : s.functions[f]? with
  | none =>
    obtain ⟨run', -, differ⟩ := depends
    exact absurd ((activate_of_none found).trans (activate_of_none found).symm) differ
  | some cell =>
    have parts : DependsOn (fun run => opening cell args receiver >>= fun frame =>
        running run cell.body constructs frame) run s t₀ s₀ := by
      obtain ⟨run', agree, differ⟩ := depends
      exact ⟨run', agree, fun same => differ <|
        (activate_of_some found).trans (same.trans (activate_of_some found).symm)⟩
    obtain ⟨frame, s', opened, depends⟩ := parts.after
    obtain ⟨rfl, marked⟩ := opening_marks opened
    exact ⟨cell, s', rfl, opened, marked, depends⟩

/-- **Where an error of a call comes from**: it has no position, or it has come out of a part of
the body. -/
theorem activate_raises
    (raised : activate run f args receiver constructs s = .error (.error e) s') :
    e.position = none ∨ ∃ t₀ s₀,
      DependsOn (fun run => activate run f args receiver constructs) run s t₀ s₀ ∧
        run t₀ s₀ = .error (.error e) s' := by
  cases found : s.functions[f]? with
  | none => cases (activate_of_none found).symm.trans raised
  | some cell =>
    have parts := (activate_of_some found).symm.trans raised
    cases opened : opening cell args receiver s with
    | error i s₁ =>
      cases (Step.bind_of_error opened).symm.trans parts
      have own : (opening cell args receiver).IsOwn (fun _ => True) Set.univ :=
        opening_isOwn (Set.mem_univ _) args receiver
      exact .inl (own.bare opened)
    | ok frame s₁ =>
      have within := (Step.bind_of_ok opened).symm.trans parts
      refine (running_raises within).imp_right fun ⟨t₀, s₀, depends, came⟩ => ⟨t₀, s₀, ?_, came⟩
      have halted := running_carries depends (run.interruptedAt_agreeBut t₀ s₀ .halted)
        (run.interruptedAt_self t₀ s₀ .halted) nofun
      refine .of_halts ?_ fun same => by cases same.symm.trans raised
      exact (activate_of_some found).trans ((Step.bind_of_ok opened).trans halted)

end Walk

/-! ## Running tasks -/

section Running

variable {P : Node → Prop} (hereditary : Node.Hereditary P) {r : Store → Store → Prop}
  (hr : Store.Orders P Set.univ r) {host : Host}
  (hhost : ∀ f run args, (∀ t, t.IsOf P → (run t).Keeps r) → (host f run args).Keeps r)
include hereditary hr hhost

theorem Task.perform_ordered {run : Runner} (hrun : ∀ t, t.IsOf P → (run t).Keeps r) {t : Task}
    (isOf : t.IsOf P) : (t.perform host run).Keeps r := by
  cases t with
  | eval n frame => exact Walk.node_keeps hereditary hr isOf hrun
  | activate f args receiver constructs =>
    exact Walk.activate_keeps hereditary hr hrun f args receiver constructs
  | call callee args =>
    cases own : (Task.call callee args).hostCall? with
    | some called =>
      obtain ⟨f, given⟩ := called
      rw [Task.perform_of_hostCall? own]
      exact hhost f run given hrun
    | none =>
      have composed : Composed P Set.univ Task.IsCall fun run =>
          Walk.hostCall host run callee args := Walk.hostCall_composed host own
      exact composed.keeps hr fun t call => hrun t call.isOf

/-- **Running tasks to any depth** keeps a relation between stores, where the nodes and the bodies
of functions are of a sort. -/
theorem Task.runTo_ordered (depth : Nat) {t : Task} (isOf : t.IsOf P) :
    (Task.runTo host depth t).Keeps r := by
  induction depth generalizing t with
  | zero => exact hr.refl
  | succ depth ih => exact Task.perform_ordered hereditary hr hhost (fun t => ih) isOf

end Running

/-- A host whose functions **take no mark away**, as long as the runner does not. -/
def Host.KeepsMarks (host : Host) : Prop :=
  ∀ f run args, (∀ t, (run t).KeepsMarks) → (host f run args).KeepsMarks

/-- Running tasks to any depth keeps marks. -/
theorem Task.runTo_keepsMarks {host : Host} (hhost : host.KeepsMarks) (depth : Nat) (t : Task) :
    (Task.runTo host depth t).KeepsMarks :=
  Task.runTo_ordered Node.hereditary_true Store.marks_orders
    (fun f run args hrun => hhost f run args fun t => hrun t t.isOf_true) depth t.isOf_true

/-- A host whose functions **take no list back**, as long as the runner does not. -/
def Host.KeepsLists (host : Host) : Prop :=
  ∀ f run args, (∀ t, (run t).Keeps fun s s' => s.lists.size ≤ s'.lists.size) →
    (host f run args).Keeps fun s s' => s.lists.size ≤ s'.lists.size

/-- Running tasks to any depth takes no list back. -/
theorem Task.runTo_keepsLists {host : Host} (hhost : host.KeepsLists) (depth : Nat) (t : Task) :
    (Task.runTo host depth t).Keeps fun s s' => s.lists.size ≤ s'.lists.size :=
  Task.runTo_ordered Node.hereditary_true Store.lists_orders
    (fun f run args hrun => hhost f run args fun t => hrun t t.isOf_true) depth t.isOf_true

end Scriptlet
