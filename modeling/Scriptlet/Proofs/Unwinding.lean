import Scriptlet.Proofs.Unwinding.Doing
import Scriptlet.Proofs.Walkability

/-!
# Returns are caught

A return interrupts the run, and what takes it is the call of the function that the return
is written in. Three things have to come together for that. The mark that the return looks
for is on the frame of a call, which is only so while its statements are run and can be
relied on because marks are kept. Between the call and the return nothing takes the return,
since all there is are blocks and conditional statements of the same body. And a body that
is an expression, whose call would take no return, has none in it: that is a fact of the
grammar.

So the run is followed from task to task. Each evaluation in it takes place either outside
of all calls, in the frame in which the program is run, or in the frame of a call that is
under way, and this is kept by whatever is handed on.
-/

namespace Scriptlet

/-! ## Outside of calls -/

/-- A frame **is outside of all calls**: it belongs to none, and neither do those around
it. -/
inductive Store.IsOutside (s : Store) : FrameRef → Prop
  | intro {frame : FrameRef} {cell : FrameCell} (found : s.frames[frame]? = some cell)
    (unmarked : cell.isFunction = false) (around : ∀ p, cell.parent = some p → s.IsOutside p) :
    s.IsOutside frame

/-- The regime of a run in which trees conform and frames outside of all calls stay so. -/
def Store.callRegime (s : Store) (roots : Set Site) : Regime :=
  .ofStart False True False {frame | s.IsOutside frame} roots s

/-! ## Where returns come from -/

/-- A node **encloses** another that stands in it, and in no function in between: only in
blocks and in conditional statements. -/
inductive Node.Encloses (n : Node) : Node → Prop
  | self : n.Encloses n
  | within {m k : Node} (outer : n.Encloses m)
    (passes : m.isOf .block = true ∨ m.isOf .conditionalStatement = true) (child : k ∈ m.children) :
    n.Encloses k

/-- A statement hands on nothing but its own parts, and the declaration of a function hands
on nothing. -/
theorem Walk.statement_composed {n : Node} (statement : n.isStatement = true) (frame : FrameRef) :
    Composed (fun _ => True) Set.univ (fun t => n.isOf .functionDeclaration = false ∧
      t.IsAmong n.children frame) fun run => evaluating run n frame := by
  cases n with
  | leaf | stray => cases statement
  | branch kind position children =>
    have parts {p : Runner → Step Value}
        (h : Composed (fun _ => True) Set.univ (Task.IsAmong children frame) p)
        (other : (Node.branch kind position children).isOf .functionDeclaration = false) :
        Composed (fun _ => True) Set.univ (fun t =>
          (Node.branch kind position children).isOf .functionDeclaration = false ∧
            t.IsAmong children frame) p :=
      h.mono fun _ among => ⟨other, among⟩
    cases kind with
    | block =>
      exact parts (statements_composed Node.hereditary_true (fun _ _ => trivial) trivial) rfl
    | expressionStatement => exact parts (expressionStatement_composed children) rfl
    | empty => exact .pure _
    | declaration =>
      exact parts (declaration_composed (children.drop 1) fun n hn => List.mem_of_mem_drop hn) rfl
    | functionDeclaration =>
      exact .own (functionDeclaration_isOwn (fun _ _ => trivial) trivial)
    | conditionalStatement => exact parts (conditional_composed children) rfl
    | returnStatement => exact parts (returning_composed children) rfl
    | _ => cases statement

/-- **A return passes only blocks and conditional statements**: other statements have no
part that it may come out of. -/
theorem Node.passes_of_mayReturn {m n : Node} (conforms : m.Conforms)
    (statement : m.isStatement = true) (other : m.isOf .functionDeclaration = false)
    (child : n ∈ m.children) (may : n.mayReturn = true) :
    (m.isOf .block = true ∨ m.isOf .conditionalStatement = true) ∧ n.isStatement = true := by
  have expression (h : n.isExpression = true) : False := by
    rw [mayReturn_eq_false (.inl h)] at may
    cases may
  cases m with
  | leaf | stray => cases statement
  | branch kind position children =>
    have admitted := conforms.admits
    have child : n ∈ children := child
    cases kind with
    | block => exact ⟨.inl rfl, List.all_eq_true.mp admitted n child⟩
    | conditionalStatement =>
      refine ⟨.inr rfl, ?_⟩
      rcases of_mem_twoOrThree admitted child with condition | branch | branch
      · exact (expression condition).elim
      · exact branch
      · exact branch
    | expressionStatement => exact (expression (of_mem_one admitted child)).elim
    | returnStatement => exact (expression (of_mem_upToOne admitted child)).elim
    | empty =>
      rw [List.isEmpty_iff.mp admitted] at child
      cases child
    | declaration =>
      rcases of_mem_oneAndSome admitted child with word | declarator
      · obtain ⟨_, _, rfl, -⟩ := isLeafAmong_iff.mp word
        cases may
      · rw [mayReturn_eq_false (.inr (.inl declarator))] at may
        cases may
    | functionDeclaration => cases other
    | _ => cases statement

/-! ## The way of a return -/

namespace Doing

/-- A doing **runs a function** in a frame that it opens. -/
def Runs (a : Doing) (cell : FunctionCell) (frame : FrameRef) : Prop :=
  ∃ f args receiver constructs, a.task = .activate f args receiver constructs ∧
    a.start.functions[f]? = some cell ∧ frame = a.start.frames.size

/-- A return goes **straight up to a call**: the doings between are evaluations in the frame
of the call, each of which it interrupts, and no other call is among them. -/
inductive Unwinds (host : Host) (frame : FrameRef) (v : Value) (s' : Store) (a : Doing) :
    Doing → Prop
  /-- What the call hands on by itself. -/
  | call {d : Doing} (hands : a.HandsOn host d) : Unwinds host frame v s' a d
  /-- What is handed on by an evaluation that is interrupted. -/
  | within {e d : Doing} {m : Node} (outer : Unwinds host frame v s' a e)
    (evaluates : e.task = .eval m frame) (interrupted : e.result host = .error (.returned v) s')
    (hands : e.HandsOn host d) : Unwinds host frame v s' a d

/-- **A call catches the returns of an evaluation** in its frame: any return that comes out
of it is of a statement of the function, goes straight up to the call, and is what the call
gives. -/
def Catches (host : Host) (a d : Doing) (cell : FunctionCell) (n : Node) (frame : FrameRef) :
    Prop :=
  ∀ v s', d.result host = .error (.returned v) s' →
    n.isStatement = true ∧ cell.body.Encloses n ∧ s'.functionFrame? frame = some frame ∧
      a.Unwinds host frame v s' d ∧ a.result host = .ok v s'

end Doing

/-! ## From task to task -/

section Steps

variable {R : Regime} {host : Host} {d e : Doing} {m : Node} {frame : FrameRef} {v : Value}
  {s' : Store}

/-- A return comes only out of what it may come out of. -/
theorem Doing.mayReturn (hhost : host.LeavesCallsAlone R) (hs : R.Sound d.start)
    (proper : d.task.Proper R) (returned : d.result host = .error (.returned v) s') :
    d.task.MayReturn R := by
  have ends := (Task.runTo_keeps hhost.keeps d.depth).obeys proper hs
  unfold Doing.result at returned
  rw [returned] at ends
  exact ends.2.1

namespace Doing.HandsOn

/-- **An evaluation** hands on calls, and evaluations in the same frame. A return that comes
out of these interrupts it. -/
theorem of_eval (h : e.HandsOn host d) (hmarks : host.KeepsMarks)
    (evaluates : e.task = .eval m frame) :
    d.task.StaysIn frame ∧ e.start.marks ⊆ d.start.marks ∧
      ∀ v s', d.result host = .error (.returned v) s' →
        e.result host = .error (.returned v) s' := by
  have depends := h.2
  rw [h.result_eq]
  rw [evaluates] at depends ⊢
  obtain ⟨stays, -, marks⟩ := Walk.node_handsOn Node.hereditary_true Store.marks_orders trivial
    (fun t _ => Task.runTo_keepsMarks hmarks d.depth t) depends
  exact ⟨stays, marks, fun v s' returned =>
    Walk.node_carries (Walk.dependsOn_of_node depends) (fun _ _ _ => rfl) returned nofun⟩

/-- **The evaluation of a statement** hands on nothing but its parts. -/
theorem of_statement (h : e.HandsOn host d) (hmarks : host.KeepsMarks)
    (evaluates : e.task = .eval m frame) (statement : m.isStatement = true) :
    m.isOf .functionDeclaration = false ∧ d.task.IsAmong m.children frame := by
  have depends := h.2
  rw [evaluates] at depends
  exact ((Walk.statement_composed statement frame).handsOn Store.marks_orders
    (fun t _ => Task.runTo_keepsMarks hmarks d.depth t) (Walk.dependsOn_of_node depends)).1

/-- **A call of the host** hands on calls only. -/
theorem of_call (h : e.HandsOn host d) (hhost : host.LeavesCallsAlone R) (hs : R.Sound e.start)
    (proper : e.task.Proper R) {callee : Value} {args : List Value}
    (calls : e.task = .call callee args) : d.task.IsCall := by
  have depends := h.2
  rw [calls] at depends proper
  cases own : (Task.call callee args).hostCall? with
  | some called =>
    obtain ⟨f, given⟩ := called
    obtain ⟨hp, hargs⟩ := proper.of_hostCall? own
    -- If the task were no call, the runners would agree on all calls.
    obtain ⟨run', agree, differ⟩ := depends
    simp only [Task.perform_of_hostCall? own] at differ
    refine Classical.byContradiction fun other => differ ?_
    exact hhost.calls hp f _ run' given e.start (Task.runTo_keeps hhost.keeps d.depth) hs hargs
      fun t s call _ _ => agree t s fun here => other (here.1 ▸ call)
  | none =>
    have composed : Composed (fun _ => True) ∅ _ _ := Walk.hostCall_composed host own
    exact (composed.handsOn Store.marks_orders
      (fun t _ => Task.runTo_keepsMarks hhost.marks d.depth t) depends).1

/-- **The call of a function** evaluates parts of its body in the frame that it opens, and
catches their returns. -/
theorem of_activate (h : e.HandsOn host d) (shaped : R.shaped) (hhost : host.LeavesCallsAlone R)
    (hs : R.Sound e.start) (proper : e.task.Proper R) {f : FunctionRef} {args : List Value}
    {receiver : Option Value} {constructs : Bool}
    (calls : e.task = .activate f args receiver constructs) :
    ∃ cell n, e.Runs cell e.start.frames.size ∧ d.task = .eval n e.start.frames.size ∧
      e.start.frames.size ∈ d.start.marks ∧ e.Catches host d cell n e.start.frames.size := by
  obtain ⟨soundBefore, properBefore⟩ := h.proper hhost hs proper
  have depends := h.2
  have result := h.result_eq
  rw [calls] at depends result proper
  obtain ⟨cell, s₁, found, opened, marked, depends⟩ := Walk.activate_dependsOn depends
  obtain ⟨among, marks⟩ := Walk.running_handsOn Node.hereditary_true Store.marks_orders
    (fun t _ => Task.runTo_keepsMarks hhost.marks d.depth t) trivial depends
  cases htask : d.task with
  | activate | call => rw [htask] at among; exact among.elim
  | eval n frame =>
    rw [htask] at among
    obtain ⟨part, rfl⟩ := among
    refine ⟨cell, n, ⟨f, args, receiver, constructs, calls, found, rfl⟩, rfl, marks marked, ?_⟩
    intro v s' returned
    have may := Doing.mayReturn hhost soundBefore properBefore returned
    rw [htask] at may
    have kept : d.start.marks ⊆ s'.marks :=
      (Task.runTo_keepsMarks hhost.marks d.depth d.task).keeps.of_error returned
    obtain ⟨conforms, isBody⟩ :=
      (hs.functions f cell ((Value.fits_function f).mp proper.1) found).2 shaped
    -- A block takes returns. An expression would not, but has none.
    rcases Bool.or_eq_true_iff.mp isBody with block | expression
    · obtain ⟨position, statements, same⟩ := Node.isOf_iff.mp block
      have child : n ∈ cell.body.children := by
        rw [same] at part ⊢
        exact part
      have statement : n.isStatement = true :=
        (Node.passes_of_mayReturn conforms (by rw [same]; rfl) (by rw [same]; rfl) child
          (may shaped).1).2
      have taken := Walk.running_catches block depends (fun _ _ _ => rfl) returned
      exact ⟨statement, .within .self (.inl block) child,
        Store.functionFrame?_of_mem_marks (kept (marks marked)), .call h,
        result.trans ((Walk.activate_of_some found).trans ((Step.bind_of_ok opened).trans taken))⟩
    · obtain rfl : n = cell.body := by
        unfold Walk.partsOf at part
        split at part
        · rename_i same
          rw [same] at expression
          cases expression
        · exact List.mem_singleton.mp part
      have none := (may shaped).1
      rw [Node.mayReturn_eq_false (.inl expression)] at none
      cases none

end Doing.HandsOn

end Steps

/-! ## Whole runs -/

namespace Program

variable {R : Regime} {host : Host} {depth : Nat} {program : Node} {frame : FrameRef} {s : Store}

/-- Where an evaluation **takes place**: in the frame of the program, or in that of a call
that is under way and catches its returns. -/
def Places (host : Host) (depth : Nat) (program : Node) (frame : FrameRef) (s : Store)
    (d : Doing) (n : Node) (own : FrameRef) : Prop :=
  own = frame ∨ ∃ a cell, Does host depth program frame s a ∧ a.Runs cell own ∧
    own ∈ d.start.marks ∧ a.Catches host d cell n own

/-- **One task after another**: what an evaluation hands on takes place where it does. -/
theorem Places.inside {d e : Doing} {m n : Node} {own : FrameRef}
    (places : Places host depth program frame s e m own) (h : e.HandsOn host d)
    (shaped : R.shaped) (hhost : host.LeavesCallsAlone R) (hs : R.Sound e.start)
    (proper : e.task.Proper R) (outer : e.task = .eval m own) (inner : d.task = .eval n own) :
    Places host depth program frame s d n own := by
  obtain ⟨-, marks, carries⟩ := h.of_eval hhost.marks outer
  rcases places with rfl | ⟨a, cell, does, runs, marked, catches⟩
  · exact .inl rfl
  refine .inr ⟨a, cell, does, runs, marks marked, fun v s' returned => ?_⟩
  -- The return interrupts the evaluation around as well, so that one is caught already.
  have interrupted := carries v s' returned
  obtain ⟨statement, encloses, called, unwinds, caught⟩ := catches v s' interrupted
  obtain ⟨other, among⟩ := h.of_statement hhost.marks outer statement
  obtain ⟨soundBefore, properBefore⟩ := h.proper hhost hs proper
  have may := Doing.mayReturn hhost soundBefore properBefore returned
  rw [inner] at among may
  rw [outer] at proper
  obtain ⟨passes, statement⟩ :=
    Node.passes_of_mayReturn (proper.2 shaped).1 statement other among.1 (may shaped).1
  exact ⟨statement, .within encloses passes among.1, called, .within unwinds outer interrupted h,
    caught⟩

/-- **Each evaluation takes place** in the frame of the program or in that of a call. -/
theorem Does.places {d : Doing} (does : Does host depth program frame s d) (shaped : R.shaped)
    (hhost : host.LeavesCallsAlone R) (hs : R.Sound s) (reached : .frame frame ∉ R.garbage)
    (statements : ∀ n ∈ program.children, R.Has Node.isStatement n) {n : Node} {own : FrameRef}
    (evaluates : d.task = .eval n own) : Places host depth program frame s d n own := by
  induction does generalizing n own with
  | statement depends =>
    have composed : Composed _ Set.univ (Task.IsAmong program.children frame) fun run =>
        runWith run program frame := runWith_composed Node.hereditary_true trivial trivial
    have among := (composed.handsOn Store.marks_orders
      (fun t _ => Task.runTo_keepsMarks hhost.marks depth t) depends).1
    cases evaluates
    exact .inl among.2
  | @inside e d does h ih =>
    obtain ⟨sound, proper⟩ := does.proper hhost hs reached statements
    cases outer : e.task with
    | eval m frame' =>
      have stays := (h.of_eval hhost.marks outer).1
      rw [evaluates] at stays
      obtain rfl : own = frame' := stays
      exact (ih outer).inside h shaped hhost sound proper outer evaluates
    | activate f args receiver constructs =>
      obtain ⟨cell, m, runs, inner, marked, catches⟩ :=
        h.of_activate shaped hhost sound proper outer
      rw [evaluates] at inner
      cases inner
      exact .inr ⟨e, cell, does, runs, marked, catches⟩
    | call callee args =>
      have call := h.of_call hhost sound proper outer
      rw [evaluates] at call
      exact call.elim

/-- **Returns are caught.** A program that is read from a text is run in a frame outside of all
calls, in a context whose functions have proper bodies. No return comes out of the run. Each
evaluation in it takes place either in the frame of the program, where no call is found and no
return comes out of it, or in the frame of a call that is under way. If a return comes out of
it there, then it is a statement of the function that is called, in no function in between; the
return goes straight up to that call, and is what the call gives. -/
theorem catches_returns {source : Text} {program : Node}
    (parsed : parseProgram source = .ok program) {host : Host} {frame : FrameRef} {s : Store}
    {roots : Set Site} (start : .frame frame ∈ roots) (outside : s.IsOutside frame)
    (bodies : s.HasProperBodiesFrom roots)
    (hhost : host.LeavesCallsAlone (s.callRegime roots)) (depth : Nat) :
    (∀ v s', runWith (Task.runTo host depth) program frame s ≠ .error (.returned v) s') ∧
      ∀ d n own, Does host depth program frame s d → d.task = .eval n own →
        (own = frame ∧ d.start.functionFrame? own = none ∧
          ∀ v s', d.result host ≠ .error (.returned v) s') ∨
        (d.start.functionFrame? own = some own ∧
          ∃ a cell, Does host depth program frame s a ∧ a.Runs cell own ∧
            a.Catches host d cell n own) := by
  have proper := parseProgram_proper parsed
  let R : Regime := s.callRegime roots
  have sound : R.Sound s := by
    refine Regime.sound_start (fun _ _ _ _ _ _ _ _ => ⟨False.elim, False.elim⟩) ?_ ?_
    · intro r hr f cell reaches found _
      have body := bodies r hr f cell reaches found
      exact ⟨body.conforms, body.sorted⟩
    · rintro f ⟨found, unmarked, around⟩
      exact ⟨_, found, unmarked, around⟩
  have reached : .frame frame ∉ R.garbage := Store.root_not_mem_unreached start
  have shapes : ∀ n ∈ program.children, R.Has Node.isStatement n :=
    fun n hn _ => statements_of_conforms proper.conforms proper.sorted n hn
  refine ⟨fun v s' returned => ?_, fun d n own does evaluates => ?_⟩
  · have ends := runWith_obeys (Task.runTo_keeps hhost.keeps depth) reached shapes sound
    rw [returned] at ends
    exact ends.2.1 trivial outside
  · obtain ⟨soundBefore, properBefore⟩ := does.proper hhost sound reached shapes
    rcases does.places trivial hhost sound reached shapes evaluates with
      rfl | ⟨a, cell, doesCall, runs, marked, catches⟩
    · refine .inl ⟨rfl, soundBefore.functionFrame?_eq_none outside, fun v s' returned => ?_⟩
      have may := Doing.mayReturn hhost soundBefore properBefore returned
      rw [evaluates] at may
      exact (may trivial).2 outside
    · exact .inr ⟨Store.functionFrame?_of_mem_marks marked, a, cell, doesCall, runs, catches⟩

/-- A function that returns from a conditional statement, and that is handed to a function of
the host, `g`, which calls it. -/
theorem catches_returns_of_callback :
    let source : Text := "function f(a) \x7b if (a) \x7b return 1; \x7d \x7d g(f, true);"
    let s := Store.blank.define 0 "g" (.native ⟨"g", "g", "function", none, 0⟩)
    ∃ program, parseProgram source = .ok program ∧ .frame 0 ∈ ({.frame 0} : Set Site) ∧
      s.IsOutside 0 ∧ s.HasProperBodiesFrom {.frame 0} ∧
      Host.callingBack.LeavesCallsAlone (s.callRegime {.frame 0}) ∧
      (∀ v s', runWith (Task.runTo .callingBack 12) program 0 s ≠ .error (.returned v) s') ∧
      ∀ d n own, Does .callingBack 12 program 0 s d → d.task = .eval n own →
        (own = 0 ∧ d.start.functionFrame? own = none ∧
          ∀ v s', d.result .callingBack ≠ .error (.returned v) s') ∨
        (d.start.functionFrame? own = some own ∧
          ∃ a cell, Does .callingBack 12 program 0 s a ∧ a.Runs cell own ∧
            a.Catches .callingBack d cell n own) := by
  intro source s
  have reads : (parseProgram source).isOk = true := by decide +kernel
  have start : .frame 0 ∈ ({.frame 0} : Set Site) := Set.mem_singleton _
  have outside : s.IsOutside 0 := .intro rfl rfl nofun
  have bodies : s.HasProperBodiesFrom {.frame 0} := fun _ _ f cell _ found => by
    have none : s.functions[f]? = none := rfl
    rw [none] at found
    cases found
  have hhost := Host.callingBack_leavesCallsAlone (s.callRegime {.frame 0})
  cases parsed : parseProgram source with
  | error e => simp [parsed, Except.isOk, Except.toBool] at reads
  | ok program =>
    exact ⟨program, rfl, start, outside, bodies, hhost,
      catches_returns parsed start outside bodies hhost 12⟩

end Program

end Scriptlet
