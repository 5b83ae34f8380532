import Scriptlet.Proofs.Conformance
import Scriptlet.Proofs.Origin
import Scriptlet.Proofs.Unwinding.Raising

/-!
# Errors are set at the innermost node

When a run ends with an error, some of what it has been doing was still in progress when the
error was raised: the statement that it comes out of, and whatever has passed it on from there
down. Calls of functions, of builtin methods and of the host are among this, to any depth. The
innermost evaluation in progress is that of the node that the error is set at, since no error
that is raised has a position, and no evaluation outside of it changes the position any more.

For each node to have a position it takes that whatever is evaluated has been read from a text.
Besides the program these are the bodies of the functions that the context holds. And it takes
that a run raises nothing before it has come to the first statement: the functions that are
declared in a program are bound beforehand, and there is nothing wrong with a declaration that has
been read.
-/

namespace Scriptlet

/-! ## Placed trees -/

/-- A tree **is placed** if each branch in it has a position with a line and a column. -/
def Node.IsPlaced (n : Node) : Prop :=
  ∀ kind position children, (Node.branch kind position children).IsPartOf n →
    ∃ line column : Int, position = some ⟨line, some column⟩

theorem Node.isPlaced_hereditary : Node.Hereditary Node.IsPlaced :=
  fun _ h _ child kind position children part => h kind position children (.child child part)

theorem Node.MadeOf.isPlaced {stock : Token → Prop} {n : Node} (h : n.MadeOf stock) : n.IsPlaced := by
  intro kind position children part
  cases h.part part with
  | atom | compound => exact ⟨_, _, rfl⟩

/-- **What is read from a text** is placed. -/
theorem parseProgram_isPlaced {source : Text} {program : Node}
    (parsed : parseProgram source = .ok program) : program.IsPlaced := by
  have closed : Token.Closed fun _ => True := fun _ _ _ _ _ _ _ _ _ _ _ => trivial
  have yields : Token.Yields (fun _ => True) source 1 := fun _ _ _ _ => trivial
  have made := parseProgram_madeOf closed yields
  rw [parsed] at made
  exact made.isPlaced

/-! ## Binding functions beforehand -/

namespace Walk

variable (frame : FrameRef)

theorem parameterNames_ends {names : List Node} (h : ∀ n ∈ names, n.isLeafOf .identifier = true)
    (s : Store) : ∃ texts, parameterNames names s = .ok texts s := by
  induction names with
  | nil => exact ⟨[], rfl⟩
  | cons n rest ih =>
    obtain ⟨name, others⟩ := List.forall_mem_cons.mp h
    obtain ⟨text, position, rfl⟩ := Node.isLeafOf_iff.mp name
    obtain ⟨texts, ends⟩ := ih others
    exact ⟨text :: texts, Step.bind_of_ok ends⟩

/-- A declaration that conforms **is always made**. -/
theorem functionDeclaration_ends {position : Option Position} {children : List Node}
    (conforms : (Node.branch .functionDeclaration position children).Conforms) (s : Store) :
    ∃ v s', functionDeclaration children frame s = .ok v s' := by
  obtain ⟨name, params, body, rfl⟩ :=
    Kind.exists_triple (by simp [Kind.triples]) conforms.admits
  have admitted := conforms.admits
  simp only [Kind.admits, three, Bool.and_eq_true] at admitted
  obtain ⟨⟨isName, isParams⟩, -⟩ := admitted
  obtain ⟨text, _, rfl⟩ := Node.isLeafOf_iff.mp isName
  obtain ⟨_, names, rfl⟩ := Node.isOf_iff.mp isParams
  have names' : ∀ n ∈ names, n.isLeafOf .identifier = true := by
    have admitted := (conforms.child (List.mem_cons_of_mem _ List.mem_cons_self)).admits
    exact List.all_eq_true.mp admitted
  obtain ⟨texts, ends⟩ := parameterNames_ends names' s
  have triple (a b c : Node) : Step.triple [a, b, c] s = .ok (a, b, c) s := rfl
  have identifier (what : Text) (position : Position) :
      Step.identifier what (.leaf .identifier text position) s = .ok text s := rfl
  have look : (MonadState.get : Step Store) s = .ok s s := rfl
  unfold functionDeclaration
  rw [Step.bind_of_ok (triple _ _ _)]
  dsimp only
  rw [Step.bind_of_ok (identifier _ _), Step.bind_of_ok look]
  split
  · exact ⟨_, _, rfl⟩
  · exact ⟨_, _, Step.bind_of_ok ends⟩

theorem hoist_ends {nodes : List Node} (h : ∀ n ∈ nodes, n.Conforms) (s : Store) :
    ∃ s', hoist frame nodes s = .ok () s' := by
  fun_induction hoist frame nodes generalizing s with
  | case1 => exact ⟨s, rfl⟩
  | case2 position children rest ih =>
    obtain ⟨declaration, others⟩ := List.forall_mem_cons.mp h
    obtain ⟨v, s₁, made⟩ := functionDeclaration_ends frame declaration s
    obtain ⟨s₂, ends⟩ := ih others _
    exact ⟨s₂, (Step.bind_of_ok made).trans ends⟩
  | case3 n rest _ ih => exact ih (List.forall_mem_cons.mp h).2 s

end Walk

/-! ## Runs that end with an error -/

namespace Doing

variable {host : Host} {s' : Store} {d d' : Doing} {n : Node} {x : ProgramError}

/-- Nothing but the evaluation of a branch ends with an error, and if that is placed the error
gets a position. -/
theorem located_of_raised (placed : n.IsPlaced) (evaluates : d.Evaluates n)
    (hhost : host.LetsErrorsPass Node.IsPlaced) (raised : d.result host = .error (.error x) s') :
    ∃ line column : Int, n.position? = some ⟨line, some column⟩ ∧ x.position.isSome := by
  obtain ⟨frame, same⟩ := evaluates
  cases n with
  | branch kind position children =>
    obtain ⟨line, column, rfl⟩ := placed kind position children .self
    refine ⟨line, column, rfl, ?_⟩
    obtain ⟨x₀, rfl, -⟩ := raises hhost raised
    rw [same]
    show (x₀.position.or _).isSome
    rw [Option.isSome_or]
    exact Bool.or_true _
  | leaf | stray =>
    obtain ⟨depth, task, start⟩ := d
    obtain rfl : task = _ := same
    cases depth <;> cases raised

theorem depth_lt_of_passesOn (h : Relation.TransGen (PassesOn host s') d d') : d'.depth < d.depth := by
  induction h with
  | single passes => exact Nat.lt_of_succ_le passes.1.1.ge
  | tail _ passes ih => exact Nat.lt_trans (Nat.lt_of_succ_le passes.1.1.ge) ih

end Doing

namespace Program

variable (host : Host) (depth : Nat) (program : Node) (frame : FrameRef) (s : Store)
  (e : ProgramError) (s' : Store)

/-- What is **in progress** when an error is raised that ends a run, in the store that the run
leaves: what the run depends on and the error comes out of, and whatever passes it on from there
down. -/
inductive InProgress : Doing → Prop
  | statement {t₀ : Task} {s₀ : Store}
    (depends : DependsOn (fun run => runWith run program frame) (Task.runTo host depth) s t₀ s₀)
    (raised : Task.runTo host depth t₀ s₀ = .error (.error e) s') : InProgress ⟨depth, t₀, s₀⟩
  | inside {d d' : Doing} (outer : InProgress d) (passes : d.PassesOn host s' d') : InProgress d'

/-- The **innermost evaluation** in progress: nothing that it passes the error on from is one. -/
structure Innermost (d : Doing) (n : Node) : Prop where
  inProgress : InProgress host depth program frame s e s' d
  evaluates : d.Evaluates n
  innermost : ∀ d' m, Relation.TransGen (Doing.PassesOn host s') d d' → ¬ d'.Evaluates m

variable {host depth program frame s e s'}

namespace InProgress

variable {d d' : Doing}

theorem further (h : InProgress host depth program frame s e s' d)
    (way : Relation.TransGen (Doing.PassesOn host s') d d') :
    InProgress host depth program frame s e s' d' := by
  induction way with
  | single passes => exact .inside h passes
  | tail _ passes ih => exact .inside ih passes

/-- Whatever is in progress ends with an error, and if that **has a position** it is the error that
ends the run. -/
theorem raised (h : InProgress host depth program frame s e s' d) :
    ∃ x, d.result host = .error (.error x) s' ∧ (x.position.isSome → x = e) := by
  induction h with
  | statement _ raised => exact ⟨e, raised, fun _ => rfl⟩
  | inside _ passes ih =>
    obtain ⟨-, x, came, gone⟩ := passes
    obtain ⟨y, same, only⟩ := ih
    refine ⟨x, came, fun located => ?_⟩
    rw [ProgramError.locatedAt_of_isSome located] at gone
    cases gone.symm.trans same
    exact only located

/-- What is in progress is **of a sort** if the program is and the context is. -/
theorem isOf {P : Node → Prop} (h : InProgress host depth program frame s e s' d)
    (hereditary : Node.Hereditary P) (hhost : host.LetsErrorsPass P) (isOf : P program)
    (bodies : s.HasBodies P) : d.IsOf P := by
  induction h with
  | statement depends _ =>
    have below := hereditary program isOf
    obtain ⟨among, develops⟩ := (runWith_composed hereditary isOf (Set.mem_univ frame)).handsOn
      (Store.develops_orders P)
      (fun t among => Task.runTo_develops hereditary hhost depth (among.isOf below)) depends
    exact ⟨among.isOf below, (develops bodies).2⟩
  | inside _ passes ih => exact passes.1.isOf hereditary hhost ih

/-- At any evaluation in progress, or further down, there is an innermost one. -/
theorem exists_innermost {n : Node} (h : InProgress host depth program frame s e s' d)
    (evaluates : d.Evaluates n) : ∃ d' m, Innermost host depth program frame s e s' d' m := by
  induction hdepth : d.depth using Nat.strongRecOn generalizing d n with
  | _ size ih =>
    by_cases inner : ∃ d' m, Relation.TransGen (Doing.PassesOn host s') d d' ∧ d'.Evaluates m
    · obtain ⟨d', m, way, evaluates⟩ := inner
      exact ih d'.depth (hdepth ▸ Doing.depth_lt_of_passesOn way) (h.further way) evaluates rfl
    · exact ⟨d, n, h, evaluates, fun d' m way evaluates => inner ⟨d', m, way, evaluates⟩⟩

end InProgress

/-- What is innermost **sets the error at the position** of its node. -/
theorem Innermost.position_eq {d : Doing} {n : Node}
    (h : Innermost host depth program frame s e s' d n) (placed : n.IsPlaced)
    (hhost : host.LetsErrorsPass Node.IsPlaced) :
    ∃ line column : Int, n.position? = some ⟨line, some column⟩ ∧ e.position = n.position? := by
  obtain ⟨x, raised, only⟩ := h.inProgress.raised
  obtain ⟨line, column, position, located⟩ := Doing.located_of_raised placed h.evaluates hhost raised
  obtain rfl := only located
  obtain ⟨x₀, rfl, from?⟩ := Doing.raises hhost raised
  have here : d.task.position? = n.position? := by
    obtain ⟨own, same⟩ := h.evaluates
    rw [same]
    rfl
  refine ⟨line, column, position, ?_⟩
  rw [here]
  refine ProgramError.position_locatedAt ?_ _
  rcases from? with bare | ⟨d', passes, came⟩
  · exact bare
  · -- With a position, the error would have passed through an evaluation further down.
    by_contra has
    obtain ⟨d'', m, way, evaluates⟩ :=
      Doing.exists_evaluates hhost came (Option.isSome_iff_ne_none.mpr has)
    exact h.innermost d'' m (.head' passes way) evaluates

/-! ### Errors of statements -/

/-- What interrupts statements that are run one after another has come out of one of them. -/
theorem runStatements_error {run : Runner} {nodes : List Node} {s s' : Store} {i : Interrupt}
    (ends : runStatements run frame nodes s = .error i s') :
    ∃ n ∈ nodes, ∃ s₀, run (.eval n frame) s₀ = .error i s' := by
  induction nodes generalizing s with
  | nil => cases ends
  | cons n rest ih =>
    cases here : run (.eval n frame) s with
    | error j s₁ =>
      cases (Step.bind_of_error here).symm.trans ends
      exact ⟨n, List.mem_cons_self, s, here⟩
    | ok v s₁ =>
      have ends := (Step.bind_of_ok here).symm.trans ends
      cases others : runStatements run frame rest s₁ with
      | error j s₂ =>
        cases (Step.bind_of_error others).symm.trans ends
        obtain ⟨m, hm, came⟩ := ih others
        exact ⟨m, List.mem_cons_of_mem _ hm, came⟩
      | ok vs s₂ => cases (Step.bind_of_ok others).symm.trans ends

/-- Nothing interrupts a program that conforms before its first statement is run. -/
theorem prepare_ends (frame : FrameRef) {program : Node}
    (conforms : ∀ n ∈ program.children, n.Conforms) (s : Store) :
    ∃ s', prepare program frame s = .ok () s' := by
  obtain ⟨s₁, ends⟩ := Walk.hoist_ends frame conforms { s with run := s.run + 1 }
  exact ⟨_, Step.bind_of_ok ends⟩

/-- **A run that ends with an error** ends with that of a statement in progress. -/
theorem exists_inProgress {source : Text} {program : Node}
    (parsed : parseProgram source = .ok program) (hhost : host.LetsErrorsPass Node.IsPlaced)
    (raised : runWith (Task.runTo host depth) program frame s = .error (.error e) s') :
    ∃ d n, InProgress host depth program frame s e s' d ∧ d.Evaluates n := by
  have proper := parseProgram_proper parsed
  have conforms : ∀ n ∈ program.children, n.Conforms := fun n hn =>
    (statements_of_conforms proper.conforms proper.sorted n hn).1
  have placed := parseProgram_isPlaced parsed
  have below := Node.isPlaced_hereditary program placed
  have composed := runWith_composed Node.isPlaced_hereditary placed (Set.mem_univ frame)
  rcases composed.raises raised with bare | ⟨t₀, s₀, depends, came⟩
  · -- It would have been raised outside of all statements, but there is nothing to raise it.
    obtain ⟨s₁, prepared⟩ := prepare_ends frame conforms s
    obtain ⟨n, hn, s₀, came⟩ := runStatements_error ((Step.bind_of_ok prepared).symm.trans raised)
    have evaluates : (⟨depth, .eval n frame, s₀⟩ : Doing).Evaluates n := ⟨frame, rfl⟩
    obtain ⟨-, -, -, located⟩ := Doing.located_of_raised (below n hn) evaluates hhost came
    rw [bare] at located
    cases located
  · have among := (composed.handsOn (Store.develops_orders _) (fun t among =>
      Task.runTo_develops Node.isPlaced_hereditary hhost depth (among.isOf below)) depends).1
    cases t₀ with
    | eval n own => exact ⟨_, n, .statement depends came, own, rfl⟩
    | activate | call => exact among.elim

/-! ## The main result -/

/-- **Errors are set at the innermost node.** A program that is read from a text is run, to any
depth, in a context whose functions have bodies that were read too. If the run ends with an error,
there is an innermost evaluation in progress, and each such is of a node with a line and a column
that are the position of the error and the end of its message. All evaluations in progress around it
end with this same error. -/
theorem locates_errors {source : Text} {program : Node} (parsed : parseProgram source = .ok program)
    {host : Host} (hhost : host.LetsErrorsPass Node.IsPlaced) {frame : FrameRef} {s : Store}
    (bodies : s.HasBodies Node.IsPlaced) {depth : Nat} {e : ProgramError} {s' : Store}
    (raised : runWith (Task.runTo host depth) program frame s = .error (.error e) s') :
    (∃ d n, Innermost host depth program frame s e s' d n) ∧
      (∀ d n, Innermost host depth program frame s e s' d n →
        ∃ line column : Int, n.position? = some ⟨line, some column⟩ ∧ e.position = n.position? ∧
          e.message = e.reason ++ " (line " ++ Text.ofInt line ++ (", col " ++ Text.ofInt column) ++ ")") ∧
      ∀ d n, InProgress host depth program frame s e s' d → d.Evaluates n →
        d.result host = .error (.error e) s' := by
  have placed := parseProgram_isPlaced parsed
  have evaluated {d : Doing} {n : Node} (h : InProgress host depth program frame s e s' d)
      (evaluates : d.Evaluates n) : n.IsPlaced :=
    (h.isOf Node.isPlaced_hereditary hhost placed bodies).evaluates evaluates
  refine ⟨?_, fun d n h => ?_, fun d n h evaluates => ?_⟩
  · obtain ⟨d, n, h, evaluates⟩ := exists_inProgress parsed hhost raised
    exact h.exists_innermost evaluates
  · obtain ⟨line, column, position, same⟩ :=
      h.position_eq (evaluated h.inProgress h.evaluates) hhost
    refine ⟨line, column, position, same, ?_⟩
    unfold ProgramError.message
    rw [same, position]
  · obtain ⟨x, raised, only⟩ := h.raised
    obtain ⟨-, -, -, located⟩ := Doing.located_of_raised (evaluated h evaluates) evaluates hhost raised
    rw [raised, only located]

/-- A function of the host, `g`, calls a function of the program back, and that hands another to
a builtin method, which reduces an empty list on the third line. -/
theorem locates_errors_of_callback :
    let source : Text := "g(function f(x) \x7b\n  return [x].map(y =>\n    [].reduce(f));\n\x7d, 1);"
    let s := Store.blank.define 0 "g" (.native ⟨"g", "g", "function", none, 0⟩)
    ∃ program e s', parseProgram source = .ok program ∧
      Host.callingBack.LetsErrorsPass Node.IsPlaced ∧ s.HasBodies Node.IsPlaced ∧
      runWith (Task.runTo .callingBack 14) program 0 s = .error (.error e) s' ∧
      e.position = some ⟨3, some 5⟩ ∧
      (∃ d n, Innermost .callingBack 14 program 0 s e s' d n) ∧
      (∀ d n, Innermost .callingBack 14 program 0 s e s' d n →
        ∃ line column : Int, n.position? = some ⟨line, some column⟩ ∧ e.position = n.position? ∧
          e.message = e.reason ++ " (line " ++ Text.ofInt line ++ (", col " ++ Text.ofInt column) ++ ")") ∧
      ∀ d n, InProgress .callingBack 14 program 0 s e s' d → d.Evaluates n →
        d.result .callingBack = .error (.error e) s' := by
  intro source s
  have ends : ((parseProgram source).toOption.bind fun program =>
      (runWith (Task.runTo .callingBack 14) program 0).error? s).map ProgramError.position
        = some (some ⟨3, some 5⟩) := by decide +kernel
  have hhost := Host.callingBack_letsErrorsPass (P := Node.IsPlaced)
  have bodies : s.HasBodies Node.IsPlaced := Store.hasBodies_of_empty rfl
  obtain ⟨e, found, position⟩ := Option.map_eq_some_iff.mp ends
  obtain ⟨program, reads, ends⟩ := Option.bind_eq_some_iff.mp found
  have parsed := Except.eq_ok_of_toOption reads
  obtain ⟨s', raised⟩ := Step.exists_of_error? ends
  exact ⟨program, e, s', parsed, hhost, bodies, raised, position,
    locates_errors parsed hhost bodies raised⟩

end Program

end Scriptlet
