import Scriptlet.Program
import Scriptlet.Proofs.Unaware.Walk
import Scriptlet.Walk

/-!
# Tasks and programs are unaware

Each kind of node has its rule, and with them each task is unaware as long as the runner is that
it is given. The runner to a depth of one more does tasks with the runner to the depth, so all of
them are by induction, and so is a program.
-/

namespace Scriptlet

variable {V : Veil} {s : Store} {run : Runner} {children : List Node} {frame : FrameRef}

namespace Walk

/-! ## Nodes -/

/-- **Every kind of node** is evaluated unaware. -/
theorem branch_unaware (hrun : run.Unaware V) (reached : .frame frame ∉ V.garbage) {kind : Kind}
    {position : Option Position} (h : V.Speaks (.branch kind position children)) :
    (branch run kind children frame).Unaware V s V.Fits := by
  cases kind with
  | program | block => exact statements_unaware hrun reached h.child
  | expressionStatement =>
    exact Step.child_unaware.bind fun n _ _ hn =>
      hrun.eval reached (h.child n (List.mem_of_getElem? hn))
  | empty => exact .pure fun _ => Value.fits_undefined
  | declaration =>
    exact declaration_unaware hrun reached fun n hn => h.child n (List.mem_of_mem_drop hn)
  | declarator => exact declarator_unaware hrun reached h
  | functionDeclaration => exact functionDeclaration_unaware reached h
  | function => exact function_unaware reached h
  | arrow => exact arrow_unaware reached h
  | conditionalStatement | conditional => exact conditional_unaware hrun reached h.child
  | returnStatement => exact returning_unaware hrun reached h.child
  | literal => exact literal_unaware
  | identifier =>
    refine Step.leafChild_unaware.bind fun leaf _ _ hleaf => Step.lookup_unaware reached ?_
    exact h.own leaf.2 (by simp [Kind.ownNames, hleaf])
  | this => exact Step.lookup_unaware reached V.usesThis
  | unary => exact unary_unaware hrun reached h.child
  | binary | logical => exact binary_unaware hrun reached h.child
  | array => exact list_unaware hrun reached h.child
  | object => exact object_unaware hrun reached h.child
  | member => exact member_unaware hrun reached h.child
  | assign => exact assign_unaware hrun reached h.child
  | update => exact update_unaware hrun reached h.child
  | call => exact call_unaware hrun reached h.child
  | construct => exact construct_unaware hrun reached h.child
  | template => exact template_unaware hrun reached h.child
  | templateChunk => exact chunk_unaware.bind fun _ _ _ _ => .pure fun _ => Value.fits_text _
  | taggedTemplate => exact taggedTemplate_unaware hrun reached h.child
  | params | arguments | spread | hole | property | computedKey | other =>
    exact Step.failWith_unaware

theorem node_unaware (hrun : run.Unaware V) (reached : .frame frame ∉ V.garbage) {n : Node}
    (h : V.Speaks n) : (node run n frame).Unaware V s V.Fits := by
  refine .locating ?_
  cases n with
  | branch kind position children => exact branch_unaware hrun reached h
  | leaf | stray => exact Step.failWith_unaware

/-! ## Calls -/

theorem bindParameters_unaware (reached : .frame frame ∉ V.garbage) {names : List Text}
    {args : List Value} (used : ∀ name ∈ names, V.used name = true) (h : ∀ v ∈ args, V.Fits v) :
    (bindParameters frame names args).Unaware V s fun _ => True := by
  induction names generalizing args s with
  | nil => exact .pure fun _ => trivial
  | cons name names ih =>
    have first : V.Fits (args.headD .null) := by
      cases args with
      | nil => exact Value.fits_null
      | cons v rest => exact h v List.mem_cons_self
    rw [bindParameters]
    exact (Step.define_unaware reached (used name List.mem_cons_self) first).bind fun _ _ _ _ =>
      ih (fun name hname => used name (List.mem_cons_of_mem _ hname))
        fun v hv => h v (List.mem_of_mem_tail hv)

theorem bindReceiver_unaware (reached : .frame frame ∉ V.garbage) {kind : FunctionKind}
    {receiver : Option Value} (h : ∀ v, receiver = some v → V.Fits v) :
    (bindReceiver frame kind receiver).Unaware V s fun _ => True := by
  cases receiver with
  | none => exact .pure fun _ => trivial
  | some v =>
    rw [bindReceiver]
    split
    · exact Step.define_unaware reached V.usesThis (h v rfl)
    · exact .pure fun _ => trivial

theorem untilFailure_unaware (hrun : run.Unaware V) (reached : .frame frame ∉ V.garbage)
    {last : Value} {nodes : List Node} (hlast : V.Fits last) (h : ∀ n ∈ nodes, V.Speaks n) :
    (untilFailure run frame last nodes).Unaware V s V.Fits := by
  induction nodes generalizing last s with
  | nil => exact .pure fun _ => hlast
  | cons n rest ih =>
    rw [untilFailure]
    refine (hrun.eval reached (h n List.mem_cons_self)).bind fun v _ _ hv => ?_
    split
    · exact .pure fun _ => hv
    · exact ih hv fun n hn => h n (List.mem_cons_of_mem _ hn)

/-- A return that is taken gives what fits. -/
theorem catchingReturn_unaware {step : Step Value} (h : step.Unaware V s V.Fits) :
    (catchingReturn step).Unaware V s V.Fits :=
  h.tryCatch fun i s' fits => by
    cases i with
    | returned v => exact .pure fun _ => fits
    | _ => exact .throw fits

theorem body_unaware (hrun : run.Unaware V) (reached : .frame frame ∉ V.garbage)
    {statements : List Node} {constructs : Bool} (h : ∀ n ∈ statements, V.Speaks n) :
    (body run statements frame constructs).Unaware V s V.Fits := by
  refine (hoist_unaware reached h).bind fun _ _ _ _ => catchingReturn_unaware
    ((untilFailure_unaware hrun reached Value.fits_undefined h).bind fun v _ _ hv => ?_)
  split
  · exact .pure fun _ => hv
  · refine .pure fun _ => ?_
    split
    · exact Value.fits_undefined
    · exact hv

/-- **Running a function** that was written with names that may be used. -/
theorem activate_unaware (hrun : run.Unaware V) {f : FunctionRef} {args : List Value}
    {receiver : Option Value} {constructs : Bool} (h : V.Fits (.function f))
    (hargs : ∀ v ∈ args, V.Fits v) (hreceiver : ∀ v, receiver = some v → V.Fits v) :
    (activate run f args receiver constructs).Unaware V s V.Fits := by
  refine .get_bind (fun _ => rfl) fun hs => ?_
  split
  · exact .pure fun _ => Value.fits_undefined
  rename_i cell hcell
  have fits := hs.functions f cell (Veil.fits_function.mp h) hcell
  refine (Step.openInner_unaware fits.scope).bind fun frame _ _ reached => ?_
  refine .change_bind (fun _ => Veil.conceal_markFunction frame)
    (fun hs => hs.markFunction reached) fun _ _ => ?_
  refine (bindParameters_unaware reached fits.params hargs).bind fun _ _ _ _ => ?_
  refine (bindReceiver_unaware reached hreceiver).bind fun _ _ _ _ => ?_
  refine Step.remark_unaware.bind fun _ _ _ _ => ?_
  have speaks := fits.body
  split
  · rename_i position statements same
    exact body_unaware hrun reached (same ▸ speaks).child
  · exact hrun.eval reached speaks

theorem hostCall_unaware {host : Host} (hhost : host.Unaware V) (hrun : run.Unaware V)
    {callee : Value} {args : List Value} (h : V.Fits callee) (hargs : ∀ v ∈ args, V.Fits v) :
    (hostCall host run callee args).Unaware V s V.Fits := by
  unfold hostCall
  split
  · exact (hrun.activate h hargs (by simp)).map fun _ hv => Value.fits_orUndefined (.inr hv)
  · exact Step.callMethod_unaware hrun ((Value.fits_method _ _ _).mp h) hargs
  · exact hhost _ run args s hrun hargs
  · exact hhost _ run _ s hrun
      (List.forall_mem_cons.mpr ⟨Veil.fits_host.mpr (Veil.fits_hostMethod.mp h), hargs⟩)
  · exact .fault

end Walk

/-! ## Running tasks -/

theorem Task.perform_unaware {host : Host} (hhost : host.Unaware V) (hrun : run.Unaware V) :
    Runner.Unaware V fun task => task.perform host run where
  eval reached speaks := Walk.node_unaware hrun reached speaks
  activate callee arguments subject := Walk.activate_unaware hrun callee arguments subject
  call fits arguments := Walk.hostCall_unaware hhost hrun fits arguments

/-- **Running tasks to any depth** is unaware of what every veil hides that the functions of the
host are unaware of. -/
theorem Task.runTo_unaware {host : Host} (hhost : host.Unaware V) (depth : Nat) :
    Runner.Unaware V (Task.runTo host depth) := by
  induction depth with
  | zero =>
    exact ⟨fun _ _ => .throw trivial, fun _ _ _ => .throw trivial, fun _ _ => .throw trivial⟩
  | succ depth ih => exact Task.perform_unaware hhost ih

/-! ## Programs -/

namespace Program

theorem runStatements_unaware (hrun : run.Unaware V) (reached : .frame frame ∉ V.garbage)
    {nodes : List Node} (h : ∀ n ∈ nodes, V.Speaks n) :
    (runStatements run frame nodes).Unaware V s fun vs => ∀ v ∈ vs, V.Fits v := by
  induction nodes generalizing s with
  | nil => exact .pure fun _ => by simp
  | cons n rest ih =>
    rw [runStatements]
    refine (hrun.eval reached (h n List.mem_cons_self)).bind fun v _ _ hv => ?_
    refine (ih fun n hn => h n (List.mem_cons_of_mem _ hn)).bind fun others _ _ hothers => ?_
    exact .pure fun _ =>
      List.forall_mem_cons.mpr ⟨Value.fits_orUndefined (.inr hv), hothers⟩

/-- **Running a program** is unaware of what is hidden when the run has been begun. -/
theorem runWith_conceal (hrun : run.Unaware V) (reached : .frame frame ∉ V.garbage)
    {program : Node} (h : V.Speaks program) (hs : V.Sound { s with run := s.run + 1 }) :
    runWith run program frame (V.conceal s) = V.concealEnd (runWith run program frame s) ∧
      V.Allows (fun vs => ∀ v ∈ vs, V.Fits v) (runWith run program frame s) := by
  have rest : Step.Unaware V { s with run := s.run + 1 } (fun vs => ∀ v ∈ vs, V.Fits v) (do
      Walk.hoist frame program.children
      Step.remark .program
        ("running " ++ Text.ofNat program.children.length ++ " top-level statements")
      runStatements run frame program.children) :=
    (Walk.hoist_unaware reached h.children).bind fun _ _ _ _ =>
      Step.remark_unaware.bind fun _ _ _ _ => runStatements_unaware hrun reached h.children
  have begun (s : Store) : runWith run program frame s =
      (do
        Walk.hoist frame program.children
        Step.remark .program
          ("running " ++ Text.ofNat program.children.length ++ " top-level statements")
        runStatements run frame program.children : Step (List Value))
        { s with run := s.run + 1 } := by
    rw [runWith, prepare, beginRun, bind_assoc]
    simp only [bind_assoc]
    rfl
  rw [begun, begun]
  exact rest hs

end Program

end Scriptlet
