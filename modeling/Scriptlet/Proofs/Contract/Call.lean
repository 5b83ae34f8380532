import Scriptlet.Call
import Scriptlet.Proofs.Contract.Property

/-!
# Runners that keep a regime

A runner *keeps* a regime if each task that it is given obeys, provided that the task
itself fits: a node to evaluate has the proper shape, its frame is within reach, and
what is handed to a function fits. This is all that anything knows of a runner, and it
is what the induction on depths hands down in the end.

A return may only come out of a statement, and only in a frame that is not outside of
calls; where trees conform, none comes out of an expression or a call.
-/

namespace Scriptlet

/-- Whether evaluating a branch of a kind is anything but a mistake. -/
def Kind.isWalked (kind : Kind) : Bool :=
  kind.isExpression || kind.isStatement || [Kind.program, .declarator, .templateChunk].contains kind

/-- Whether evaluating a node is anything but a mistake. -/
def Node.isWalked (n : Node) : Bool :=
  n.kind?.any Kind.isWalked

/-- Whether a return may come out of evaluating a node. -/
def Node.mayReturn (n : Node) : Bool :=
  n.isStatement || n.isOf .program

theorem Node.mayReturn_eq_false {n : Node}
    (h : n.isExpression = true ∨ n.isOf .declarator = true ∨ n.isOf .templateChunk = true) :
    n.mayReturn = false := by
  rcases h with h | h | h
  · cases n with
    | branch kind position children =>
      cases kind <;> simp_all [isExpression, Kind.isExpression, mayReturn, isStatement,
        Kind.isStatement, isOf]
    | leaf => cases h
    | stray => cases h
  · obtain ⟨position, children, rfl⟩ := isOf_iff.mp h
    rfl
  · obtain ⟨position, children, rfl⟩ := isOf_iff.mp h
    rfl

theorem Node.isWalked_of_isExpression {n : Node} (h : n.isExpression = true) :
    n.isWalked = true := by
  cases n <;> simp_all [isExpression, isWalked, Kind.isWalked, kind?]

theorem Node.isWalked_of_isStatement {n : Node} (h : n.isStatement = true) :
    n.isWalked = true := by
  cases n <;> simp_all [isStatement, isWalked, Kind.isWalked, kind?]

namespace Regime

/-- Where trees conform, a node does, and it is of a certain sort. -/
def Has (R : Regime) (sort : Node → Bool) (n : Node) : Prop :=
  R.shaped → n.Conforms ∧ sort n = true

/-- Where trees conform, the children of a branch are such as its kind admits. -/
def Admits (R : Regime) (kind : Kind) (children : List Node) : Prop :=
  R.shaped → kind.admits children = true ∧ ∀ n ∈ children, n.Conforms

/-- Whether a return may come out of statements in a frame. -/
def InCall (R : Regime) (frame : FrameRef) : Prop :=
  R.shaped → frame ∉ R.outside

/-- Whether a return may come out of evaluating a node in a frame. -/
def MayReturn (R : Regime) (n : Node) (frame : FrameRef) : Prop :=
  R.shaped → n.mayReturn = true ∧ frame ∉ R.outside

end Regime

/-- A runner **keeps a regime**. -/
structure Runner.Keeps (R : Regime) (run : Runner) : Prop where
  /-- Evaluating a node. -/
  eval {n : Node} {frame : FrameRef} {s : Store} (reached : .frame frame ∉ R.garbage)
    (fits : R.Has Node.isWalked n) :
    (run (.eval n frame)).Obeys R (R.MayReturn n frame) s R.Yields
  /-- Running a function of the program. -/
  activate {f : FunctionRef} {args : List Value} {receiver : Option Value} {constructs : Bool}
    {s : Store} (callee : (Value.function f).Fits R) (arguments : ∀ v ∈ args, v.Fits R)
    (subject : ∀ v, receiver = some v → v.Fits R) :
    (run (.activate f args receiver constructs)).Obeys R (¬ R.shaped) s R.Yields
  /-- Calling a value as the host does. Where there is nothing of the host, it has to be
  one that can be called. -/
  call {callee : Value} {args : List Value} {s : Store} (fits : callee.Fits R)
    (callable : R.plain → callee.isCallable = true) (arguments : ∀ v ∈ args, v.Fits R) :
    (run (.call callee args)).Obeys R (¬ R.shaped) s R.Fitting

/-- A host **keeps a regime** if each of its functions does, where there is any, as long as
the runner it is given does. -/
def Host.Keeps (R : Regime) (host : Host) : Prop :=
  ¬ R.plain → ∀ f run args s, run.Keeps R → (∀ v ∈ args, v.Fits R) →
    (host f run args).Obeys R (¬ R.shaped) s R.Fitting

/-- A host without functions keeps every regime. -/
theorem Host.bare_keeps (R : Regime) : Host.bare.Keeps R :=
  fun hp _ _ _ _ _ _ => .fault hp

namespace Runner.Keeps

variable {R : Regime} {run : Runner} {n : Node} {frame : FrameRef} {s : Store}

/-- Where no return may come out of a node, none does. -/
theorem quiet (hrun : run.Keeps R) (reached : .frame frame ∉ R.garbage)
    (fits : R.Has Node.isWalked n) (quiet : R.shaped → n.mayReturn = false) :
    (run (.eval n frame)).Obeys R (¬ R.shaped) s R.Yields :=
  (hrun.eval reached fits).weaken fun may h => by simpa [quiet h] using (may h).1

/-- No return comes out of an expression. -/
theorem expression (hrun : run.Keeps R) (reached : .frame frame ∉ R.garbage)
    (fits : R.Has Node.isExpression n) :
    (run (.eval n frame)).Obeys R (¬ R.shaped) s R.Yields :=
  hrun.quiet reached (fun h => ⟨(fits h).1, Node.isWalked_of_isExpression (fits h).2⟩)
    fun h => Node.mayReturn_eq_false (.inl (fits h).2)

/-- A return may come out of a statement in a call. -/
theorem statement (hrun : run.Keeps R) (reached : .frame frame ∉ R.garbage)
    (fits : R.Has Node.isStatement n) :
    (run (.eval n frame)).Obeys R (R.InCall frame) s R.Yields := by
  have walked : R.Has Node.isWalked n := fun h =>
    ⟨(fits h).1, Node.isWalked_of_isStatement (fits h).2⟩
  exact (hrun.eval reached walked).weaken fun may h => (may h).2

end Runner.Keeps

/-! ## Calls -/

/-- An argument fits if all do. -/
theorem argument_fits {R : Regime} {args : List Value} (h : ∀ v ∈ args, v.Fits R) (i : Nat) :
    (argument args i).Fits R :=
  Value.fits_ofOption_getElem? h i

namespace Step

variable {R : Regime} {run : Runner} {s : Store}

/-- Calling back gives what fits: a failure of a function of the program is undefined. -/
theorem invoke_obeys (hrun : run.Keeps R) {callee : Value} {args : List Value}
    (h : callee.Fits R) (hargs : ∀ v ∈ args, v.Fits R) :
    (Step.invoke run callee args).Obeys R (¬ R.shaped) s R.Fitting := by
  unfold Step.invoke
  split
  · exact (hrun.activate h hargs (by simp)).map fun _ _ _ hv => hv.fits_orUndefined
  · exact hrun.call h (fun _ => rfl) hargs
  · exact hrun.call h (fun _ => rfl) fun v hv => hargs v (List.mem_of_mem_take hv)
  · exact hrun.call h (fun _ => rfl) fun v hv => hargs v (List.mem_of_mem_take hv)
  · exact Obeys.read_bind fun shown _ => .wrongType

theorem callValue_obeys (hrun : run.Keeps R) {callee : Value} {args : List Value}
    {receiver : Option Value} (h : callee.Fits R) (callable : callee.isCallable = true)
    (hargs : ∀ v ∈ args, v.Fits R) (hreceiver : ∀ v, receiver = some v → v.Fits R) :
    (Step.callValue run callee args receiver).Obeys R (¬ R.shaped) s R.Yields := by
  unfold Step.callValue
  split
  · exact hrun.activate h hargs hreceiver
  · exact (hrun.call h (fun _ => callable) hargs).mono id fun _ _ _ hv => .inl hv

theorem constructWith_obeys (hrun : run.Keeps R) {f : FunctionRef} {args : List Value}
    (h : (Value.function f).Fits R) (hargs : ∀ v ∈ args, v.Fits R) :
    (Step.constructWith run f args).Obeys R (¬ R.shaped) s R.Fitting := by
  refine Obeys.bind (Q := fun ref _ => (Value.object ref).Fits R)
    (.make fun hs => ⟨hs.newObject (by simp),
      (Value.fits_object _).mpr (hs.newObject_not_mem [])⟩) fun ref s' _ hfresh => ?_
  refine (hrun.activate h hargs (by simpa using hfresh)).bind fun v s'' _ hv => ?_
  split
  · exact .pure fun _ => hv.fits (by simp)
  · exact .pure fun _ => hv.fits (by simp)
  · exact .pure fun _ => hfresh

/-- **A construction** gives what fits, whatever the constructor does. -/
theorem construct_obeys (hrun : run.Keeps R) {callee : Value} {args : List Value}
    (h : callee.Fits R) (hargs : ∀ v ∈ args, v.Fits R) :
    (Step.construct run callee args).Obeys R (¬ R.shaped) s R.Fitting := by
  unfold Step.construct
  split
  · refine .get_bind fun _ => ?_
    split
    · exact constructWith_obeys hrun h hargs
    split
    · exact constructWith_obeys hrun h hargs
    · exact .wrongType
  · exact hrun.call h (fun _ => rfl) hargs
  · exact hrun.call h (fun _ => rfl) hargs
  · exact Obeys.read_bind fun shown _ => .wrongType

/-- What a value spreads into fits; a failure spreads into nothing. -/
theorem spread?_obeys {may : Prop} {v : Value} (h : v = .failure ∨ v.Fits R) :
    (Step.spread? v).Obeys R may s fun o _ => ∀ vs, o = some vs → ∀ w ∈ vs, w.Fits R := by
  rcases h with rfl | h
  · exact .pure fun _ => by simp
  unfold Step.spread?
  split
  · exact .get_bind fun hs => .pure fun _ => by simpa using hs.items h
  · exact .pure fun _ => by simpa using ((Value.fits_tuple _ _).mp h).2
  · exact .pure fun _ => by simp
  · exact .pure fun _ => by simp

end Step

end Scriptlet
