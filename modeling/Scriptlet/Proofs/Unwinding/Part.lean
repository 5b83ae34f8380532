import Scriptlet.Proofs.Order
import Scriptlet.Proofs.Order.Source

/-!
# What is evaluated is a part

The evaluation of a node comes to its parts and to nothing else, and these are found among its
children and theirs. So where a node is of a sort that is hereditary, the nodes that it hands on
are of it too: a runner that refuses to evaluate any others does as well.
-/

namespace Scriptlet

variable {P : Node → Prop}

/-! ## Sorts of nodes and of tasks -/

/-- A task **is of a sort** of nodes if the node that it evaluates is. -/
def Task.IsOf (P : Node → Prop) : Task → Prop
  | eval n _ => P n
  | _ => True

theorem Task.IsCall.isOf {t : Task} (h : t.IsCall) : t.IsOf P := by
  cases t with
  | eval => exact h.elim
  | _ => trivial

theorem Task.IsAmong.isOf {t : Task} {nodes : List Node} {frame : FrameRef}
    (h : t.IsAmong nodes frame) (hnodes : ∀ n ∈ nodes, P n) : t.IsOf P := by
  cases t with
  | eval n own => exact hnodes n h.1
  | _ => trivial

theorem Task.isOf_true (t : Task) : t.IsOf fun _ => True := by
  cases t <;> trivial

/-- All nodes are of the sort that asks nothing, and so are all tasks. -/
theorem Node.hereditary_true : Node.Hereditary fun _ => True :=
  fun _ _ _ _ => trivial

section Parts

variable (hereditary : Node.Hereditary P) {n : Node}
include hereditary

theorem Node.Hereditary.reached (h : P n) : ∀ m ∈ n.reached, P m := by
  unfold Node.reached
  split
  · exact hereditary _ h
  · exact List.forall_mem_singleton.mpr h

theorem Node.Hereditary.spreadOut (h : P n) : ∀ m ∈ n.spreadOut, P m := by
  unfold Node.spreadOut
  split
  · exact hereditary _ h
  · exact List.forall_mem_singleton.mpr h

theorem Node.Hereditary.keyAndValue (h : P n) : ∀ m ∈ n.keyAndValue, P m := by
  have below := hereditary n h
  unfold Node.keyAndValue
  split
  · rename_i key value same
    rw [same] at below
    obtain ⟨hkey, hvalue⟩ := List.forall_mem_cons.mp below
    exact List.forall_mem_append.mpr ⟨hereditary key hkey, hvalue⟩
  · exact List.forall_mem_nil _

/-- **The parts** of what is of a sort are of it. -/
theorem Node.Hereditary.parts {children : List Node} (h : ∀ n ∈ children, P n) (kind : Kind) :
    ∀ m ∈ kind.parts children, P m := by
  have spread {ns : List Node} (hns : ∀ n ∈ ns, P n) : ∀ m ∈ ns.flatMap Node.spreadOut, P m :=
    List.forall_mem_flatMap.mpr fun n hn => hereditary.spreadOut (hns n hn)
  have pairOf {P : Node → Prop} {a b : Node} (h : ∀ n ∈ [a, b], P n) : P a ∧ P b := by simpa using h
  unfold Kind.parts
  split
  · rename_i target _ value
    obtain ⟨htarget, -, hvalue⟩ : P target ∧ _ ∧ P value := by simpa using h
    exact List.forall_mem_cons.mpr ⟨hvalue, hereditary.reached htarget⟩
  · exact hereditary.reached (pairOf h).2
  · exact spread h
  · exact List.forall_mem_flatMap.mpr fun n hn => hereditary.keyAndValue (h n hn)
  · exact List.forall_mem_append.mpr
      ⟨hereditary.reached (pairOf h).1, spread (hereditary _ (pairOf h).2)⟩
  · exact List.forall_mem_cons.mpr ⟨(pairOf h).1, spread (hereditary _ (pairOf h).2)⟩
  · exact List.forall_mem_cons.mpr ⟨(pairOf h).1, hereditary _ (pairOf h).2⟩
  · exact h

end Parts

/-! ## Runners that refuse -/

/-- The runner that does as another with tasks of a sort, and **halts at all others**. -/
noncomputable def Runner.within (P : Node → Prop) (run : Runner) : Runner := by
  classical exact fun t => if t.IsOf P then run t else throw .halted

section Within

variable {run : Runner} {t : Task} {s : Store} {frame : FrameRef}

theorem Runner.within_of_isOf (h : t.IsOf P) : run.within P t = run t :=
  if_pos h

theorem Runner.AgreeBut.within {run' : Runner} {t₀ : Task} {s₀ : Store}
    (agree : run.AgreeBut run' t₀ s₀) : (run.within P).AgreeBut (run'.within P) t₀ s₀ := by
  intro t s other
  unfold Runner.within
  split
  · exact agree t s other
  · rfl

/-- Two runners that agree but for a task are the same where that is refused. -/
theorem Runner.AgreeBut.within_eq {run' : Runner} {t₀ : Task} {s₀ : Store}
    (agree : run.AgreeBut run' t₀ s₀) (refused : ¬ t₀.IsOf P) : run'.within P = run.within P := by
  funext t s
  unfold Runner.within
  split
  · rename_i isOf
    exact agree t s fun here => refused (here.1 ▸ isOf)
  · rfl

/-- What refuses keeps every relation that is kept otherwise. -/
theorem Runner.within_keeps {r : Store → Store → Prop} (hr : Store.Orders P Set.univ r)
    (hrun : ∀ t, t.IsOf P → (run t).Keeps r) (t : Task) : (run.within P t).Keeps r := by
  unfold Runner.within
  split
  · rename_i isOf
    exact hrun t isOf
  · exact hr.refl

theorem Errand.perform_within {e : Errand} (h : ∀ n, e = .evaluate n → P n) :
    e.perform (run.within P) frame = e.perform run frame := by
  cases e with
  | evaluate n => exact Runner.within_of_isOf (h n rfl)
  | resolve => rfl
  | call t isCall => exact Runner.within_of_isOf isCall.isOf

/-- A course on which nothing but nodes of a sort is evaluated makes no use of a runner with
others. -/
theorem Course.perform_within (c : Course α)
    (h : ∀ n ∈ evaluatedNodes (c.items run frame s), P n) :
    c.perform (run.within P) frame s = c.perform run frame s := by
  induction c generalizing s with
  | done a => rfl
  | own step next ih =>
    rw [items] at h
    rw [perform, perform]
    cases here : step s with
    | ok b s' =>
      rw [here] at h
      rw [Step.bind_of_ok here, Step.bind_of_ok here]
      exact ih b h
    | error i s' => rw [Step.bind_of_error here, Step.bind_of_error here]
  | errand e next ih =>
    have same : e.perform (run.within P) frame = e.perform run frame := by
      refine Errand.perform_within fun n evaluates => h n ?_
      rw [items, evaluates]
      split <;> exact List.mem_cons_self
    rw [items] at h
    rw [perform, perform, same]
    cases here : e.perform run frame s with
    | ok v s' =>
      rw [here] at h
      rw [Step.bind_of_ok here, Step.bind_of_ok here]
      exact ih v fun n hn => h n (((List.sublist_cons_self _ _).filterMap _).subset hn)
    | error i s' => rw [Step.bind_of_error here, Step.bind_of_error here]

end Within

/-! ## Nodes of a sort -/

namespace Walk

section Errors

variable {run run' : Runner} {n : Node} {frame : FrameRef} {t₀ : Task} {s s₀ s₁ : Store}
  {i : Interrupt}

/-- Whatever sort a node is of, evaluating it is composed. -/
theorem node_composed (n : Node) :
    Composed (fun _ => True) Set.univ (Task.StaysIn frame) fun run => evaluating run n frame :=
  evaluating_composed Node.hereditary_true trivial trivial

/-- Interrupts other than errors are carried out of an evaluation. -/
theorem node_carries (depends : DependsOn (fun run => evaluating run n frame) run s t₀ s₀)
    (agree : run.AgreeBut run' t₀ s₀) (ends : run' t₀ s₀ = .error i s₁)
    (noError : ∀ e, i ≠ .error e) : node run' n frame s = .error i s₁ :=
  Step.locating_of_interrupted ((node_composed n).carries depends agree ends) noError

/-- **Where an error of an evaluation comes from**, before it is set at the position of the node:
it has no position, or it has come out of what the evaluation depends on. -/
theorem node_raises {e : ProgramError} (raised : node run n frame s = .error (.error e) s₁) :
    ∃ e₀, e = e₀.locatedAt n.position? ∧ (e₀.position = none ∨ ∃ t₀ s₀,
      DependsOn (fun run => node run n frame) run s t₀ s₀ ∧ run t₀ s₀ = .error (.error e₀) s₁) := by
  obtain ⟨e₀, within, rfl⟩ := Step.error_of_locating raised
  refine ⟨e₀, rfl, ((node_composed n).raises within).imp_right fun ⟨t₀, s₀, depends, came⟩ => ?_⟩
  have halted := node_carries depends (run.interruptedAt_agreeBut t₀ s₀ .halted)
    (run.interruptedAt_self t₀ s₀ .halted) nofun
  exact ⟨t₀, s₀, .of_halts halted (by rw [raised]; nofun), came⟩

end Errors

variable (hereditary : Node.Hereditary P) {n : Node} {run : Runner} {frame : FrameRef}
include hereditary

/-- **Evaluating a node of a sort** makes no use of the runner with nodes of others. -/
theorem evaluating_within (h : P n) : evaluating (run.within P) n frame = evaluating run n frame := by
  cases n with
  | leaf | stray => rfl
  | branch kind position children =>
    have follows : Follows frame (fun run => branch run kind children frame) (fun _ => ())
      (.ofKind kind children) := branch_follows children kind
    obtain ⟨course, same, path⟩ := follows
    have evaluating_eq (run : Runner) :
        evaluating run (.branch kind position children) frame = course.perform run frame := same run
    rw [evaluating_eq, evaluating_eq]
    funext s
    refine course.perform_within fun n hn => ?_
    have within := Agenda.ofKind_within children kind _ _ (path run s)
    exact hereditary.parts (hereditary _ h) kind n (within.subset hn)

variable {r : Store → Store → Prop} (hr : Store.Orders P Set.univ r) {t₀ : Task} {s s₀ : Store}
include hr

/-- **Evaluating a node of a sort** keeps a relation if that keeps it which is of the sort. -/
theorem node_keeps (h : P n) (hrun : ∀ t, t.IsOf P → (run t).Keeps r) :
    (node run n frame).Keeps r := by
  rw [node_eq, ← evaluating_within hereditary h]
  have composed : Composed P Set.univ (Task.StaysIn frame) fun run => evaluating run n frame :=
    evaluating_composed hereditary h trivial
  exact (composed.keeps hr fun t _ => Runner.within_keeps hr hrun t).locating hr.trans hr.refl

/-- **What it depends on** is of that sort. -/
theorem node_handsOn (h : P n) (hrun : ∀ t, t.IsOf P → (run t).Keeps r)
    (depends : DependsOn (fun run => node run n frame) run s t₀ s₀) :
    t₀.StaysIn frame ∧ t₀.IsOf P ∧ r s s₀ := by
  have composed : Composed P Set.univ (Task.StaysIn frame) fun run => evaluating run n frame :=
    evaluating_composed hereditary h trivial
  obtain ⟨run', agree, differ⟩ := dependsOn_of_node depends
  have differ : evaluating (run'.within P) n frame s ≠ evaluating (run.within P) n frame s := by
    rwa [evaluating_within hereditary h, evaluating_within hereditary h]
  obtain ⟨stays, kept⟩ := composed.handsOn_of_differ hr
    (fun t _ => Runner.within_keeps hr hrun t) agree.within differ
  refine ⟨stays, ?_, kept⟩
  -- If it were not of the sort, the two runners would refuse it alike.
  refine Classical.byContradiction fun other => differ ?_
  rw [agree.within_eq other]

end Walk

end Scriptlet
