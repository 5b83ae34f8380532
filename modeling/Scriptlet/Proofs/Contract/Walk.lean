import Scriptlet.Proofs.Contract.Collection

/-!
# The walk over a tree obeys

Functions, statements and the walk itself. A function that is made keeps a frame within
reach and a body of the proper shape, so that running it later is like running any
other part of the program. It runs in a new frame, and that frame is none of those
outside of calls: a return may come out of its statements, and the call takes it.
-/

namespace Scriptlet.Walk

variable {R : Regime} {may : Prop} {s : Store} {run : Runner} {children : List Node}
  {frame : FrameRef}

/-! ## Functions -/

theorem parameterNames_obeys {names : List Node}
    (h : ∀ n ∈ names, R.Has (·.isLeafOf .identifier) n) :
    (parameterNames names).Obeys R may s fun _ _ => True := by
  induction names generalizing s with
  | nil => exact .pure fun _ => trivial
  | cons n rest ih =>
    unfold parameterNames
    split
    · exact (ih fun n hn => h n (List.mem_cons_of_mem _ hn)).bind fun _ _ _ _ =>
        .pure fun _ => trivial
    · rename_i hnone
      refine .throw fun hs => ?_
      obtain ⟨t, position, rfl⟩ := Node.isLeafOf_iff.mp (h n List.mem_cons_self hs).2
      cases hnone

/-- The names of all parameters in a node. -/
theorem parameters_obeys {n : Node} (h : R.Has (·.isOf .params) n) :
    (parameterNames n.children).Obeys R may s fun _ _ => True :=
  parameterNames_obeys (h.admits.hasAll fun ha => by simpa [Kind.admits] using ha)

theorem newFunction_obeys {params : List Text} {body : Node} {name : Option Text}
    {kind : FunctionKind} (reached : .frame frame ∉ R.garbage) (h : R.Has Node.isBody body) :
    (newFunction params body frame name kind).Obeys R may s fun f _ =>
      (Value.function f).Fits R :=
  .get_bind fun _ => .make fun hs => ⟨hs.newFunction ⟨reached, h⟩,
    (Value.fits_function _).mpr (hs.newFunction_not_mem _)⟩

theorem isBody_of_block {n : Node} (h : n.isOf .block = true) : n.isBody = true := by
  simp [Node.isBody, h]

theorem function_obeys (reached : .frame frame ∉ R.garbage) (h : R.Admits .function children) :
    (function children frame).Obeys R may s R.Yields := by
  have two : R.shaped → 1 < children.length := fun hs => by
    match children, (h hs).1 with
    | [_, _], _ | [_, _, _], _ => simp
  refine (Step.child_obeys fun hs => Nat.lt_of_succ_lt (two hs)).bind fun names _ _ hnames => ?_
  refine (Step.child_obeys two).bind fun body _ _ hbody => ?_
  have params : R.Has (·.isOf .params) names := h.has (List.mem_of_getElem? hnames) fun ha => by
    match children, ha with
    | [_, _], ha | [_, _, _], ha => simp_all [Kind.admits]
  have body : R.Has Node.isBody body := h.has (List.mem_of_getElem? hbody) fun ha => by
    match children, ha with
    | [_, _], ha | [_, _, _], ha => simp_all [Kind.admits, isBody_of_block]
  refine (parameters_obeys params).bind fun params _ _ _ => ?_
  split
  · exact (newFunction_obeys reached body).map fun f _ _ hf => .inl hf
  · refine Step.Obeys.bind (Q := fun own _ => .frame own ∉ R.garbage)
      (.make fun hs => ⟨(hs.openInner reached).1, (hs.openInner reached).2.1⟩)
      fun own _ _ hown => ?_
    refine (newFunction_obeys hown body).bind fun f _ _ hf => ?_
    exact (Step.define_obeys hown hf).bind fun _ _ _ _ => .pure fun _ => .inl hf

theorem arrow_obeys (reached : .frame frame ∉ R.garbage) (h : R.Admits .arrow children) :
    (arrow children frame).Obeys R may s R.Yields := by
  refine (Step.pair_obeys h (by simp [Kind.pairs])).bind fun parts _ _ hparts => ?_
  obtain ⟨names, body⟩ := parts
  obtain rfl : children = [names, body] := hparts
  refine (parameters_obeys (h.has (by simp) (by simp_all [Kind.admits]))).bind
    fun params _ _ _ => ?_
  exact (newFunction_obeys reached (h.has (by simp) (by simp_all [Kind.admits]))).map
    fun f _ _ hf => .inl hf

theorem functionDeclaration_obeys (reached : .frame frame ∉ R.garbage)
    (h : R.Admits .functionDeclaration children) :
    (functionDeclaration children frame).Obeys R may s R.Yields := by
  refine (Step.triple_obeys h (by simp [Kind.triples])).bind fun parts _ _ hparts => ?_
  obtain ⟨nameNode, names, body⟩ := parts
  obtain rfl : children = [nameNode, names, body] := hparts
  have hbody : R.Has Node.isBody body :=
    h.has (by simp) fun ha => isBody_of_block (by simp_all [Kind.admits])
  refine (Step.identifier_obeys (h.has (by simp) (by simp_all [Kind.admits]))).bind
    fun name _ _ _ => ?_
  refine .get_bind fun _ => ?_
  dsimp only
  split
  · exact .pure fun _ => .inl Value.fits_undefined
  · refine (parameters_obeys (h.has (by simp) (by simp_all [Kind.admits]))).bind
      fun params _ _ _ => ?_
    refine (newFunction_obeys reached hbody).bind fun f _ _ hf => ?_
    exact (Step.define_obeys reached hf).bind fun _ _ _ _ =>
      .pure fun _ => .inl Value.fits_undefined

/-- Binding functions beforehand. -/
theorem hoist_obeys (reached : .frame frame ∉ R.garbage) {nodes : List Node}
    (h : ∀ n ∈ nodes, R.Has Node.isStatement n) :
    (hoist frame nodes).Obeys R may s fun _ _ => True := by
  induction nodes generalizing s with
  | nil => exact .pure fun _ => trivial
  | cons n rest ih =>
    have hrest : ∀ n ∈ rest, R.Has Node.isStatement n := fun n hn => h n (List.mem_cons_of_mem _ hn)
    unfold hoist
    split
    · exact .pure fun _ => trivial
    · rename_i position children others same
      obtain ⟨rfl, rfl⟩ := List.cons.inj same
      refine (functionDeclaration_obeys reached (h _ List.mem_cons_self).branch).bind
        fun _ _ _ _ => ?_
      exact (Step.remark_obeys fun _ => rfl).bind fun _ _ _ _ => ih hrest
    · rename_i n others _ same
      obtain ⟨rfl, rfl⟩ := List.cons.inj same
      exact ih hrest

/-! ## Statements -/

theorem inTurn_obeys (hrun : run.Keeps R) (reached : .frame frame ∉ R.garbage) {last : Value}
    {nodes : List Node} (hlast : R.Yields last s) (h : ∀ n ∈ nodes, R.Has Node.isStatement n) :
    (inTurn run frame last nodes).Obeys R (R.InCall frame) s R.Yields := by
  induction nodes generalizing last s with
  | nil => exact .pure fun _ => hlast
  | cons n rest ih =>
    rw [inTurn]
    exact (hrun.statement reached (h n List.mem_cons_self)).bind fun v _ _ hv =>
      ih hv fun n hn => h n (List.mem_cons_of_mem _ hn)

theorem statements_obeys (hrun : run.Keeps R) (reached : .frame frame ∉ R.garbage)
    (h : ∀ n ∈ children, R.Has Node.isStatement n) :
    (statements run children frame).Obeys R (R.InCall frame) s R.Yields :=
  (hoist_obeys reached h).bind fun _ _ _ _ =>
    inTurn_obeys hrun reached (.inl Value.fits_undefined) h

theorem optional_obeys (hrun : run.Keeps R) (reached : .frame frame ∉ R.garbage)
    {o : Option Node} (h : ∀ n, o = some n → R.Has Node.isExpression n) :
    (optional run frame o).Obeys R (¬ R.shaped) s R.Yields := by
  cases o with
  | none => exact .pure fun _ => .inl Value.fits_undefined
  | some n => exact hrun.expression reached (h n rfl)

theorem declaration_obeys (hrun : run.Keeps R) (reached : .frame frame ∉ R.garbage)
    {declarators : List Node} (h : ∀ n ∈ declarators, R.Has (·.isOf .declarator) n) :
    (declaration run frame declarators).Obeys R (¬ R.shaped) s R.Yields := by
  induction declarators generalizing s with
  | nil => exact .pure fun _ => .inl Value.fits_undefined
  | cons n rest ih =>
    have hn : R.Has (·.isOf .declarator) n := h n List.mem_cons_self
    have walked : R.Has Node.isWalked n := hn.mono fun hk => by
      obtain ⟨position, children, rfl⟩ := Node.isOf_iff.mp hk
      rfl
    rw [declaration]
    refine (hrun.quiet reached walked fun hs =>
      Node.mayReturn_eq_false (.inr (.inl (hn hs).2))).bind fun _ _ _ _ => ?_
    exact ih fun n hn => h n (List.mem_cons_of_mem _ hn)

theorem declarator_obeys (hrun : run.Keeps R) (reached : .frame frame ∉ R.garbage)
    (h : R.Admits .declarator children) :
    (declarator run children frame).Obeys R (¬ R.shaped) s R.Yields := by
  refine (Step.first_obeys h (Kind.exists_name (.inr rfl))).bind fun nameNode _ _ hname => ?_
  refine (Step.identifier_obeys hname).bind fun name _ _ _ => ?_
  have value : ∀ n, children[1]? = some n → R.Has Node.isExpression n := fun n hn =>
    h.has (List.mem_of_getElem? hn) fun ha => by
      match children, ha with
      | [_, _], ha => simp_all [Kind.admits]
  refine (optional_obeys hrun reached value).bind fun v _ _ hv => ?_
  exact (Step.define_obeys reached hv.fits_orUndefined).bind fun _ _ _ _ =>
    .pure fun _ => .inl hv.fits_orUndefined

/-- A return comes out only where the frame is in a call, and what it carries fits. -/
theorem returning_obeys (hrun : run.Keeps R) (reached : .frame frame ∉ R.garbage)
    (h : R.Admits .returnStatement children) :
    (returning run children frame).Obeys R (R.InCall frame) s R.Yields := by
  have value : ∀ n, children.head? = some n → R.Has Node.isExpression n := fun n hn =>
    h.has (List.mem_of_head? hn) fun ha => by
      match children, ha with
      | [_], ha => simp_all [Kind.admits]
  refine ((optional_obeys hrun reached value).weaken fun h hs => absurd hs h).bind
    fun v _ _ hv => ?_
  split
  · exact .pure fun _ => hv
  · rename_i notFailed
    refine .get_bind fun hs => ?_
    split
    · exact .pure fun _ => hv
    · rename_i called
      refine .throw ⟨fun _ ho => ?_, hv.fits notFailed⟩
      rw [hs.functionFrame?_eq_none ho] at called
      cases called

/-- A condition, of which the branches are statements or expressions. -/
theorem conditional_obeys (hrun : run.Keeps R) (reached : .frame frame ∉ R.garbage)
    {kind : Kind} (h : R.Admits kind children) (hm : ¬ R.shaped → may)
    (hk : kind = .conditional ∨ kind = .conditionalStatement)
    (branches : ∀ n ∈ children.tail, ∀ s, (run (.eval n frame)).Obeys R may s R.Yields) :
    (conditional run children frame).Obeys R may s R.Yields := by
  have two : R.shaped → 1 < children.length := fun hs => by
    have admitted := (h hs).1
    match children with
    | _ :: _ :: _ => simp
    | [] | [_] => rcases hk with rfl | rfl <;> cases admitted
  have branch : ∀ i n, children[i + 1]? = some n →
      ∀ s, (run (.eval n frame)).Obeys R may s R.Yields := fun i n hn =>
    branches n (List.mem_of_getElem? (by rw [List.getElem?_tail]; exact hn))
  refine (Step.first_obeys h (Kind.exists_first (by
    rcases hk with rfl | rfl <;> simp [Kind.headed]))).bind fun test _ _ htest => ?_
  refine ((hrun.expression reached htest).weaken hm).bind fun v _ _ hv => ?_
  split
  · exact .pure fun _ => hv
  · refine Step.Obeys.ofExcept_bind fun truth _ => ?_
    split
    · exact (Step.child_obeys two).bind fun n s' _ hn => branch 0 n hn s'
    · cases halternate : children[2]? with
      | none => exact .pure fun _ => .inl Value.fits_undefined
      | some n => exact branch 1 n halternate _

end Scriptlet.Walk
