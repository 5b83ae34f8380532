import Scriptlet.Program
import Scriptlet.Proofs.Contract.Walk

/-!
# Tasks obey

With a rule for each kind of node, each task obeys as long as the runner it is given
keeps the regime. The runner to a depth of one more does tasks with the runner to the
depth, and that to no depth does nothing: by induction all of them keep the regime.
-/

namespace Scriptlet

variable {R : Regime} {may : Prop} {s : Store} {run : Runner} {children : List Node}
  {frame : FrameRef}

namespace Walk

/-! ## Nodes -/

/-- What comes out where no return may comes out wherever one may. -/
theorem inCall_of_not_shaped (h : ¬ R.shaped) : R.InCall frame :=
  fun hs => absurd hs h

/-- **Every kind of node** gives what fits, or a failure with a warning. -/
theorem branch_obeys (hrun : run.Keeps R) (reached : .frame frame ∉ R.garbage) {kind : Kind}
    {position : Option Position}
    (h : R.Has Node.isWalked (.branch kind position children)) :
    (branch run kind children frame).Obeys R (R.MayReturn (.branch kind position children) frame)
      s R.Yields := by
  have admits : R.Admits kind children := h.branch
  have quiet {step : Step Value} {s : Store} (hstep : step.Obeys R (¬ R.shaped) s R.Yields) :
      step.Obeys R (R.MayReturn (.branch kind position children) frame) s R.Yields :=
    hstep.weaken fun hn hs => absurd hs hn
  have speaking {step : Step Value} {s : Store} (hstep : step.Obeys R (R.InCall frame) s R.Yields)
      (hk : (Node.branch kind position children).mayReturn = true) :
      step.Obeys R (R.MayReturn (.branch kind position children) frame) s R.Yields :=
    hstep.weaken fun hcall hs => ⟨hk, hcall hs⟩
  have unwalked (hk : (Node.branch kind position children).isWalked = false) :
      ¬ R.shaped := fun hs => by simpa [hk] using (h hs).2
  cases kind with
  | program | block =>
    exact speaking (statements_obeys hrun reached
      (admits.hasAll fun ha => List.all_eq_true.mp ha)) rfl
  | expressionStatement =>
    refine quiet ((Step.first_obeys admits (Kind.exists_first (by simp [Kind.headed]))).bind
      fun n _ _ hn => hrun.expression reached hn)
  | empty => exact .pure fun _ => .inl Value.fits_undefined
  | declaration =>
    refine quiet (declaration_obeys hrun reached fun n hn => admits.has (List.mem_of_mem_drop hn)
      fun ha => of_mem_tail_oneAndSome ha (List.drop_one ▸ hn))
  | declarator => exact quiet (declarator_obeys hrun reached admits)
  | functionDeclaration => exact functionDeclaration_obeys reached admits
  | function => exact function_obeys reached admits
  | arrow => exact arrow_obeys reached admits
  | conditionalStatement =>
    refine speaking (conditional_obeys hrun reached admits inCall_of_not_shaped (.inr rfl)
      fun n hn _ => hrun.statement reached (admits.has (List.mem_of_mem_tail hn) fun ha =>
        or_self_iff.mp (of_mem_tail_twoOrThree ha hn))) rfl
  | conditional =>
    refine quiet (conditional_obeys hrun reached admits id (.inl rfl)
      fun n hn _ => hrun.expression reached (admits.has (List.mem_of_mem_tail hn) fun ha =>
        or_self_iff.mp (of_mem_tail_three ha hn)))
  | returnStatement => exact speaking (returning_obeys hrun reached admits) rfl
  | literal => exact literal_obeys admits
  | identifier =>
    refine (Step.leafChild_obeys fun hs => ?_).bind fun _ _ _ _ =>
      (Step.lookup_obeys reached).mono id fun _ _ _ hv => .inl hv
    obtain ⟨n, rest, rfl, hn⟩ := Kind.exists_name (.inl rfl) (admits hs).1
    obtain ⟨t, position, rfl⟩ := Node.isLeafOf_iff.mp hn
    exact ⟨_, rfl, rfl⟩
  | this => exact (Step.lookup_obeys reached).mono id fun _ _ _ hv => .inl hv
  | unary => exact quiet (unary_obeys hrun reached admits)
  | binary => exact quiet (binary_obeys hrun reached admits (.inl rfl))
  | logical => exact quiet (binary_obeys hrun reached admits (.inr rfl))
  | array => exact quiet (list_obeys hrun reached admits)
  | object => exact quiet (object_obeys hrun reached admits)
  | member => exact quiet (member_obeys hrun reached admits)
  | assign => exact quiet (assign_obeys hrun reached admits)
  | update => exact quiet (update_obeys hrun reached admits)
  | call => exact quiet (call_obeys hrun reached admits)
  | construct => exact quiet (construct_obeys hrun reached admits)
  | template => exact quiet (template_obeys hrun reached admits)
  | templateChunk =>
    exact (chunk_obeys admits).bind fun _ _ _ _ => .pure fun _ => .inl (Value.fits_text _)
  | taggedTemplate => exact quiet (taggedTemplate_obeys hrun reached admits)
  | params | arguments | spread | hole | property | computedKey | other =>
    exact Step.failWith_obeys fun hs => absurd hs (unwalked rfl)

/-- **Evaluating a node** gives what fits, or a failure with a warning. -/
theorem node_obeys (hrun : run.Keeps R) (reached : .frame frame ∉ R.garbage) {n : Node}
    (h : R.Has Node.isWalked n) :
    (node run n frame).Obeys R (R.MayReturn n frame) s R.Yields := by
  refine .locating ?_
  cases n with
  | branch kind position children => exact branch_obeys hrun reached h
  | leaf | stray => exact Step.failWith_obeys fun hs => absurd (h hs).2 (by simp [Node.isWalked,
      Node.kind?])

/-! ## Calls -/

theorem bindParameters_obeys (reached : .frame frame ∉ R.garbage) {names : List Text}
    {args : List Value} (h : ∀ v ∈ args, v.Fits R) :
    (bindParameters frame names args).Obeys R may s fun _ _ => True := by
  induction names generalizing args s with
  | nil => exact .pure fun _ => trivial
  | cons name names ih =>
    have first : (args.headD .null).Fits R := by
      cases args with
      | nil => exact Value.fits_null
      | cons v rest => exact h v List.mem_cons_self
    rw [bindParameters]
    exact (Step.define_obeys reached first).bind fun _ _ _ _ =>
      ih fun v hv => h v (List.mem_of_mem_tail hv)

theorem bindReceiver_obeys (reached : .frame frame ∉ R.garbage) {kind : FunctionKind}
    {receiver : Option Value} (h : ∀ v, receiver = some v → v.Fits R) :
    (bindReceiver frame kind receiver).Obeys R may s fun _ _ => True := by
  cases receiver with
  | none => exact .pure fun _ => trivial
  | some v =>
    rw [bindReceiver]
    split
    · exact Step.define_obeys reached (h v rfl)
    · exact .pure fun _ => trivial

theorem untilFailure_obeys (hrun : run.Keeps R) (reached : .frame frame ∉ R.garbage)
    {last : Value} {nodes : List Node} (hlast : last.Fits R)
    (h : ∀ n ∈ nodes, R.Has Node.isStatement n) :
    (untilFailure run frame last nodes).Obeys R (R.InCall frame) s R.Yields := by
  induction nodes generalizing last s with
  | nil => exact .pure fun _ => .inl hlast
  | cons n rest ih =>
    rw [untilFailure]
    refine (hrun.statement reached (h n List.mem_cons_self)).bind fun v _ _ hv => ?_
    split
    · exact .pure fun _ => hv
    · rename_i notFailed
      exact ih (hv.fits notFailed) fun n hn => h n (List.mem_cons_of_mem _ hn)

/-- A return that is taken is a result that fits, and none comes out. -/
theorem catchingReturn_obeys {step : Step Value} (h : step.Obeys R may s R.Yields) :
    (catchingReturn step).Obeys R False s R.Yields := by
  intro hs
  have h := h hs
  unfold catchingReturn
  simp only [tryCatch, tryCatchThe, MonadExceptOf.tryCatch]
  unfold EStateM.tryCatch
  cases hstep : step s with
  | ok v s' =>
    rw [hstep] at h
    exact h
  | error i s' =>
    rw [hstep] at h
    cases i with
    | returned v => exact ⟨h.1, .inl h.2.2⟩
    | _ => exact h

theorem body_obeys (hrun : run.Keeps R) (reached : .frame frame ∉ R.garbage)
    {statements : List Node} {constructs : Bool} (h : ∀ n ∈ statements, R.Has Node.isStatement n) :
    (body run statements frame constructs).Obeys R False s R.Yields := by
  refine (hoist_obeys reached h).bind fun _ _ _ _ => catchingReturn_obeys
    ((untilFailure_obeys hrun reached Value.fits_undefined h).bind fun v _ _ hv => ?_)
  split
  · exact .pure fun _ => hv
  · refine .pure fun _ => ?_
    split
    · exact .inl Value.fits_undefined
    · exact hv

/-- **Running a function** gives what fits, or a failure with a warning, and lets no
return out. -/
theorem activate_obeys (hrun : run.Keeps R) {f : FunctionRef} {args : List Value}
    {receiver : Option Value} {constructs : Bool} (h : (Value.function f).Fits R)
    (hargs : ∀ v ∈ args, v.Fits R) (hreceiver : ∀ v, receiver = some v → v.Fits R) :
    (activate run f args receiver constructs).Obeys R (¬ R.shaped) s R.Yields := by
  refine .get_bind fun hs => ?_
  split
  · exact .pure fun _ => .inl Value.fits_undefined
  rename_i cell hcell
  obtain ⟨scope, hbody⟩ := hs.functions f cell ((Value.fits_function f).mp h) hcell
  refine Step.Obeys.bind
    (Q := fun frame _ => .frame frame ∉ R.garbage ∧ frame ∉ R.outside)
    (.make fun hs => hs.openInner scope) fun frame _ _ ⟨reached, inside⟩ => ?_
  refine .change_bind (fun hs => hs.markFunction reached inside) ?_
  refine (bindParameters_obeys reached hargs).bind fun _ _ _ _ => ?_
  refine (bindReceiver_obeys reached hreceiver).bind fun _ _ _ _ => ?_
  refine (Step.remark_obeys fun _ => rfl).bind fun _ _ _ _ => ?_
  split
  · rename_i position statements same
    have block : R.Has (·.isOf .block) cell.body := fun hs => ⟨(hbody hs).1, by simp [same, Node.isOf]⟩
    have children := (same ▸ block).branch.hasAll fun ha => by simpa [Kind.admits] using ha
    exact (body_obeys hrun reached children).weaken False.elim
  · rename_i other
    refine hrun.expression reached fun hs => ⟨(hbody hs).1, ?_⟩
    rcases Bool.or_eq_true_iff.mp (hbody hs).2 with hblock | he
    · obtain ⟨position, children, same⟩ := Node.isOf_iff.mp hblock
      exact absurd same (other position children)
    · exact he

/-- **Calling a value as the host does** gives what fits. -/
theorem hostCall_obeys {host : Host} (hhost : host.Keeps R) (hrun : run.Keeps R)
    {callee : Value} {args : List Value} (h : callee.Fits R)
    (callable : R.plain → callee.isCallable = true) (hargs : ∀ v ∈ args, v.Fits R) :
    (hostCall host run callee args).Obeys R (¬ R.shaped) s R.Fitting := by
  unfold hostCall
  split
  · exact (hrun.activate h hargs (by simp)).map fun _ _ _ hv => hv.fits_orUndefined
  · exact Step.callMethod_obeys hrun ((Value.fits_method _ _ _).mp h) hargs
  · exact hhost ((Value.fits_native _).mp h) _ run args s hrun hargs
  · obtain ⟨hp, href⟩ := (Value.fits_hostMethod _ _ _).mp h
    exact hhost hp _ run _ s hrun
      (List.forall_mem_cons.mpr ⟨(Value.fits_host _).mpr ⟨hp, href⟩, hargs⟩)
  · refine .fault fun hp => ?_
    have := callable hp
    cases callee <;> simp_all [Value.isCallable]

end Walk

/-! ## Running tasks -/

/-- **A task is done** as the regime asks. -/
theorem Task.perform_keeps {host : Host} (hhost : host.Keeps R) (hrun : run.Keeps R) :
    Runner.Keeps R fun task => task.perform host run where
  eval reached fits := Walk.node_obeys hrun reached fits
  activate callee arguments subject := Walk.activate_obeys hrun callee arguments subject
  call fits callable arguments := Walk.hostCall_obeys hhost hrun fits callable arguments

/-- **Running tasks to any depth** keeps every regime that the functions of the host
keep. -/
theorem Task.runTo_keeps {host : Host} (hhost : host.Keeps R) (depth : Nat) :
    Runner.Keeps R (Task.runTo host depth) := by
  induction depth with
  | zero =>
    exact ⟨fun _ _ => .throw trivial, fun _ _ _ => .throw trivial, fun _ _ _ => .throw trivial⟩
  | succ depth ih => exact Task.perform_keeps hhost ih

end Scriptlet

/-!
## Programs obey

A run of a program starts from a store and from some sites in it: the frame it runs
in, and whatever the host keeps for itself. What cannot be reached from these is
garbage. A start is sound if what can be reached from them is as the regime asks, and
then the whole run obeys.
-/

namespace Scriptlet

/-! ### Starts -/

/-- The **regime of a start** from some sites of a store. -/
def Regime.ofStart (clean shaped plain : Prop) (outside : Set FrameRef) (roots : Set Site)
    (s : Store) : Regime :=
  ⟨clean, shaped, plain, s.unreached roots, outside, s.log⟩

namespace Store

variable {s : Store} {roots : Set Site} {p q : Site}

/-- What is no garbage, and has been handed out, can be reached. -/
theorem exists_reaches (h : p ∉ s.unreached roots) (hp : p.IsIn s) :
    ∃ r ∈ roots, s.Reaches r p :=
  Classical.byContradiction fun hnone => h ⟨hp, fun r hr reaches => hnone ⟨r, hr, reaches⟩⟩

theorem not_mem_unreached {r : Site} (hr : r ∈ roots) (h : s.Reaches r p) :
    p ∉ s.unreached roots :=
  fun hp => hp.2 r hr h

theorem root_not_mem_unreached (h : p ∈ roots) : p ∉ s.unreached roots :=
  not_mem_unreached h .refl

end Store

/-- **A start is sound** if the values, the functions and the frames that can be reached
are as the regime asks. -/
theorem Regime.sound_start {clean shaped plain : Prop} {outside : Set FrameRef}
    {roots : Set Site} {s : Store}
    (values : ∀ r ∈ roots, ∀ p, s.Reaches r p → ∀ v ∈ s.held p, ∀ w, v.Holds w →
      (clean → w.isFailure = false) ∧ (plain → w.isOfHost = false))
    (functions : ∀ r ∈ roots, ∀ f cell, s.Reaches r (.function f) → s.functions[f]? = some cell →
      shaped → cell.body.Conforms ∧ cell.body.isBody = true)
    (frames : ∀ f ∈ outside, ∃ cell, s.frames[f]? = some cell ∧ cell.isFunction = false ∧
      ∀ p, cell.parent = some p → p ∈ outside) :
    (Regime.ofStart clean shaped plain outside roots s).Sound s where
  taken p hp := hp.1
  held p hp v hv := by
    have there : p.IsIn s := Classical.byContradiction fun hout => by
      simp [Store.held_eq_nil hout] at hv
    obtain ⟨r, hr, reaches⟩ := Store.exists_reaches hp there
    intro w hw
    obtain ⟨hclean, hplain⟩ := values r hr p reaches v hv w hw
    refine ⟨hclean, hplain, fun q hq => Store.not_mem_unreached hr (reaches.tail ?_)⟩
    exact .value hv ⟨w, hw, hq⟩
  functions f cell hf hcell := by
    have there : (Site.function f).IsIn s := (Array.getElem?_eq_some_iff.mp hcell).1
    obtain ⟨r, hr, reaches⟩ := Store.exists_reaches hf there
    exact ⟨Store.not_mem_unreached hr (reaches.tail (.scope hcell)),
      functions r hr f cell reaches hcell⟩
  frames f cell hf hcell := by
    have there : (Site.frame f).IsIn s := (Array.getElem?_eq_some_iff.mp hcell).1
    obtain ⟨r, hr, reaches⟩ := Store.exists_reaches hf there
    exact ⟨Store.not_mem_unreached hr (reaches.tail (.bindings hcell)),
      fun p hp => Store.not_mem_unreached hr (reaches.tail (.parent hcell hp))⟩
  outside f hf := by
    obtain ⟨cell, found, out, around⟩ := frames f hf
    exact ⟨cell, found, out, around⟩
  log := ⟨[], rfl, by simp⟩

/-- What can be reached from what is no garbage is none. -/
theorem Regime.Sound.not_mem_of_reaches {R : Regime} {s : Store} (hs : R.Sound s) {p q : Site}
    (hp : p ∉ R.garbage) (reaches : s.Reaches p q) : q ∉ R.garbage := by
  induction reaches with
  | refl => exact hp
  | tail _ leads ih =>
    cases leads with
    | value held names =>
      obtain ⟨w, holds, site⟩ := names
      exact (hs.held _ ih _ held w holds).2.2 _ site
    | scope found => exact (hs.functions _ _ ih found).1
    | bindings found => exact (hs.frames _ _ ih found).1
    | parent found inside => exact (hs.frames _ _ ih found).2 _ inside

/-- A store with nothing in it but **one frame that binds nothing**. -/
def Store.blank : Store :=
  (Store.empty.newObject []).2.openFrame 0 none none |>.2

/-- The one frame reaches nothing that holds a value. -/
theorem Store.held_blank (p : Site) : Store.blank.held p = [] := by
  cases p with
  | object ref => cases ref <;> rfl
  | _ => rfl

/-! ### Runs -/

namespace Program

variable {R : Regime} {s : Store} {run : Runner} {frame : FrameRef}

theorem runStatements_obeys (hrun : run.Keeps R) (reached : .frame frame ∉ R.garbage)
    {nodes : List Node} (h : ∀ n ∈ nodes, R.Has Node.isStatement n) :
    (runStatements run frame nodes).Obeys R (R.InCall frame) s R.FittingAll := by
  induction nodes generalizing s with
  | nil => exact .pure fun _ => by simp [Regime.FittingAll]
  | cons n rest ih =>
    rw [runStatements]
    refine (hrun.statement reached (h n List.mem_cons_self)).bind fun v _ _ hv => ?_
    refine (ih fun n hn => h n (List.mem_cons_of_mem _ hn)).bind fun others _ _ hothers => ?_
    exact .pure fun _ => List.forall_mem_cons.mpr ⟨hv.fits_orUndefined, hothers⟩

theorem prepare_obeys {may : Prop} (reached : .frame frame ∉ R.garbage) {program : Node}
    (h : ∀ n ∈ program.children, R.Has Node.isStatement n) :
    (prepare program frame).Obeys R may s fun _ _ => True :=
  .change_bind (fun hs => hs.beginRun _)
    ((Walk.hoist_obeys reached h).bind fun _ _ _ _ => Step.remark_obeys fun _ => rfl)

/-- **Running a program** gives what fits. -/
theorem runWith_obeys (hrun : run.Keeps R) (reached : .frame frame ∉ R.garbage) {program : Node}
    (h : ∀ n ∈ program.children, R.Has Node.isStatement n) :
    (runWith run program frame).Obeys R (R.InCall frame) s R.FittingAll :=
  (prepare_obeys reached h).bind fun _ _ _ _ => runStatements_obeys hrun reached h

/-- The statements of a program that conforms. -/
theorem statements_of_conforms {program : Node} (conforms : program.Conforms)
    (isProgram : program.isOf .program = true) :
    ∀ n ∈ program.children, n.Conforms ∧ n.isStatement = true := by
  obtain ⟨position, children, rfl⟩ := Node.isOf_iff.mp isProgram
  have admitted := conforms.admits
  intro n hn
  exact ⟨conforms.child hn, by simp [Kind.admits] at admitted; exact admitted n hn⟩

end Program

end Scriptlet
