import Scriptlet.Proofs.Unwinding.Composition
import Scriptlet.Proofs.Unwinding.OwnStep

/-!
# Evaluating nodes is composed

Every kind of node is evaluated by a composed procedure. It hands on calls, and
evaluations in its own frame: blocks open no frame, and what is evaluated in the frame
of a call is handed on by calling. Of statements it is told in addition that they hand on
nothing but their own children.
-/

namespace Scriptlet

/-! ## Sorts of tasks -/

namespace Task

/-- A task that evaluates no node: it calls something. -/
def IsCall : Task → Prop
  | eval .. => False
  | _ => True

/-- A task that evaluates nothing but in a given frame. -/
def StaysIn (frame : FrameRef) : Task → Prop
  | eval _ own => own = frame
  | _ => True

/-- A task that evaluates one of some nodes in a given frame. -/
def IsAmong (nodes : List Node) (frame : FrameRef) : Task → Prop
  | eval n own => n ∈ nodes ∧ own = frame
  | _ => False

theorem IsCall.staysIn {t : Task} (h : t.IsCall) (frame : FrameRef) : t.StaysIn frame := by
  cases t with
  | eval => exact h.elim
  | _ => trivial

theorem IsAmong.staysIn {t : Task} {nodes : List Node} {frame : FrameRef}
    (h : t.IsAmong nodes frame) : t.StaysIn frame := by
  cases t with
  | eval => exact h.2
  | _ => exact h.elim

end Task

namespace Composed

variable {P : Node → Prop} {known : Set FrameRef} {p : Runner → Step α} {frame : FrameRef}

theorem ofCalls (h : Composed P known Task.IsCall p) : Composed P known (Task.StaysIn frame) p :=
  h.mono fun _ call => call.staysIn frame

theorem ofParts {nodes : List Node} (h : Composed P known (Task.IsAmong nodes frame) p) :
    Composed P known (Task.StaysIn frame) p :=
  h.mono fun _ part => part.staysIn

/-- A node that is evaluated in the frame. -/
theorem eval (n : Node) : Composed P known (Task.StaysIn frame) fun run => run (.eval n frame) :=
  .task rfl

/-- Going on with a value depends on whether it is a failure. -/
theorem unlessFailure {hands : Task → Prop} {p : Runner → Step α} {q : Value → Runner → Step α}
    (v : Value) (failed : Composed P known hands p) (h : Composed P known hands (q v)) :
    Composed P known hands fun run => match v with
      | .failure => p run
      | v => q v run := by
  cases v with
  | failure => exact failed
  | _ => exact h

end Composed

namespace Step

variable {P : Node → Prop} {known : Set FrameRef}

/-! ## Calls -/

/-- **Calling back** hands on calls. -/
theorem invoke_composed (callee : Value) (args : List Value) :
    Composed P known Task.IsCall fun run => invoke run callee args := by
  unfold invoke
  cases callee with
  | function f => exact .map (.task trivial)
  | method | native | hostMethod => exact .task trivial
  | _ => exact .after (display_isOwn _) fun _ => .own (.wrongType _)

theorem callValue_composed (callee : Value) (args : List Value) (receiver : Option Value) :
    Composed P known Task.IsCall fun run => callValue run callee args receiver := by
  unfold callValue
  cases callee <;> exact .task trivial

theorem constructWith_composed (f : FunctionRef) (args : List Value) :
    Composed P known Task.IsCall fun run => constructWith run f args := by
  unfold constructWith
  refine .after (.makeElsewhere fun _ => ⟨rfl, rfl, .newObject .nil, Nat.le_refl _⟩) fun fresh =>
    .andThen (.task trivial) fun v => ?_
  cases v <;> exact .pure _

theorem construct_composed (callee : Value) (args : List Value) :
    Composed P known Task.IsCall fun run => construct run callee args := by
  unfold construct
  cases callee with
  | function f =>
    refine .after .get fun s => ?_
    cases s.functions[f]? with
    | none => exact constructWith_composed f args
    | some cell =>
      cases hkind : cell.kind with
      | plain =>
        simp only [hkind]
        exact constructWith_composed f args
      | arrow =>
        simp only [hkind]
        exact .own (.wrongType _)
  | native | hostMethod => exact .task trivial
  | _ => exact .after (display_isOwn _) fun _ => .own (.wrongType _)

end Step

namespace Walk

variable {P : Node → Prop} {known : Set FrameRef} {frame : FrameRef} (children : List Node)

/-! ## Statements -/

theorem mem_of_child {children : List Node} {index : Nat} {n : Node}
    (h : MayGive (fun _ => Step.child children index) n) : n ∈ children := by
  obtain ⟨run, s, s', gives⟩ := h
  exact Step.mem_of_child gives

theorem optional_composed {n? : Option Node} {nodes : List Node}
    (h : ∀ n, n? = some n → n ∈ nodes) :
    Composed P known (Task.IsAmong nodes frame) fun run => optional run frame n? := by
  cases n? with
  | none => exact .pure _
  | some n => exact .task ⟨h n rfl, rfl⟩

theorem inTurn_composed {nodes : List Node} (last : Value) (h : ∀ n ∈ children, n ∈ nodes) :
    Composed P known (Task.IsAmong nodes frame) fun run => inTurn run frame last children := by
  induction children generalizing last with
  | nil => exact .pure _
  | cons n rest ih =>
    refine .andThen (.task ⟨h n List.mem_cons_self, rfl⟩) fun v => ?_
    exact ih v fun m hm => h m (List.mem_cons_of_mem _ hm)

theorem statements_composed (hereditary : Node.Hereditary P) {children : List Node}
    (h : ∀ n ∈ children, P n) (isKnown : frame ∈ known) :
    Composed P known (Task.IsAmong children frame) fun run => statements run children frame :=
  .after (hoist_isOwn hereditary h isKnown) fun _ => inTurn_composed children _ fun _ h => h

theorem untilFailure_composed {nodes : List Node} (last : Value) (h : ∀ n ∈ children, n ∈ nodes) :
    Composed P known (Task.IsAmong nodes frame) fun run =>
      untilFailure run frame last children := by
  induction children generalizing last with
  | nil => exact .pure _
  | cons n rest ih =>
    refine .andThen (.task ⟨h n List.mem_cons_self, rfl⟩) fun v => ?_
    exact .unlessFailure v (.pure _) (ih v fun m hm => h m (List.mem_cons_of_mem _ hm))

theorem expressionStatement_composed :
    Composed P known (Task.IsAmong children frame) fun run =>
      (do run (.eval (← Step.child children 0) frame) : Step Value) :=
  .bind (.own (Step.child_isOwn children 0)) fun _ gives => .task ⟨mem_of_child gives, rfl⟩

theorem declaration_composed {nodes : List Node} (h : ∀ n ∈ children, n ∈ nodes) :
    Composed P known (Task.IsAmong nodes frame) fun run => declaration run frame children := by
  induction children with
  | nil => exact .pure _
  | cons n rest ih =>
    refine .andThen (.task ⟨h n List.mem_cons_self, rfl⟩) fun _ => ?_
    exact ih fun m hm => h m (List.mem_cons_of_mem _ hm)

theorem conditional_composed :
    Composed P known (Task.IsAmong children frame) fun run => conditional run children frame := by
  refine .bind (.own (Step.child_isOwn children 0)) fun test gives => ?_
  refine .andThen (.task ⟨mem_of_child gives, rfl⟩) fun v => .unlessFailure v (.pure _) ?_
  refine .after (.ofExcept _) fun truth => .ite ?_ ?_
  · exact .bind (.own (Step.child_isOwn children 1)) fun n gives =>
      .task ⟨mem_of_child gives, rfl⟩
  · exact optional_composed fun n found => List.mem_of_getElem? found

/-- **A return** hands on what it returns, and is raised by a step of its own. -/
theorem returning_composed :
    Composed P known (Task.IsAmong children frame) fun run => returning run children frame := by
  refine .andThen (optional_composed fun n found => List.mem_of_mem_head? found) fun v => ?_
  refine .unlessFailure v (.pure _) (.after .get fun s => ?_)
  cases s.functionFrame? frame with
  | none => exact .pure v
  | some _ => exact .own (.throw nofun)

theorem declarator_composed :
    Composed P known (Task.StaysIn frame) fun run => declarator run children frame := by
  have first : Composed P known (Task.IsAmong children frame) fun run =>
      optional run frame children[1]? :=
    optional_composed fun n found => List.mem_of_getElem? found
  refine .after (Step.child_isOwn children 0) fun n => ?_
  refine .after (Step.identifier_isOwn _ n) fun name => .andThen first.ofParts fun v => ?_
  exact .after (Step.define_isOwn frame name _) fun _ => .pure _

/-! ## Operators -/

theorem unary_composed :
    Composed P known (Task.StaysIn frame) fun run => unary run children frame := by
  refine .after (Step.pair_isOwn children) fun (operator, operand) => ?_
  dsimp only
  cases UnaryOperator.ofText? operator.asText with
  | none => exact .own (Step.failWith_isOwn _ _)
  | some op =>
    exact .andThen (.eval operand) fun v => .unlessFailure v (.pure _) (.own (.read _))

theorem binary_composed :
    Composed P known (Task.StaysIn frame) fun run => binary run children frame := by
  refine .after (Step.triple_isOwn children) fun (left, operator, right) => ?_
  refine .andThen (.eval left) fun a => .unlessFailure a (.pure _) ?_
  refine .after (decided?_isOwn _ a) fun decision => ?_
  cases decision with
  | some v => exact .pure v
  | none =>
    exact .andThen (.eval right) fun b => .unlessFailure b (.pure _)
      (.own (Step.applyBinary_isOwn _ a b))

/-! ## Templates -/

theorem templateTexts_composed :
    Composed P known (Task.StaysIn frame) fun run => templateTexts run frame children := by
  induction children with
  | nil => exact .pure _
  | cons part rest ih =>
    exact .andThen (.eval part) fun v => .after (Step.textOf_isOwn _) fun _ =>
      .andThen ih fun _ => .pure _

theorem template_composed :
    Composed P known (Task.StaysIn frame) fun run => template run children frame :=
  .andThen (templateTexts_composed children) fun _ => .pure _

theorem templateValues_composed :
    Composed P known (Task.StaysIn frame) fun run => templateValues run frame children := by
  induction children with
  | nil => exact .pure _
  | cons part rest ih =>
    cases part with
    | branch kind position parts =>
      cases kind with
      | templateChunk => exact .after (chunk_isOwn parts) fun _ => .andThen ih fun _ => .pure _
      | _ => exact .andThen (.eval _) fun _ => .andThen ih fun _ => .pure _
    | leaf | stray => exact .andThen (.eval _) fun _ => .andThen ih fun _ => .pure _

theorem taggedTemplate_composed :
    Composed P known (Task.StaysIn frame) fun run => taggedTemplate run children frame := by
  refine .after (Step.pair_isOwn children) fun (tag, template) => ?_
  refine .andThen (.eval tag) fun f => .unlessFailure f (.pure _) (.ite ?_ ?_)
  · exact .own ((Step.display_isOwn f).bind fun _ => Step.failWith_isOwn _ _)
  · exact .andThen (templateValues_composed template.children) fun (chunks, values) =>
      .after (Step.newList_isOwn chunks) fun _ => (Step.callValue_composed f _ none).ofCalls

/-! ## Lists and objects -/

theorem elementItems_composed (n : Node) :
    Composed P known (Task.StaysIn frame) fun run => elementItems run frame n := by
  have single : Composed P known (Task.StaysIn frame) fun run =>
      (do return [(← run (.eval n frame)).orUndefined] : Step (List Value)) :=
    .andThen (.eval n) fun _ => .pure _
  cases n with
  | branch kind position children =>
    cases kind with
    | hole => exact .pure _
    | spread =>
      refine .after (Step.child_isOwn children 0) fun n => .andThen (.eval n) fun v => ?_
      refine .after (Step.spread?_isOwn v) fun items => ?_
      cases items with
      | some items => exact .pure _
      | none =>
        exact .own ((Step.display_isOwn v).bind fun _ =>
          (Step.warn_isOwn _ _).bind fun _ => .pure _)
    | _ => exact single
  | _ => exact single

theorem listItems_composed :
    Composed P known (Task.StaysIn frame) fun run => listItems run frame children := by
  induction children with
  | nil => exact .pure _
  | cons n rest ih =>
    exact .andThen (elementItems_composed n) fun _ => .andThen ih fun _ => .pure _

theorem list_composed : Composed P known (Task.StaysIn frame) fun run => list run children frame :=
  .andThen (listItems_composed children) fun items => .own (Step.newList_isOwn items)

theorem propertyKey_composed (n : Node) :
    Composed P known (Task.StaysIn frame) fun run => propertyKey run n frame := by
  have computed : Composed P known (Task.StaysIn frame) fun run => (do
      match ← run (.eval (← Step.child (← Step.branchChildren n) 0) frame) with
      | .failure => return none
      | v => return some (← Step.read (·.keyOf v)) : Step (Option Text)) :=
    .after (Step.branchChildren_isOwn n) fun parts =>
      .after (Step.child_isOwn parts 0) fun n => .andThen (.eval n) fun v =>
        .unlessFailure v (.pure _) (.own (.bind (.read _) fun _ => .pure _))
  cases n with
  | leaf label text position =>
    cases label with
    | string => exact .pure _
    | number =>
      exact .own (.bind (.ofExcept _) fun _ => .bind (.read _) fun _ => .pure _)
    | _ => exact .pure _
  | _ => exact computed

theorem propertyValue_composed (key : Text) (n : Node) :
    Composed P known (Task.StaysIn frame) fun run => propertyValue run key n frame := by
  refine .andThen (.eval n) fun v => ?_
  cases v with
  | function f =>
    exact .own (.ite ((nameFunction_isOwn f key).bind fun _ => .pure _) (.pure _))
  | _ => exact .pure _

theorem objectEntries_composed (entries : Entries) :
    Composed P known (Task.StaysIn frame) fun run => objectEntries run frame entries children := by
  induction children generalizing entries with
  | nil => exact .pure _
  | cons property rest ih =>
    refine .after (Step.branchChildren_isOwn property) fun parts => ?_
    refine .after (Step.pair_isOwn parts) fun (key, value) => ?_
    refine .andThen (propertyKey_composed key) fun key? => ?_
    cases key? with
    | none => exact .after (Step.warn_isOwn _ _) fun _ => ih entries
    | some key => exact .andThen (propertyValue_composed key value) fun v => ih _

/-- The keys of a literal are texts. -/
theorem onlyTexts_of_objectEntries {run : Runner} {properties : List Node} {entries added : Entries}
    {s s' : Store} (texts : entries.OnlyTexts)
    (gives : objectEntries run frame entries properties s = .ok added s') : added.OnlyTexts := by
  induction properties generalizing entries s with
  | nil =>
    cases gives
    exact texts
  | cons property rest ih =>
    obtain ⟨parts, s₁, -, gives⟩ := Step.of_bind_ok gives
    obtain ⟨⟨key, value⟩, s₂, -, gives⟩ := Step.of_bind_ok gives
    obtain ⟨key?, s₃, -, gives⟩ := Step.of_bind_ok gives
    obtain _ | key := key?
    · obtain ⟨_, s₄, -, gives⟩ := Step.of_bind_ok gives
      exact ih texts gives
    · obtain ⟨v, s₄, -, gives⟩ := Step.of_bind_ok gives
      exact ih (texts.put key v) gives

theorem object_composed :
    Composed P known (Task.StaysIn frame) fun run => object run children frame :=
  .bind (objectEntries_composed children []) fun _ ⟨_, _, _, gives⟩ =>
    .own (.map (.makeElsewhere fun _ =>
      ⟨rfl, rfl, .newObject (onlyTexts_of_objectEntries .nil gives), Nat.le_refl _⟩))

/-! ## Members and calls -/

theorem memberKey_composed (object : Value) (property : Node) :
    Composed P known (Task.StaysIn frame) fun run => memberKey run object property frame := by
  have computed : Composed P known (Task.StaysIn frame) fun run => (do
      match ← run (.eval property frame) with
      | .failure => return .failure
      | key =>
        if ← Step.ofExcept object.truth then return key
        else
          Step.failWith .access
            ("Cannot read computed property of " ++ (← Step.display object)) : Step Value) := by
    refine .andThen (.eval property) fun key => .unlessFailure key (.pure _) ?_
    refine .after (.ofExcept _) fun truth => .ite (.pure _) ?_
    exact .own ((Step.display_isOwn object).bind fun _ => Step.failWith_isOwn _ _)
  refine .ite (.own (Step.failWith_isOwn _ _)) ?_
  cases property with
  | leaf label name position =>
    refine .ite (.own ?_) (.pure _)
    exact (Step.display_isOwn object).bind fun _ => Step.failWith_isOwn _ _
  | _ => exact computed

theorem memberParts_composed :
    Composed P known (Task.StaysIn frame) fun run => memberParts run children frame := by
  refine .after (Step.pair_isOwn children) fun (object, property) => ?_
  refine .andThen (.eval object) fun v => .unlessFailure v (.pure _) ?_
  exact .andThen (memberKey_composed v property) fun key => .unlessFailure key (.pure _) (.pure _)

theorem member_composed :
    Composed P known (Task.StaysIn frame) fun run => member run children frame := by
  refine .andThen (memberParts_composed children) fun parts => ?_
  cases parts with
  | none => exact .pure _
  | some parts => exact .own (Step.getProperty_isOwn _ _)

theorem spreadArgument_composed :
    Composed P known (Task.StaysIn frame) fun run => spreadArgument run children frame := by
  refine .after (Step.child_isOwn children 0) fun n => .andThen (.eval n) fun v => ?_
  refine .after (Step.spread?_isOwn v) fun values => ?_
  cases values with
  | some values => exact .pure _
  | none =>
    exact .own ((Step.display_isOwn v).bind fun _ => (Step.warn_isOwn _ _).bind fun _ =>
      .pure _)

theorem argumentValues_composed (n : Node) :
    Composed P known (Task.StaysIn frame) fun run => argumentValues run frame n := by
  have single : Composed P known (Task.StaysIn frame) fun run => (do
      match ← run (.eval n frame) with
      | .failure => return none
      | v => return some [v] : Step (Option (List Value))) :=
    .andThen (.eval n) fun v => .unlessFailure v (.pure _) (.pure _)
  cases n with
  | branch kind position children =>
    cases kind with
    | spread => exact spreadArgument_composed children
    | _ => exact single
  | _ => exact single

theorem callArguments_composed :
    Composed P known (Task.StaysIn frame) fun run => callArguments run frame children := by
  induction children with
  | nil => exact .pure _
  | cons n rest ih =>
    refine .andThen (argumentValues_composed n) fun values => ?_
    cases values with
    | none => exact .pure _
    | some values =>
      refine .andThen ih fun others => ?_
      cases others <;> exact .pure _

theorem constructArguments_composed :
    Composed P known (Task.StaysIn frame) fun run => constructArguments run frame children := by
  induction children with
  | nil => exact .pure _
  | cons n rest ih =>
    exact .andThen (argumentValues_composed n) fun _ => .andThen ih fun _ => .pure _

theorem callee_composed (n : Node) :
    Composed P known (Task.StaysIn frame) fun run => callee run n frame := by
  have alone : Composed P known (Task.StaysIn frame) fun run =>
      (do return some (← run (.eval n frame), none) : Step (Option (Value × Option Value))) :=
    .andThen (.eval n) fun _ => .pure _
  cases n with
  | branch kind position children =>
    cases kind with
    | member =>
      refine .andThen (memberParts_composed children) fun parts => ?_
      cases parts with
      | none => exact .pure _
      | some parts => exact .own ((Step.getProperty_isOwn _ _).bind fun _ => .pure _)
    | _ => exact alone
  | _ => exact alone

theorem call_composed :
    Composed P known (Task.StaysIn frame) fun run => call run children frame := by
  refine .after (Step.pair_isOwn children) fun (calleeNode, arguments) => ?_
  refine .andThen (callee_composed calleeNode) fun found => ?_
  cases found with
  | none => exact .pure _
  | some found =>
    obtain ⟨f, receiver⟩ := found
    cases f with
    | failure => exact .own (Step.failWith_isOwn _ _)
    | _ =>
      refine .ite (.own ?_) (.andThen (callArguments_composed _) fun args => ?_)
      · exact (Step.display_isOwn _).bind fun _ => Step.failWith_isOwn _ _
      · cases args with
        | none => exact .pure _
        | some args => exact (Step.callValue_composed _ args receiver).ofCalls

theorem construct_composed :
    Composed P known (Task.StaysIn frame) fun run => construct run children frame := by
  refine .after (Step.pair_isOwn children) fun (constructor, arguments) => ?_
  refine .andThen (.eval constructor) fun f => .unlessFailure f (.pure _) ?_
  exact .andThen (constructArguments_composed _) fun args =>
    (Step.construct_composed f args).ofCalls

/-! ## Assignments -/

theorem target?_composed (n : Node) :
    Composed P known (Task.StaysIn frame) fun run => target? run n frame := by
  have invalid (reason : Text) : Composed P known (Task.StaysIn frame) fun _ =>
      (do Step.warn .assignment reason; return none : Step (Option Target)) :=
    .own ((Step.warn_isOwn _ _).bind fun _ => .pure _)
  cases n with
  | branch kind position children =>
    cases kind with
    | identifier =>
      exact .own ((Step.child_isOwn children 0).bind fun n =>
        (Step.identifier_isOwn _ n).bind fun _ => .pure _)
    | member =>
      refine .andThen (memberParts_composed children) fun parts => ?_
      cases parts with
      | none => exact .pure _
      | some parts => exact .pure _
    | _ => exact invalid _
  | _ => exact invalid _

theorem assign_composed :
    Composed P known (Task.StaysIn frame) fun run => assign run children frame := by
  refine .after (Step.triple_isOwn children) fun (target, sign, value) => ?_
  refine .andThen (.eval value) fun v => .unlessFailure v (.pure _) ?_
  cases assigning? sign.asText with
  | none => exact .own (Step.failWith_isOwn _ _)
  | some how =>
    refine .andThen (target?_composed target) fun target => ?_
    cases target with
    | none => exact .pure _
    | some target => exact .own (assignTo_isOwn target how v)

theorem update_composed :
    Composed P known (Task.StaysIn frame) fun run => update run children frame := by
  refine .after (Step.pair_isOwn children) fun (sign, target) => ?_
  refine .andThen (target?_composed target) fun target => ?_
  cases target with
  | none => exact .pure _
  | some target =>
    refine .after target.read_isOwn fun current => .unlessFailure current (.pure _) ?_
    refine .after (.read _) fun v => ?_
    cases v with
    | some v => exact .own (target.write_isOwn v)
    | none => exact .own (Step.failWith_isOwn _ _)

/-! ## Nodes -/

variable {children}

/-- **Every kind of node** is evaluated by a composed procedure that stays in the frame. -/
theorem branch_composed (hereditary : Node.Hereditary P) (h : ∀ n ∈ children, P n)
    (isKnown : frame ∈ known) (kind : Kind) :
    Composed P known (Task.StaysIn frame) fun run => branch run kind children frame := by
  cases kind with
  | program | block => exact (statements_composed hereditary h isKnown).ofParts
  | expressionStatement => exact (expressionStatement_composed children).ofParts
  | empty => exact .pure _
  | declaration =>
    exact (declaration_composed (children.drop 1) fun n hn => List.mem_of_mem_drop hn).ofParts
  | declarator => exact declarator_composed children
  | functionDeclaration => exact .own (functionDeclaration_isOwn h isKnown)
  | function => exact .own (function_isOwn h isKnown)
  | arrow => exact .own (arrow_isOwn h isKnown)
  | conditionalStatement | conditional => exact (conditional_composed children).ofParts
  | returnStatement => exact (returning_composed children).ofParts
  | literal => exact .own (literal_isOwn children)
  | identifier =>
    exact .own ((Step.leafChild_isOwn children).bind fun _ => Step.lookup_isOwn frame _)
  | this => exact .own (Step.lookup_isOwn frame _)
  | unary => exact unary_composed children
  | binary | logical => exact binary_composed children
  | array => exact list_composed children
  | object => exact object_composed children
  | member => exact member_composed children
  | assign => exact assign_composed children
  | update => exact update_composed children
  | call => exact call_composed children
  | construct => exact construct_composed children
  | template => exact template_composed children
  | templateChunk => exact .own ((chunk_isOwn children).bind fun _ => .pure _)
  | taggedTemplate => exact taggedTemplate_composed children
  | params | arguments | spread | hole | property | computedKey | other =>
    exact .own (Step.failWith_isOwn _ _)

end Walk

/-! ## Positions -/

namespace Step

variable {step step' : Step α} {s s' : Store} {position : Option Position}

theorem locating_congr (same : step' s = step s) :
    Step.locating position step' s = Step.locating position step s := by
  show EStateM.tryCatch step' _ s = EStateM.tryCatch step _ s
  unfold EStateM.tryCatch
  rw [same]

/-- Only errors are set at a position. -/
theorem locating_of_interrupted {i : Interrupt} (ends : step s = .error i s')
    (noError : ∀ e, i ≠ .error e) : Step.locating position step s = .error i s' := by
  show EStateM.tryCatch step _ s = _
  unfold EStateM.tryCatch
  rw [ends]
  cases i with
  | error e => exact absurd rfl (noError e)
  | _ => rfl

theorem locating_of_error {e : ProgramError} (ends : step s = .error (.error e) s') :
    Step.locating position step s = .error (.error (e.locatedAt position)) s' := by
  show EStateM.tryCatch step _ s = _
  unfold EStateM.tryCatch
  rw [ends]
  rfl

/-- An error that comes out has come out without the position. -/
theorem error_of_locating {e : ProgramError}
    (ends : Step.locating position step s = .error (.error e) s') :
    ∃ e₀, step s = .error (.error e₀) s' ∧ e = e₀.locatedAt position := by
  cases hstep : step s with
  | ok a s₁ =>
    have same : Step.locating position step s = .ok a s₁ := by
      show EStateM.tryCatch step _ s = _
      unfold EStateM.tryCatch
      rw [hstep]
    cases same.symm.trans ends
  | error i s₁ =>
    cases i with
    | error e₀ =>
      cases (locating_of_error hstep).symm.trans ends
      exact ⟨e₀, rfl, rfl⟩
    | _ => cases (locating_of_interrupted hstep nofun).symm.trans ends

theorem Keeps.locating {r : Store → Store → Prop} (h : step.Keeps r)
    (trans : ∀ {s s' t}, r s s' → r s' t → r s t) (refl : ∀ s, r s s) :
    (Step.locating position step).Keeps r :=
  .tryCatch h trans fun i => by cases i <;> exact refl

end Step

namespace Walk

variable {P : Node → Prop} {known : Set FrameRef} {n : Node} {frame : FrameRef}

/-- Evaluates a node, and leaves errors that come out without the position of the node. -/
def evaluating (run : Runner) (n : Node) (frame : FrameRef) : Step Value :=
  match n with
  | .branch kind _ children => branch run kind children frame
  | n => Step.failWith .walk ("Failed to walk node, got " ++ n.describe)

/-- **Evaluating a node**, up to the position that errors get, is composed and stays in the
frame. -/
theorem evaluating_composed (hereditary : Node.Hereditary P) (h : P n) (isKnown : frame ∈ known) :
    Composed P known (Task.StaysIn frame) fun run => evaluating run n frame := by
  cases n with
  | branch kind position children =>
    exact branch_composed hereditary (hereditary _ h) isKnown kind
  | leaf | stray => exact .own (Step.failWith_isOwn _ _)

/-- Evaluating a node is setting what comes out at its position. -/
theorem node_eq (run : Runner) (n : Node) (frame : FrameRef) :
    node run n frame = Step.locating n.position? (evaluating run n frame) :=
  rfl

/-- What depends on a task in spite of the position depends on it without that. -/
theorem dependsOn_of_node {run : Runner} {t₀ : Task} {s s₀ : Store}
    (h : DependsOn (fun run => node run n frame) run s t₀ s₀) :
    DependsOn (fun run => evaluating run n frame) run s t₀ s₀ := by
  obtain ⟨run', agree, differ⟩ := h
  exact ⟨run', agree, fun same => differ (Step.locating_congr same)⟩

end Walk

end Scriptlet
