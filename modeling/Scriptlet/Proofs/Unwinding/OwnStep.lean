import Scriptlet.Proofs.Unwinding.Development

/-!
# What the walk does by itself

Without the runner the walk takes nodes apart, reads and writes names and properties, applies
operators, and makes values and functions. A named function opens a frame for its name, and a
function has for its body a part of the node that it is made of; all else leaves the frames and
the functions alone.
-/

namespace Scriptlet

namespace Step

variable {P : Node → Prop} {known : Set FrameRef}

/-! ## Warnings and new values -/

theorem warn_isOwn (channel : Channel) (text : Text) : (warn channel text).IsOwn P known :=
  .changeElsewhere fun _ => ⟨rfl, rfl, .of_eq rfl, Nat.le_refl _⟩

theorem failWith_isOwn (channel : Channel) (text : Text) :
    (failWith channel text).IsOwn P known :=
  (warn_isOwn channel text).bind fun _ => .pure _

theorem remark_isOwn (channel : Channel) (text : Text) : (remark channel text).IsOwn P known :=
  .changeElsewhere fun _ => ⟨rfl, rfl, .of_eq rfl, Nat.le_refl _⟩

theorem display_isOwn (v : Value) : (display v).IsOwn P known :=
  .read _

theorem textOf_isOwn (v : Value) : (textOf v).IsOwn P known :=
  .read _

theorem numberOf_isOwn (v : Value) : (numberOf v).IsOwn P known :=
  .read _

theorem newList_isOwn (items : List Value) : (newList items).IsOwn P known :=
  .map (.makeElsewhere fun _ => ⟨rfl, rfl, .of_eq rfl, by simp [Store.newList]⟩)

theorem newIdentity_isOwn : (make Store.newIdentity).IsOwn P known :=
  .makeElsewhere fun _ => ⟨rfl, rfl, .of_eq rfl, Nat.le_refl _⟩

theorem newMethod_isOwn (name : Text) (v : Value) : (newMethod name v).IsOwn P known :=
  .map newIdentity_isOwn

/-! ## Names -/

theorem define_isOwn (frame : FrameRef) (name : Text) (v : Value) :
    (define frame name v).IsOwn P known :=
  .change fun _ => .define frame name v

theorem lookup_isOwn (frame : FrameRef) (name : Text) : (lookup frame name).IsOwn P known :=
  .bind .get fun _ => .pure _

/-! ## Parts of nodes -/

theorem pair_isOwn (children : List Node) : (pair children).IsOwn P known := by
  unfold pair
  split
  · exact .pure _
  · exact .misshapen _

theorem triple_isOwn (children : List Node) : (triple children).IsOwn P known := by
  unfold triple
  split
  · exact .pure _
  · exact .misshapen _

theorem child_isOwn (children : List Node) (index : Nat) :
    (child children index).IsOwn P known := by
  unfold child
  split
  · exact .pure _
  · exact .misshapen _

theorem mem_of_child {children : List Node} {index : Nat} {n : Node} {s s' : Store}
    (gives : child children index s = .ok n s') : n ∈ children := by
  unfold child at gives
  cases found : children[index]? with
  | none => rw [found] at gives; cases gives
  | some m =>
    rw [found] at gives
    obtain rfl : m = n := by cases gives; rfl
    exact List.mem_of_getElem? found

theorem eq_of_pair {children : List Node} {parts : Node × Node} {s s' : Store}
    (gives : pair children s = .ok parts s') : children = [parts.1, parts.2] := by
  unfold pair at gives
  split at gives
  · cases gives; rfl
  · cases gives

theorem eq_of_triple {children : List Node} {parts : Node × Node × Node} {s s' : Store}
    (gives : triple children s = .ok parts s') :
    children = [parts.1, parts.2.1, parts.2.2] := by
  unfold triple at gives
  split at gives
  · cases gives; rfl
  · cases gives

theorem leafChild_isOwn (children : List Node) : (leafChild children).IsOwn P known := by
  refine (child_isOwn children 0).bind fun n => ?_
  split
  · exact .pure _
  · exact .misshapen _

theorem branchChildren_isOwn (n : Node) : (branchChildren n).IsOwn P known := by
  unfold branchChildren
  split
  · exact .pure _
  · exact .misshapen _

theorem identifier_isOwn (what : Text) (n : Node) : (identifier what n).IsOwn P known := by
  unfold identifier
  split
  · exact .pure _
  · exact .error _ _

/-! ## Reading properties -/

theorem methodOrUndefined_isOwn (v : Value) (name : Text) :
    (methodOrUndefined v name).IsOwn P known :=
  .ite (newMethod_isOwn name v) (.pure _)

theorem getEntry_isOwn (ref : ObjectRef) (key : Value) : (getEntry ref key).IsOwn P known := by
  refine .bind .get fun s => .bind (.read _) fun slot => ?_
  split
  · exact .pure _
  · exact .bind (.read _) fun name => methodOrUndefined_isOwn _ name

theorem getItem_isOwn (v : Value) (items : List Value) (key : Value) :
    (getItem v items key).IsOwn P known := by
  refine .bind (.ofExcept _) fun index => ?_
  split
  · exact .pure _
  · exact .bind (.read _) fun name => .ite (.pure _) (methodOrUndefined_isOwn v name)

theorem getRegexpPart_isOwn (v : Value) (r : Regexp) (key : Value) :
    (getRegexpPart v r key).IsOwn P known :=
  .bind (.read _) fun name => .ite (.pure _) (.ite (.pure _) (.ite (.pure _)
    (methodOrUndefined_isOwn v name)))

theorem getAttribute_isOwn (ref : HostRef) (name : Text) :
    (getAttribute ref name).IsOwn P known := by
  refine .bind .get fun s => ?_
  split
  · exact .pure _
  · split
    · exact .map newIdentity_isOwn
    · exact .pure _

theorem getPart_isOwn (v : Value) (name : Text) : (getPart v name).IsOwn P known := by
  refine .ite (.pure _) ?_
  split
  · exact getAttribute_isOwn _ name
  · refine .bind .get fun s => ?_
    split
    · exact .pure _
    · exact .ite (.pure _) (.ite (.pure _) (.ite (newList_isOwn _) (.pure _)))
  · exact .ite (.pure _) (.ite (.pure _) (.pure _))
  · exact .pure _

/-- **Reading a property** is the walk's own affair. -/
theorem getProperty_isOwn (v key : Value) : (getProperty v key).IsOwn P known := by
  unfold getProperty
  split
  · exact .bind (.read _) fun _ => (display_isOwn _).bind fun _ => failWith_isOwn _ _
  · exact .bind (.read _) fun _ => (display_isOwn _).bind fun _ => failWith_isOwn _ _
  · exact getEntry_isOwn _ key
  · exact .bind .get fun _ => getItem_isOwn _ _ key
  · exact getItem_isOwn _ _ key
  · exact getRegexpPart_isOwn _ _ key
  · exact .pure _
  · exact .bind (.read _) fun name => methodOrUndefined_isOwn _ name
  · exact .bind (.read _) fun name => getPart_isOwn _ name

/-! ## Writing properties -/

theorem room_isOwn (n : Nat) : (room n).IsOwn P known :=
  .bind (.ofExcept _) fun _ => .pure _

theorem lengthOf_isOwn (v : Value) : (lengthOf v).IsOwn P known := by
  refine (numberOf_isOwn v).bind fun n => .bind (.ofExcept _) fun x => .ite ?_ (.error _ _)
  split <;> exact .pure _

theorem setLength_isOwn (ref : ListRef) (v : Value) : (setLength ref v).IsOwn P known :=
  (lengthOf_isOwn v).bind fun _ => .bind .get fun _ => (room_isOwn _).bind fun _ =>
    .changeElsewhere fun _ =>
      ⟨rfl, rfl, .of_eq rfl, Nat.le_of_eq Array.size_setIfInBounds.symm⟩

theorem setItem_isOwn (ref : ListRef) (key v : Value) : (setItem ref key v).IsOwn P known := by
  refine .bind (.ofExcept _) fun index => ?_
  split
  · exact .bind .get fun _ => (room_isOwn _).bind fun _ =>
      .bind (.changeElsewhere fun _ =>
        ⟨rfl, rfl, .of_eq rfl, Nat.le_of_eq Array.size_setIfInBounds.symm⟩) fun _ => .pure _
  · exact .bind (.read _) fun _ => .ite ((setLength_isOwn ref v).bind fun _ => .pure _)
      (.bind (.read _) fun _ => failWith_isOwn _ _)

theorem setAttribute_isOwn (ref : HostRef) (name : Text) (v : Value) :
    (setAttribute ref name v).IsOwn P known :=
  .changeElsewhere fun _ => ⟨rfl, rfl, .of_eq rfl, Nat.le_refl _⟩

theorem setPart_isOwn (target : Value) (name : Text) (v : Value) :
    (setPart target name v).IsOwn P known := by
  refine .ite (failWith_isOwn _ _) ?_
  split
  · exact (setAttribute_isOwn _ name v).bind fun _ => .pure _
  · exact .pure _
  · exact .fault _

/-- **Writing a property** is the walk's own affair. -/
theorem setProperty_isOwn (target key v : Value) : (setProperty target key v).IsOwn P known := by
  unfold setProperty
  split
  · exact .readBind (fun s slot found =>
      .of_eq rfl rfl (.put (Store.has_of_entryKey found) v) (Nat.le_refl _)) nofun
  · exact setItem_isOwn _ key v
  · exact .bind (.read _) fun name => setPart_isOwn _ name v
  · exact .bind (.read _) fun name => setPart_isOwn _ name v
  · exact .bind (.read _) fun name => setPart_isOwn _ name v
  · exact .bind (.read _) fun _ => (display_isOwn _).bind fun _ => failWith_isOwn _ _

/-! ## Operators and values that are spread -/

theorem applyBinary_isOwn (spelling : Text) (a b : Value) :
    (applyBinary spelling a b).IsOwn P known := by
  unfold applyBinary
  split
  · exact .read _
  · exact failWith_isOwn _ _

theorem spread?_isOwn (v : Value) : (spread? v).IsOwn P known := by
  unfold spread?
  split
  · exact .bind .get fun _ => .pure _
  · exact .pure _
  · exact .pure _
  · exact .pure _

theorem unknownMethod_isOwn (v : Value) (name : Text) :
    (unknownMethod v name : Step α).IsOwn P known :=
  .bind .get fun _ => .error _ _

end Step

namespace Walk

variable {P : Node → Prop} {known : Set FrameRef}

/-! ## Literals -/

theorem decided?_isOwn (spelling : Text) (left : Value) :
    (decided? spelling left).IsOwn P known :=
  .ite (.bind (.ofExcept _) fun _ => .pure _) (.ite (.bind (.ofExcept _) fun _ => .pure _)
    (.pure _))

theorem newRegexp_isOwn (source flags : Text) : (newRegexp source flags).IsOwn P known := by
  refine .bind .get fun s => ?_
  split
  · exact .map Step.newIdentity_isOwn
  · exact .fault _
  · exact .error _ _

theorem regexpValue_isOwn (literal : Text) : (regexpValue literal).IsOwn P known := by
  unfold regexpValue
  split
  · exact newRegexp_isOwn _ _
  · exact .misshapen _

theorem literal_isOwn (children : List Node) : (literal children).IsOwn P known := by
  refine (Step.leafChild_isOwn children).bind fun (label, text) => ?_
  cases label with
  | number => exact .map (.ofExcept _)
  | string => exact .pure _
  | regexp => exact regexpValue_isOwn text
  | trueWord | falseWord | nullWord => exact .pure _
  | _ => exact Step.failWith_isOwn _ _

theorem chunk_isOwn (children : List Node) : (chunk children).IsOwn P known :=
  (Step.leafChild_isOwn children).bind fun _ => .pure _

/-! ## Functions -/

theorem parameterNames_isOwn (names : List Node) : (parameterNames names).IsOwn P known := by
  induction names with
  | nil => exact .pure _
  | cons n rest ih =>
    unfold parameterNames
    split
    · exact ih.bind fun _ => .pure _
    · exact .error _ _

theorem newFunction_isOwn (params : List Text) {body : Node} {frame : FrameRef}
    (name : Option Text) (kind : FunctionKind) (hbody : P body) (isKnown : frame ∈ known) :
    (newFunction params body frame name kind).IsOwn P known :=
  .bind .get fun _ => .make fun _ => .newFunction hbody isKnown

theorem openInner_isOwn {parent : FrameRef} (isKnown : parent ∈ known) :
    (Step.make (·.openInner parent)).IsOwn P known :=
  .make fun _ => .openInner isKnown

/-- A function with a name is made in a frame for that, which is there by then. -/
theorem named_isOwn (params : List Text) {body : Node} {frame : FrameRef} (name : Text)
    (hbody : P body) (isKnown : frame ∈ known) :
    Step.IsOwn P known (do
      let own ← Step.make (·.openInner frame)
      let f ← newFunction params body own (some name) .plain
      Step.define own name (.function f)
      return .function f : Step Value) := by
  refine .of_ok fun s => ⟨_, _, rfl, (Store.Unfolds.openInner isKnown).trans ?_⟩
  have there : (s.openInner frame).1 < (s.openInner frame).2.frames.size := by
    simp [Store.openInner, Store.openFrame, Store.newFrame]
  refine .of_there there (.trans (.newFunction hbody (.inl rfl)) (.define _ _ _))

theorem function_isOwn {children : List Node} {frame : FrameRef} (h : ∀ n ∈ children, P n)
    (isKnown : frame ∈ known) : (function children frame).IsOwn P known := by
  refine (Step.child_isOwn children 0).bind fun params => ?_
  refine (Step.child_isOwn children 1).bindOf fun body _ _ gives => ?_
  have hbody : P body := h body (Step.mem_of_child gives)
  refine (parameterNames_isOwn _).bind fun names => ?_
  split
  · exact .map (newFunction_isOwn _ _ _ hbody isKnown)
  · exact named_isOwn _ _ hbody isKnown

theorem arrow_isOwn {children : List Node} {frame : FrameRef} (h : ∀ n ∈ children, P n)
    (isKnown : frame ∈ known) : (arrow children frame).IsOwn P known := by
  refine (Step.pair_isOwn children).bindOf fun (params, body) _ _ gives => ?_
  have hbody : P body := h body (by simp [Step.eq_of_pair gives])
  exact (parameterNames_isOwn _).bind fun _ => .map (newFunction_isOwn _ _ _ hbody isKnown)

theorem functionDeclaration_isOwn {children : List Node} {frame : FrameRef}
    (h : ∀ n ∈ children, P n) (isKnown : frame ∈ known) :
    (functionDeclaration children frame).IsOwn P known := by
  refine (Step.triple_isOwn children).bindOf fun (name, params, body) _ _ gives => ?_
  have hbody : P body := h body (by simp [Step.eq_of_triple gives])
  refine (Step.identifier_isOwn _ _).bind fun name => .bind .get fun _ => .ite (.pure _) ?_
  exact (parameterNames_isOwn _).bind fun _ => (newFunction_isOwn _ _ _ hbody isKnown).bind fun _ =>
    (Step.define_isOwn frame name _).bind fun _ => .pure _

/-- **Binding declared functions beforehand** is the walk's own affair. -/
theorem hoist_isOwn (hereditary : Node.Hereditary P) {frame : FrameRef} {nodes : List Node}
    (h : ∀ n ∈ nodes, P n) (isKnown : frame ∈ known) : (hoist frame nodes).IsOwn P known := by
  fun_induction hoist frame nodes with
  | case1 => exact .pure _
  | case2 position children rest ih =>
    obtain ⟨declaration, others⟩ := List.forall_mem_cons.mp h
    exact (functionDeclaration_isOwn (hereditary _ declaration) isKnown).bind fun _ =>
      (Step.remark_isOwn _ _).bind fun _ => ih others
  | case3 n rest _ ih => exact ih (List.forall_mem_cons.mp h).2

/-- A function that is given a name keeps its body. -/
theorem nameFunction_isOwn (f : FunctionRef) (name : Text) :
    (nameFunction f name).IsOwn P known := by
  refine .of_ok fun s => ?_
  have look : (MonadState.get : Step Store) s = .ok s s := rfl
  unfold nameFunction
  rw [Step.bind_of_ok look]
  cases found : s.functions[f]? with
  | none => exact ⟨(), s, rfl, .refl s⟩
  | some cell =>
    dsimp only
    split
    · exact ⟨(), _, rfl, .setFunction found rfl rfl⟩
    · exact ⟨(), s, rfl, .refl s⟩

/-! ## Assignments -/

theorem Target.read_isOwn (target : Target) : target.read.IsOwn P known := by
  cases target with
  | name frame n => exact Step.lookup_isOwn frame n
  | member object key => exact Step.getProperty_isOwn object key

theorem Target.write_isOwn (target : Target) (v : Value) : (target.write v).IsOwn P known := by
  cases target with
  | name frame n =>
    exact .bind (.change fun _ => .define _ n v) fun _ => .pure _
  | member object key => exact Step.setProperty_isOwn object key v

theorem assignTo_isOwn (target : Target) (how : Assigning) (v : Value) :
    (assignTo target how v).IsOwn P known := by
  cases how with
  | plain => exact target.write_isOwn v
  | compound operator =>
    refine target.read_isOwn.bind fun current => ?_
    refine (Step.applyBinary_isOwn operator _ v).bind fun result => ?_
    split
    · exact .pure _
    · exact target.write_isOwn _

/-! ## Calls -/

theorem bindParameters_isOwn (frame : FrameRef) (names : List Text) (args : List Value) :
    (bindParameters frame names args).IsOwn P known := by
  induction names generalizing args with
  | nil => exact .pure _
  | cons name names ih => exact (Step.define_isOwn frame name _).bind fun _ => ih args.tail

theorem bindReceiver_isOwn (frame : FrameRef) (kind : FunctionKind) (receiver : Option Value) :
    (bindReceiver frame kind receiver).IsOwn P known := by
  cases receiver with
  | none => exact .pure _
  | some v => exact .ite (Step.define_isOwn frame _ v) (.pure _)

end Walk

end Scriptlet
