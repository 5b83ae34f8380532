import Scriptlet.Proofs.Order.Agenda

/-!
# The order of the source

Whatever an agenda comes to and wherever it ends, the nodes that it has evaluated are found
among the parts of the node in the order in which these are written, each part once at most. Only
an assignment comes to its value before its target.

The parts are not always the children. Of a member that is called or assigned to, the object and
the key are evaluated, and not the member; and there is nothing to evaluate in a list of arguments,
a property, a computed key or a spread but what is in it.
-/

namespace Scriptlet

/-! ## The parts of a node -/

/-- The nodes that are evaluated, among items that are done. -/
def evaluatedNodes (items : List (Item × Option Value)) : List Node :=
  items.filterMap fun item =>
    match item.1 with
    | .evaluate n => some n
    | _ => none

namespace Node

/-- The object and the key of a member that is called or assigned to; anything else is one part. -/
def reached : Node → List Node
  | .branch .member _ children => children
  | n => [n]

/-- What is spread; anything else is one part. -/
def spreadOut : Node → List Node
  | .branch .spread _ children => children
  | n => [n]

/-- A computed key and the value of a property. -/
def keyAndValue (n : Node) : List Node :=
  match n.children with
  | [key, value] => key.children ++ [value]
  | _ => []

end Node

/-- **The parts of a kind of node**, each in its place in the source, but for an assignment, whose
value comes before its target. -/
def Kind.parts (kind : Kind) (children : List Node) : List Node :=
  match kind, children with
  | .assign, [target, _, value] => value :: target.reached
  | .update, [_, target] => target.reached
  | .array, elements => elements.flatMap Node.spreadOut
  | .object, properties => properties.flatMap Node.keyAndValue
  | .call, [callee, args] => callee.reached ++ args.children.flatMap Node.spreadOut
  | .construct, [f, args] => f :: args.children.flatMap Node.spreadOut
  | .taggedTemplate, [tag, body] => tag :: body.children
  | _, children => children


namespace Agenda

/-! ## Agendas within parts -/

/-- An agenda **is within parts** if what is evaluated on any path is among them, in their order. -/
def Within (a : Agenda σ) (parts : List Node) : Prop :=
  ∀ items end?, a.Path items end? → (evaluatedNodes items).Sublist parts

variable {a : Agenda σ} {b : σ → Agenda τ} {parts more : List Node}

theorem Within.pure (x : σ) (parts : List Node) : (Pure.pure x : Agenda σ).Within parts := by
  intro items end? path
  cases path <;> exact List.nil_sublist _

/-- An item alone, which may be a node to evaluate. -/
theorem within_item (i : Item) (f : Value → σ) :
    (Agenda.item i fun v => .done (f v)).Within (evaluatedNodes [(i, none)]) := by
  intro items end? path
  cases path with
  | between => exact List.nil_sublist _
  | interrupted => exact List.Sublist.refl _
  | item _ further =>
    cases further <;> exact List.Sublist.refl _

theorem within_evaluate (n : Node) : (evaluate n).Within [n] :=
  within_item (.evaluate n) id

theorem within_resolve (object key : Value) : (resolve object key).Within [] :=
  within_item (.resolve object key) id

theorem within_called : called.Within [] :=
  within_item .call fun _ => ()

theorem Within.mono (h : a.Within parts) (hp : parts.Sublist more) : a.Within more :=
  fun items end? path => (h items end? path).trans hp

/-- **One agenda after another** comes to the parts of one and then to those of the other. -/
theorem Within.bind (first : a.Within parts) (second : ∀ x, (b x).Within more) :
    (a >>= b).Within (parts ++ more) := by
  intro items end? path
  rcases path.of_bind with alone | ⟨before, after, x, rfl, here, there⟩
  · exact (first _ _ alone).trans (List.sublist_append_left _ _)
  · rw [evaluatedNodes, List.filterMap_append]
    exact (first _ _ here).append (second x _ _ there)

/-- Afterwards no part may be left to come to. -/
theorem Within.andNothing (first : a.Within parts) (second : ∀ x, (b x).Within []) :
    (a >>= b).Within parts := by
  rw [← List.append_nil parts]
  exact first.bind second

/-- What is told at the end is of no interest. -/
theorem Within.map (h : a.Within parts) (f : σ → τ) : (a >>= fun x => Pure.pure (f x)).Within parts :=
  h.andNothing fun _ => .pure _ _

theorem within_each {f : Node → Agenda Unit} {g : Node → List Node} (ns : List Node)
    (h : ∀ n, (f n).Within (g n)) : (each f ns).Within (ns.flatMap g) := by
  induction ns with
  | nil => exact .pure _ _
  | cons n ns ih => exact (h n).bind fun _ => ih

theorem within_inTurn (ns : List Node) : (inTurn ns).Within ns := by
  have each := within_each ns fun n => (within_evaluate n).map fun _ => ()
  rw [List.flatMap_singleton'] at each
  exact each

theorem within_optional (n? : Option Node) : (optional n?).Within n?.toList := by
  cases n? with
  | none => exact .pure _ _
  | some n => exact within_evaluate n

theorem toList_getElem?_sublist (ns : List Node) (index : Nat) : ns[index]?.toList.Sublist ns := by
  cases found : ns[index]? with
  | none => exact List.nil_sublist _
  | some n => exact List.singleton_sublist.mpr (List.mem_of_getElem? found)

/-! ## The kinds -/

variable (children : List Node)

theorem unary_within : (unary children).Within children := by
  unfold unary
  split
  · split
    · exact (within_inTurn _).mono (List.sublist_cons_self _ _)
    · exact .pure _ _
  · exact .pure _ _

theorem binary_within : (binary children).Within children := by
  unfold binary
  split
  · rename_i left operator right
    have both := (within_evaluate left).bind fun a =>
      show (if a.isFailure || decides operator.asText a then pure () else inTurn [right]).Within [right] by
        split
        · exact .pure _ _
        · exact within_inTurn _
    exact both.mono ((List.sublist_cons_self _ _).cons_cons left)
  · exact .pure _ _

theorem conditional_within : (conditional children).Within children := by
  cases children with
  | nil => exact .pure _ _
  | cons test branches =>
    refine (within_evaluate test).bind fun v => ?_
    split
    · exact .pure _ _
    · refine (within_inTurn _).mono ?_
      split <;> exact toList_getElem?_sublist _ _

theorem element_sublist (n : Node) : (element n).Sublist n.spreadOut := by
  cases n with
  | branch kind position children =>
    cases kind with
    | hole => exact List.nil_sublist _
    | spread => exact toList_getElem?_sublist _ _
    | _ => exact List.Sublist.refl _
  | leaf | stray => exact List.Sublist.refl _

theorem elements_sublist : (children.flatMap element).Sublist (children.flatMap Node.spreadOut) := by
  induction children with
  | nil => exact List.Sublist.refl _
  | cons n rest ih => exact (element_sublist n).append ih

theorem key_within (n : Node) : (key n).Within n.children := by
  unfold key
  split
  · exact .pure _ _
  · exact ((within_optional _).map _).mono (toList_getElem?_sublist _ _)

theorem property_within (n : Node) : (property n).Within n.keyAndValue := by
  unfold property Node.keyAndValue
  cases n.children with
  | nil => exact .pure _ _
  | cons key rest =>
    cases rest with
    | nil => exact .pure _ _
    | cons value more =>
      cases more with
      | nil =>
        refine (key_within key).bind fun found => ?_
        split
        · exact within_inTurn _
        · exact .pure _ _
      | cons => exact .pure _ _

theorem memberKey_within (object : Value) (n : Node) : (memberKey object n).Within [n] := by
  unfold memberKey
  split
  · exact .pure _ _
  · split
    · exact .pure _ _
    · exact (within_evaluate n).map _

theorem memberParts_within : (memberParts children).Within children := by
  unfold memberParts
  split
  · refine (within_evaluate _).bind fun object => ?_
    split
    · exact .pure _ _
    · exact (memberKey_within _ _).map _
  · exact .pure _ _

theorem argument_within (n : Node) : (argument n).Within n.spreadOut := by
  cases n with
  | branch kind position children =>
    cases kind with
    | spread => exact ((within_optional _).map _).mono (toList_getElem?_sublist _ _)
    | _ => exact (within_evaluate _).map _
  | leaf | stray => exact (within_evaluate _).map _

theorem callArguments_within : (callArguments children).Within (children.flatMap Node.spreadOut) := by
  induction children with
  | nil => exact .pure _ _
  | cons n rest ih =>
    refine (argument_within n).bind fun given => ?_
    split
    · exact ih
    · exact .pure _ _

theorem callee_within (n : Node) : (callee n).Within n.reached := by
  cases n with
  | branch kind position children =>
    cases kind with
    | member =>
      refine (memberParts_within children).andNothing fun parts => ?_
      cases parts with
      | none => exact .pure _ _
      | some parts => exact (within_resolve _ _).map _
    | _ => exact (within_evaluate _).map _
  | leaf | stray => exact (within_evaluate _).map _

theorem call_within : (call children).Within (Kind.call.parts children) := by
  unfold call
  split
  · refine (callee_within _).bind fun found => ?_
    split
    · exact .pure _ _
    · split
      · refine (callArguments_within _).andNothing fun given => ?_
        split
        · exact within_called
        · exact .pure _ _
      · exact .pure _ _
  · exact .pure _ _

theorem construct_within : (construct children).Within (Kind.construct.parts children) := by
  unfold construct
  split
  · refine (within_evaluate _).bind fun found => ?_
    split
    · exact .pure _ _
    · exact (within_each _ fun n => (argument_within n).map _).andNothing fun _ => within_called
  · exact .pure _ _

theorem taggedTemplate_within :
    (taggedTemplate children).Within (Kind.taggedTemplate.parts children) := by
  unfold taggedTemplate
  split
  · refine (within_evaluate _).bind fun found => ?_
    split
    · exact ((within_inTurn _).andNothing fun _ => within_called).mono List.filter_sublist
    · exact .pure _ _
  · exact .pure _ _

theorem target_within (n : Node) : (target n).Within n.reached := by
  unfold target
  split
  · exact (memberParts_within _).map _
  · exact .pure _ _

theorem assign_within : (assign children).Within (Kind.assign.parts children) := by
  unfold assign
  split
  · refine (within_evaluate _).bind fun found => ?_
    split
    · exact .pure _ _
    · exact target_within _
  · exact .pure _ _

theorem update_within : (update children).Within (Kind.update.parts children) := by
  unfold update
  split
  · exact target_within _
  · exact .pure _ _

/-- **An agenda is within the parts** of its kind of node. -/
theorem ofKind_within (kind : Kind) : (ofKind kind children).Within (kind.parts children) := by
  cases kind with
  | program | block | template => exact within_inTurn children
  | expressionStatement | declarator | returnStatement =>
    exact (within_inTurn _).mono (toList_getElem?_sublist _ _)
  | declaration => exact (within_inTurn _).mono (List.drop_sublist _ _)
  | conditionalStatement | conditional => exact conditional_within children
  | unary => exact unary_within children
  | binary | logical => exact binary_within children
  | array => exact (within_inTurn _).mono (elements_sublist children)
  | object => exact within_each children property_within
  | member => exact (memberParts_within children).map _
  | assign => exact assign_within children
  | update => exact update_within children
  | call => exact call_within children
  | construct => exact construct_within children
  | taggedTemplate => exact taggedTemplate_within children
  | _ => exact .pure _ _

/-- In `a.b = c` the value comes first. -/
example (a b c sign : Node) :
    Kind.assign.parts [.branch .member none [a, b], sign, c] = [c, a, b] := rfl

/-- In `a.b(...c, d)` the object comes first, then the key, and then the arguments. -/
example (a b c : Node) :
    let d : Node := .branch .identifier none []
    Kind.call.parts [.branch .member none [a, b], .branch .arguments none [.branch .spread none [c], d]]
      = [a, b, c, d] := rfl

end Agenda

end Scriptlet
