import Scriptlet.Proofs.Order.Agenda
import Scriptlet.Proofs.Order.Failure
import Scriptlet.Proofs.Order.Source

/-!
# The order of evaluation

Each part of a node is evaluated once at most, and the parts that are evaluated come in the order
in which they are written, only that an assignment comes to its value before its target. Where it
ends is settled by the agenda of the kind of node: after a part that fails, before the arguments of
what cannot be called, or after a left operand that decides. Of the branches of a condition only
one is on the agenda.

Nothing is assumed of the runner. It may change the store, give failures, interrupt the run, and
answer otherwise whenever the store is another one.
-/

/-!
## Evaluating nodes follows their agendas

For each kind of node the procedure that evaluates it follows the agenda of the kind, whatever
the runner does. The proofs go along the procedures: what these do with values and with the
store is their own affair, and at each errand the agenda is told the outcome.
-/

namespace Scriptlet

namespace Follows

variable {frame : FrameRef} {view : α → σ} {a : Agenda σ} {children : List Node}

/-! ### Rules for nodes -/

theorem evaluate (n : Node) : Follows frame (fun run => run (.eval n frame)) id (.evaluate n) :=
  errand (.evaluate n)

/-- A part of which only the evaluation matters. -/
theorem part (n : Node) :
    Follows frame (fun run => run (.eval n frame)) (fun _ => ()) (.inTurn [n]) :=
  (evaluate n).told

/-- A part that may be missing, of which only the evaluation matters. -/
theorem optionalPart (n? : Option Node) :
    Follows frame (fun run => Walk.optional run frame n?) (fun _ => ()) (.inTurn n?.toList) := by
  cases n? with
  | none => exact .pure _
  | some n => exact .part n

/-- Going on with a value depends on whether it is a failure. -/
theorem unlessFailure {p : Runner → Step α} {q : Value → Runner → Step α} (v : Value)
    (failed : v.isFailure = true → Follows frame p view a)
    (h : v.isFailure = false → Follows frame (q v) view a) :
    Follows frame (fun run => match v with
      | .failure => p run
      | v => q v run) view a := by
  cases v with
  | failure => exact failed rfl
  | _ => exact h rfl

theorem pair {q : Node × Node → Runner → Step α}
    (h : ∀ m n, children = [m, n] → Follows frame (q (m, n)) view a) :
    Follows frame (fun run => Step.pair children >>= fun mn => q mn run) view a := by
  match children with
  | [m, n] => exact h m n rfl
  | [] | [_] | _ :: _ :: _ :: _ => exact .throw (.misshapen .badValue)

theorem triple {q : Node × Node × Node → Runner → Step α}
    (h : ∀ l m n, children = [l, m, n] → Follows frame (q (l, m, n)) view a) :
    Follows frame (fun run => Step.triple children >>= fun lmn => q lmn run) view a := by
  match children with
  | [l, m, n] => exact h l m n rfl
  | [] | [_] | [_, _] | _ :: _ :: _ :: _ :: _ => exact .throw (.misshapen .badValue)

theorem child {index : Nat} {q : Node → Runner → Step α}
    (h : ∀ n, children[index]? = some n → Follows frame (q n) view a) :
    Follows frame (fun run => Step.child children index >>= fun n => q n run) view a := by
  unfold Step.child
  cases found : children[index]? with
  | none => exact .throw (.misshapen .badIndex)
  | some n => exact h n found

/-- Going on with a truth value depends on which it is. -/
theorem truth {v : Value} {p q : Runner → Step α}
    (yes : v.isTrue = true → Follows frame p view a) (no : v.isTrue = false → Follows frame q view a) :
    Follows frame (fun run => Step.ofExcept v.truth >>= fun t => if t = true then p run else q run)
      view a := by
  unfold Value.isTrue at yes no
  cases told : v.truth with
  | error u => exact .throw (.fault (.unmet u))
  | ok t =>
    rw [told] at yes no
    cases t with
    | true => exact yes rfl
    | false => exact no rfl

/-- What is not so, is left out. -/
theorem unlessNot {c : Bool} {p q : Runner → Step α} {b : Agenda σ} (no : Follows frame p view b)
    (yes : Follows frame q view a) :
    Follows frame (fun run => if (!c) = true then p run else q run) view
      (if c = true then a else b) := by
  cases c with
  | false => exact no
  | true => exact yes

/-- Something is called. -/
theorem task {t : Task} (isCall : t.IsCall) :
    Follows frame (fun run => run t) (fun _ => ()) .called :=
  (errand (.call t isCall)).told

/-- A failure that is reported. -/
theorem failWith {view : Value → σ} {x : σ} (channel : Channel) (text : Text)
    (h : view .failure = x) :
    Follows frame (fun _ => Step.failWith channel text) view (Pure.pure x) := by
  refine .own fun s v given => ?_
  obtain rfl : Value.failure = v := Option.some.inj given
  exact h

end Follows

namespace Walk

open Follows

variable {frame : FrameRef} (children : List Node)

/-! ### Statements -/

theorem inTurn_follows (last : Value) :
    Follows frame (fun run => inTurn run frame last children) (fun _ => ()) (.inTurn children) := by
  induction children generalizing last with
  | nil => exact .pure last
  | cons n rest ih => exact (Follows.part n).bind fun v => ih v

theorem statements_follows :
    Follows frame (fun run => statements run children frame) (fun _ => ()) (.inTurn children) :=
  .after fun _ => inTurn_follows children .undefined

theorem expressionStatement_follows :
    Follows frame (fun run => (do run (.eval (← Step.child children 0) frame) : Step Value))
      (fun _ => ()) (.inTurn children[0]?.toList) :=
  .child fun n found => by rw [found]; exact .part n

theorem declaration_follows :
    Follows frame (fun run => declaration run frame children) (fun _ => ()) (.inTurn children) := by
  induction children with
  | nil => exact .pure _
  | cons n rest ih => exact (Follows.part n).bind fun _ => ih

theorem declarator_follows :
    Follows frame (fun run => declarator run children frame) (fun _ => ())
      (.inTurn children[1]?.toList) :=
  .child fun _ _ => .after fun _ => (optionalPart children[1]?).andOwn

theorem returning_follows :
    Follows frame (fun run => returning run children frame) (fun _ => ())
      (.inTurn children[0]?.toList) := by
  rw [← List.head?_eq_getElem?]
  exact (optionalPart children.head?).andOwn

theorem conditional_follows :
    Follows frame (fun run => conditional run children frame) (fun _ => ())
      (.conditional children) := by
  cases children with
  | nil => exact .throw (.misshapen .badIndex)
  | cons test branches =>
    refine (Follows.evaluate test).bind fun v => .unlessFailure v (fun failed => ?_) fun succeeded => ?_
    · rw [id, if_pos failed]
      exact .pure _
    · rw [id, if_neg (Bool.eq_false_iff.mp succeeded)]
      refine .truth (fun yes => ?_) fun no => ?_
      · rw [if_pos yes]
        exact .child fun n found => by
          rw [show branches[0]? = some n from found]
          exact .part n
      · rw [if_neg (Bool.eq_false_iff.mp no)]
        exact .optionalPart branches[1]?

/-! ### Operators -/

theorem unary_follows :
    Follows frame (fun run => unary run children frame) (fun _ => ()) (.unary children) := by
  refine .pair fun operator operand same => ?_
  subst same
  dsimp only [Agenda.unary]
  cases UnaryOperator.ofText? operator.asText with
  | none => exact .failWith _ _ rfl
  | some op => exact (Follows.part operand).andOwn

/-- An operator decides on its left operand as the agenda says. -/
theorem decided?_follows (sign : Text) (left : Value) :
    Follows frame (fun _ => decided? sign left) Option.isSome (pure (decides sign left)) := by
  unfold decided? decides Value.isTrue
  cases told : left.truth with
  | error u =>
    cases sign == "&&" <;> cases sign == "||"
    · exact .pure _
    all_goals exact .throw (.fault (.unmet u))
  | ok t =>
    cases sign == "&&" <;> cases sign == "||" <;> cases t <;> exact .pure _

theorem binary_follows :
    Follows frame (fun run => binary run children frame) (fun _ => ()) (.binary children) := by
  refine .triple fun left operator right same => ?_
  subst same
  refine (Follows.evaluate left).bind fun v => .unlessFailure v (fun failed => ?_) fun succeeded => ?_
  · rw [id, failed]
    exact .pure _
  · rw [id, succeeded, Bool.false_or]
    refine bind (b := fun decided => if decided = true then _ else _)
      (decided?_follows operator.asText v) fun decision => ?_
    cases decision with
    | some v => exact .pure _
    | none => exact (Follows.part right).andOwn

/-! ### Templates -/

theorem templateTexts_follows :
    Follows frame (fun run => templateTexts run frame children) (fun _ => ()) (.inTurn children) := by
  induction children with
  | nil => exact .pure _
  | cons n rest ih => exact (Follows.part n).bind fun _ => .after fun _ => ih.andOwn

theorem template_follows :
    Follows frame (fun run => template run children frame) (fun _ => ()) (.inTurn children) :=
  (templateTexts_follows children).andOwn

/-- Chunks are taken as they are. -/
theorem templateValues_follows :
    Follows frame (fun run => templateValues run frame children) (fun _ => ())
      (.inTurn (children.filter (!Agenda.isChunk ·))) := by
  induction children with
  | nil => exact .pure _
  | cons n rest ih =>
    have value (notChunk : Agenda.isChunk n = false) : Follows frame
        (fun run => (do
          let v ← run (.eval n frame)
          let others ← templateValues run frame rest
          return (others.1, v.orUndefined :: others.2) : Step (List Value × List Value)))
        (fun _ => ()) (.inTurn ((n :: rest).filter (!Agenda.isChunk ·))) := by
      rw [List.filter_cons_of_pos (by rw [notChunk]; rfl)]
      exact (Follows.part n).bind fun _ => ih.andOwn
    cases n with
    | branch kind position parts =>
      cases kind with
      | templateChunk => exact .after fun _ => ih.andOwn
      | _ => exact value rfl
    | leaf | stray => exact value rfl

theorem callValue_follows (f : Value) (args : List Value) (receiver : Option Value) :
    Follows frame (fun run => Step.callValue run f args receiver) (fun _ => ()) .called := by
  unfold Step.callValue
  cases f <;> exact .task trivial

theorem taggedTemplate_follows :
    Follows frame (fun run => taggedTemplate run children frame) (fun _ => ())
      (.taggedTemplate children) := by
  refine .pair fun tag template same => ?_
  subst same
  refine (Follows.evaluate tag).bind fun f => .unlessFailure f (fun failed => ?_) fun succeeded => ?_
  · rw [id, if_neg (Bool.eq_false_iff.mp (Value.isCallable_of_isFailure failed))]
    exact .pure _
  · refine .unlessNot (.after fun _ => .failWith _ _ rfl) ?_
    exact (templateValues_follows template.children).bind fun (chunks, values) =>
      .after fun _ => callValue_follows f _ none

/-! ### Lists and objects -/

theorem elementItems_follows (n : Node) :
    Follows frame (fun run => elementItems run frame n) (fun _ => ())
      (.inTurn (Agenda.element n)) := by
  have single : Follows frame
      (fun run => (do return [(← run (.eval n frame)).orUndefined] : Step (List Value)))
      (fun _ => ()) (.inTurn [n]) := (Follows.part n).andOwn
  cases n with
  | branch kind position children =>
    cases kind with
    | hole => exact .pure _
    | spread =>
      refine .child fun n found => ?_
      dsimp only [Agenda.element]
      rw [found]
      exact (Follows.part n).andOwn
    | _ => exact single
  | leaf | stray => exact single

theorem listItems_follows :
    Follows frame (fun run => listItems run frame children) (fun _ => ())
      (.inTurn (children.flatMap Agenda.element)) := by
  induction children with
  | nil => exact .pure _
  | cons n rest ih =>
    rw [List.flatMap_cons, Agenda.inTurn_append]
    exact (elementItems_follows n).bind fun _ => ih.andOwn

theorem list_follows :
    Follows frame (fun run => list run children frame) (fun _ => ())
      (.inTurn (children.flatMap Agenda.element)) :=
  (listItems_follows children).andOwn

theorem propertyKey_follows (n : Node) :
    Follows frame (fun run => propertyKey run n frame) Option.isSome (.key n) := by
  cases n with
  | leaf label text position =>
    cases label with
    | number => exact .after fun _ => .after fun _ => .pure _
    | _ => exact .pure _
  | branch kind position parts =>
    refine .child fun n found => ?_
    show Follows _ _ _ (do return !(← Agenda.optional parts[0]?).isFailure)
    rw [found]
    refine (Follows.evaluate n).bind fun v => .unlessFailure v (fun failed => ?_) fun succeeded => ?_
    · rw [id, failed]
      exact .pure _
    · rw [id, succeeded]
      exact .after fun _ => .pure _
  | stray => exact .throw (.misshapen .missingPart)

theorem propertyValue_follows (key : Text) (n : Node) :
    Follows frame (fun run => propertyValue run key n frame) (fun _ => ()) (.inTurn [n]) :=
  (Follows.part n).andOwn

theorem objectEntries_follows (entries : Entries) :
    Follows frame (fun run => objectEntries run frame entries children) (fun _ => ())
      (.each .property children) := by
  induction children generalizing entries with
  | nil => exact .pure _
  | cons n rest ih =>
    cases n with
    | branch kind position parts =>
      refine .pair fun key value same => ?_
      subst same
      have opened : Agenda.each .property (.branch kind position [key, value] :: rest) =
          Agenda.key key >>= fun found =>
            (if found = true then Agenda.inTurn [value] else pure ()) >>= fun _ =>
              Agenda.each .property rest := bind_assoc _ _ _
      rw [opened]
      refine bind (b := fun found => (if found = true then _ else _) >>= fun _ => _)
        (propertyKey_follows key) fun key? => ?_
      cases key? with
      | none => exact .after fun _ => ih entries
      | some key => exact (propertyValue_follows key value).bind fun v => ih _
    | leaf | stray => exact .throw (.misshapen .missingPart)

theorem object_follows :
    Follows frame (fun run => object run children frame) (fun _ => ()) (.each .property children) :=
  (objectEntries_follows children []).andOwn

/-! ### Members and calls -/

theorem memberKey_follows (object : Value) (n : Node) :
    Follows frame (fun run => memberKey run object n frame) Value.success?
      (.memberKey object n) := by
  have computed : Follows frame (fun run => (do
      match ← run (.eval n frame) with
      | .failure => return .failure
      | key =>
        if ← Step.ofExcept object.truth then return key
        else
          Step.failWith .access
            ("Cannot read computed property of " ++ (← Step.display object)) : Step Value))
      Value.success? (do
        let key ← Agenda.evaluate n
        return if key.isFailure || !object.isTrue then none else some key) := by
    refine (Follows.evaluate n).bind fun v => .unlessFailure v (fun failed => ?_) fun succeeded => ?_
    · rw [id, failed]
      exact .pure _
    · rw [id, succeeded]
      refine .truth (fun yes => ?_) fun no => ?_
      · rw [yes, ← Value.success?_of_succeeded succeeded]
        exact .pure v
      · rw [no]
        exact .after fun _ => .failWith _ _ rfl
  refine .ite (.failWith _ _ rfl) ?_
  cases n with
  | leaf label name position =>
    dsimp only
    cases object.isNullish with
    | true => exact .after fun _ => .failWith _ _ rfl
    | false => exact .pure _
  | branch | stray => exact computed

theorem memberParts_follows :
    Follows frame (fun run => memberParts run children frame) id (.memberParts children) := by
  refine .pair fun object property same => ?_
  subst same
  refine (Follows.evaluate object).bind fun v => .unlessFailure v (fun failed => ?_) fun succeeded => ?_
  · rw [id, if_pos failed]
    exact .pure _
  · rw [id, if_neg (Bool.eq_false_iff.mp succeeded)]
    refine bind (b := fun key => pure (key.map (v, ·))) (memberKey_follows v property) fun key => ?_
    refine .unlessFailure key (fun failed => ?_) fun succeeded => ?_
    · rw [Value.success?, if_pos failed]
      exact .pure _
    · rw [Value.success?_of_succeeded succeeded]
      exact .pure _

theorem member_follows :
    Follows frame (fun run => member run children frame) (fun _ => ())
      (do let _ ← Agenda.memberParts children) := by
  refine (memberParts_follows children).bind fun parts => ?_
  cases parts with
  | none => exact .pure _
  | some parts => exact .own fun _ _ _ => rfl

/-- What can be spread gives values. -/
theorem spread?_follows (v : Value) :
    Follows frame (fun _ => Step.spread? v) Option.isSome (pure v.spreads) := by
  cases v with
  | list ref => exact .after fun _ => .pure _
  | _ => exact .pure _

/-- An argument gives values or not. -/
theorem argumentValues_follows (n : Node) :
    Follows frame (fun run => argumentValues run frame n) Option.isSome (.argument n) := by
  have single : Follows frame (fun run => (do
      match ← run (.eval n frame) with
      | .failure => return none
      | v => return some [v] : Step (Option (List Value)))) Option.isSome
      (do return !(← Agenda.evaluate n).isFailure) := by
    refine (Follows.evaluate n).bind fun v => .unlessFailure v (fun failed => ?_) fun succeeded => ?_
    · rw [id, failed]
      exact .pure _
    · rw [id, succeeded]
      exact .pure _
  cases n with
  | branch kind position children =>
    cases kind with
    | spread =>
      refine .child fun n found => ?_
      rw [Agenda.argument, found]
      refine (Follows.evaluate n).bind fun v => ?_
      refine bind (b := pure) (spread?_follows v) fun values => ?_
      cases values with
      | some values => exact .pure _
      | none => exact .after fun _ => .after fun _ => .pure _
    | _ => exact single
  | leaf | stray => exact single

theorem callArguments_follows :
    Follows frame (fun run => callArguments run frame children) Option.isSome
      (.callArguments children) := by
  induction children with
  | nil => exact .pure _
  | cons n rest ih =>
    refine bind (b := fun given => if given = true then Agenda.callArguments rest else pure false)
      (argumentValues_follows n) fun values => ?_
    cases values with
    | none => exact .pure _
    | some values =>
      rw [Option.isSome_some, if_pos rfl, ← bind_pure (Agenda.callArguments rest)]
      refine ih.bind fun others => ?_
      cases others <;> exact .pure _

theorem constructArguments_follows :
    Follows frame (fun run => constructArguments run frame children) (fun _ => ())
      (.each (fun n => do let _ ← Agenda.argument n) children) := by
  induction children with
  | nil => exact .pure _
  | cons n rest ih =>
    refine bind (b := fun _ => Agenda.each _ rest) (argumentValues_follows n).told fun _ => ?_
    exact ih.andOwn

theorem callee_follows (n : Node) :
    Follows frame (fun run => callee run n frame) (Option.map Prod.fst) (.callee n) := by
  have alone : Follows frame
      (fun run => (do return some (← run (.eval n frame), none) : Step (Option (Value × Option Value))))
      (Option.map Prod.fst) (do return some (← Agenda.evaluate n)) :=
    (Follows.evaluate n).bind fun _ => .pure _
  cases n with
  | branch kind position children =>
    cases kind with
    | member =>
      refine (memberParts_follows children).bind fun parts => ?_
      cases parts with
      | none => exact .pure _
      | some parts => exact (Follows.errand (.resolve parts.1 parts.2)).bind fun _ => .pure _
    | _ => exact alone
  | leaf | stray => exact alone

theorem call_follows :
    Follows frame (fun run => call run children frame) (fun _ => ()) (.call children) := by
  refine .pair fun f args same => ?_
  subst same
  refine (callee_follows f).bind fun found => ?_
  cases found with
  | none => exact .pure _
  | some found =>
    obtain ⟨f, receiver⟩ := found
    have notCalled : Follows frame (fun _ => (do
        Step.failWith .access ((← Step.display f) ++ " is not a function") : Step Value)) (fun _ => ())
        (pure ()) := .after fun _ => .failWith _ _ rfl
    cases f with
    | failure => exact .failWith _ _ rfl
    | _ =>
      refine .unlessNot notCalled (bind
        (b := fun given => if given = true then Agenda.called else pure ())
        (callArguments_follows args.children) fun values => ?_)
      cases values with
      | none => exact .pure _
      | some values => exact callValue_follows _ values receiver

theorem constructWith_follows (f : FunctionRef) (args : List Value) :
    Follows frame (fun run => Step.constructWith run f args) (fun _ => ()) .called :=
  .after fun fresh => (Follows.task (t := .activate f args (some (.object fresh)) true) trivial).andOwn

theorem constructValue_follows (f : Value) (args : List Value) :
    Follows frame (fun run => Step.construct run f args) (fun _ => ()) .called := by
  unfold Step.construct
  cases f with
  | function f =>
    refine .after fun s => ?_
    cases s.functions[f]? with
    | none => exact constructWith_follows f args
    | some cell =>
      cases hkind : cell.kind with
      | plain =>
        simp only [hkind]
        exact constructWith_follows f args
      | arrow =>
        simp only [hkind]
        exact .throw _
  | native | hostMethod => exact .task trivial
  | _ => exact .after fun _ => .throw _

theorem construct_follows :
    Follows frame (fun run => construct run children frame) (fun _ => ()) (.construct children) := by
  refine .pair fun f args same => ?_
  subst same
  refine (Follows.evaluate f).bind fun v => .unlessFailure v (fun failed => ?_) fun succeeded => ?_
  · rw [id, if_pos failed]
    exact .pure _
  · rw [id, if_neg (Bool.eq_false_iff.mp succeeded)]
    exact (constructArguments_follows args.children).bind fun values => constructValue_follows v values

/-! ### Assignments -/

theorem target?_follows (n : Node) :
    Follows frame (fun run => target? run n frame) (fun _ => ()) (.target n) := by
  cases n with
  | branch kind position children =>
    cases kind with
    | identifier => exact .after fun _ => .after fun _ => .pure _
    | member =>
      refine (memberParts_follows children).bind fun parts => ?_
      cases parts <;> exact .pure _
    | _ => exact .after fun _ => .pure _
  | leaf | stray => exact .after fun _ => .pure _

theorem assign_follows :
    Follows frame (fun run => assign run children frame) (fun _ => ()) (.assign children) := by
  refine .triple fun left sign value same => ?_
  subst same
  refine (Follows.evaluate value).bind fun v => .unlessFailure v (fun failed => ?_) fun succeeded => ?_
  · rw [id, failed]
    exact .pure _
  · rw [id, succeeded, Bool.false_or]
    cases assigning? sign.asText with
    | none => exact .failWith _ _ rfl
    | some how => exact (target?_follows left).andOwn

theorem update_follows :
    Follows frame (fun run => update run children frame) (fun _ => ()) (.update children) := by
  refine .pair fun sign operand same => ?_
  subst same
  exact (target?_follows operand).andOwn

/-! ### Kinds -/

/-- **Evaluating a kind of node** follows its agenda. -/
theorem branch_follows (kind : Kind) :
    Follows frame (fun run => branch run kind children frame) (fun _ => ())
      (.ofKind kind children) := by
  cases kind with
  | program | block => exact statements_follows children
  | expressionStatement => exact expressionStatement_follows children
  | declaration => exact declaration_follows (children.drop 1)
  | declarator => exact declarator_follows children
  | conditionalStatement | conditional => exact conditional_follows children
  | returnStatement => exact returning_follows children
  | unary => exact unary_follows children
  | binary | logical => exact binary_follows children
  | array => exact list_follows children
  | object => exact object_follows children
  | member => exact member_follows children
  | assign => exact assign_follows children
  | update => exact update_follows children
  | call => exact call_follows children
  | construct => exact construct_follows children
  | template => exact template_follows children
  | taggedTemplate => exact taggedTemplate_follows children
  | empty | functionDeclaration | function | arrow | literal | identifier | this | templateChunk
  | params | arguments | spread | hole | property | computedKey | other =>
    exact .own fun _ _ _ => rfl

end Walk

/-! ## The order of evaluation -/

/-- **Parts are evaluated once at most, and in order.** A node of any kind is evaluated by going a
course, with any runner. What is evaluated, called and looked up for a call on the way follows the
agenda of the kind, and to its end if there is no interrupt. The nodes that are evaluated are
among the parts of the node, in their order and each in its place. In a strict kind of node nothing
comes after a part that fails. -/
theorem Walk.evaluates_in_order (kind : Kind) (children : List Node) (frame : FrameRef) :
    ∃ course : Course Value,
      (∀ run, branch run kind children frame = course.perform run frame) ∧
      ∀ run s,
        (Agenda.ofKind kind children).Path (course.items run frame s)
            (((branch run kind children frame).value? s).map fun _ => ())
          ∧ (evaluatedNodes (course.items run frame s)).Sublist (kind.parts children)
          ∧ (kind.isStrict = true → FailsLast (course.items run frame s)) := by
  obtain ⟨course, same, path⟩ := branch_follows children kind
  refine ⟨course, same, fun run s => ⟨path run s, ?_, fun strict => ?_⟩⟩
  · exact Agenda.ofKind_within children kind _ _ (path run s)
  · exact (Agenda.ofKind_strict children strict).failsLast (path run s)

end Scriptlet
