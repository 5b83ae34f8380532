import Scriptlet.Proofs.Contract.Task
import Scriptlet.Proofs.Unaware.Task
import Scriptlet.Proofs.Unwinding.Activation

/-!
# Hoisted declarations

The functions that are declared among statements are bound before the first of the statements
is run, and the last declaration of a name wins. When control comes to a declaration, its name
is bound already. If it is bound to a function made of this very declaration, in this frame and
during this run, nothing happens. Otherwise the name is bound anew, to a new function. So a
declaration does nothing if nothing has been assigned to its name and no other declaration of the
name follows; but it does undo an assignment, and it does take over from a later declaration.

Between the hoisting and the declaration anything may be run. But nothing that is run changes a
function in anything but its name, and nothing begins another run, so what has been made of a
declaration stays so. This is what stays as it is under a veil that hides nothing.
-/

namespace Scriptlet

/-! ## Declarations -/

/-- A **declaration** of a function. -/
@[ext]
structure Declaration where
  /-- The name that it binds. -/
  name : Text
  /-- The names of the parameters. -/
  params : List Text
  /-- What a call evaluates. -/
  body : Node

/-- What a node **declares**, if it is the declaration of a function and has its shape. -/
def Node.declaration? : Node → Option Declaration
  | .branch .functionDeclaration _ [name, params, body] => do
    return ⟨← name.identifier?, ← params.children.mapM Node.identifier?, body⟩
  | _ => none

/-- The **last declaration** of a name among statements. -/
def lastDeclaration? (name : Text) : List Node → Option Declaration
  | [] => none
  | n :: rest => (lastDeclaration? name rest).or (n.declaration?.filter (·.name == name))

/-- What a frame itself binds a name to. -/
def Store.bound? (s : Store) (frame : FrameRef) (name : Text) : Option Value :=
  (s.bindings frame).get? (bindingKey name)

/-- Whether a function was **made of a declaration** in a frame during a run. -/
def Declaration.makes (d : Declaration) (frame : FrameRef) (run : Nat) (cell : FunctionCell) :
    Bool :=
  cell.run == run && cell.scope == frame && cell.body == d.body && cell.params == d.params

/-- Whether a frame **holds to a declaration**: it binds its name to a function that was made of
it there during the present run. -/
def Store.holdsTo (s : Store) (frame : FrameRef) (d : Declaration) : Bool :=
  match s.bound? frame d.name with
  | some (.function f) => s.functions[f]?.any (d.makes frame s.run)
  | _ => false

/-- The store after a declaration: unless the frame holds to it, its name is bound to a **new
function**. -/
def Declaration.bind (d : Declaration) (frame : FrameRef) (s : Store) : Store :=
  if s.holdsTo frame d then s
  else
    (s.newFunction ⟨d.params, d.body, frame, some d.name, .plain, s.run⟩).2.define frame d.name
      (.function s.functions.size)

variable {s s' : Store} {frame : FrameRef} {d : Declaration} {n : Node}

/-- Identifiers are all read if each of them is one. -/
theorem mapM_identifier?_eq_some {nodes : List Node} {names : List Text} :
    nodes.mapM Node.identifier? = some names ↔ nodes.map Node.identifier? = names.map some := by
  induction nodes generalizing names with
  | nil => cases names <;> simp
  | cons n rest ih =>
    cases names with
    | nil => simp [Option.bind_eq_some_iff]
    | cons name names =>
      simp only [List.mapM_cons, List.map_cons, List.cons.injEq, ← ih, Option.bind_eq_bind,
        Option.bind_eq_some_iff, Option.pure_def, Option.some.injEq]
      constructor
      · rintro ⟨_, here, _, there, rfl, rfl⟩
        exact ⟨here, there⟩
      · rintro ⟨here, there⟩
        exact ⟨name, here, names, there, rfl, rfl⟩

/-- The nodes that declare something. -/
theorem Node.declaration?_eq_some : n.declaration? = some d ↔
    ∃ position name params, n = .branch .functionDeclaration position [name, params, d.body] ∧
      name.identifier? = some d.name ∧
      params.children.map Node.identifier? = d.params.map some := by
  constructor
  · intro h
    unfold declaration? at h
    split at h
    · rename_i position name params body
      simp only [Option.bind_eq_bind, Option.bind_eq_some_iff, Option.pure_def,
        Option.some.injEq] at h
      obtain ⟨_, hname, _, hparams, rfl⟩ := h
      exact ⟨position, name, params, rfl, hname, mapM_identifier?_eq_some.mp hparams⟩
    · cases h
  · rintro ⟨position, name, params, rfl, hname, hparams⟩
    simp [declaration?, hname, mapM_identifier?_eq_some.mpr hparams]

theorem Declaration.makes_iff {run : Nat} {cell : FunctionCell} :
    d.makes frame run cell = true ↔
      cell.run = run ∧ cell.scope = frame ∧ cell.body = d.body ∧ cell.params = d.params := by
  simp [makes, and_assoc]

/-- A frame holds to a declaration if it binds the name to a function made of it. -/
theorem Store.holdsTo_iff : s.holdsTo frame d = true ↔
    ∃ f cell, s.bound? frame d.name = some (.function f) ∧ s.functions[f]? = some cell ∧
      d.makes frame s.run cell = true := by
  unfold holdsTo
  split
  · rename_i f bound
    simp [Option.any_eq_true, bound]
  · rename_i other
    exact iff_of_false Bool.false_ne_true fun ⟨f, _, bound, _⟩ => other f bound

/-! ## The walk over a declaration -/

namespace Walk

theorem parameterNames_eq {nodes : List Node} {names : List Text}
    (h : nodes.map Node.identifier? = names.map some) : parameterNames nodes = pure names := by
  induction nodes generalizing names with
  | nil => cases names with
    | nil => rfl
    | cons => cases h
  | cons n rest ih =>
    cases names with
    | nil => cases h
    | cons name names =>
      obtain ⟨here, there⟩ := List.cons.inj h
      simp only [parameterNames, here, ih there, pure_bind]

/-- Names that have been read are those of the nodes. -/
theorem map_identifier?_of_parameterNames {nodes : List Node} {names : List Text}
    (h : parameterNames nodes s = .ok names s') :
    nodes.map Node.identifier? = names.map some := by
  induction nodes generalizing names s s' with
  | nil =>
    cases h
    rfl
  | cons n rest ih =>
    cases here : n.identifier? with
    | none =>
      simp only [parameterNames, here] at h
      cases h
    | some name =>
      simp only [parameterNames, here] at h
      obtain ⟨names, s₁, there, ended⟩ := Step.of_bind_ok h
      cases ended
      simp [here, ih there]

/-- The walk looks for what a frame holds to. -/
theorem isDeclared_eq {params : Node}
    (h : params.children.map Node.identifier? = d.params.map some) :
    isDeclared s (Value.ofOption (s.bound? frame d.name)) params d.body frame =
      s.holdsTo frame d := by
  have same (cell : FunctionCell) : (cell.params.map some == params.children.map Node.identifier?) =
      (cell.params == d.params) := by
    rw [h, Bool.eq_iff_iff, beq_iff_eq, beq_iff_eq]
    exact List.map_inj_right fun _ _ => Option.some.inj
  unfold isDeclared Store.holdsTo
  cases s.bound? frame d.name with
  | none => rfl
  | some v =>
    cases v with
    | function f => simp only [Value.ofOption, same]; rfl
    | _ => rfl

/-- **A declaration** binds its name, unless the frame holds to it. -/
theorem functionDeclaration_eq {position : Option Position} {children : List Node}
    (declares : (Node.branch .functionDeclaration position children).declaration? = some d)
    (s : Store) : functionDeclaration children frame s = .ok .undefined (d.bind frame s) := by
  obtain ⟨_, name, params, same, hname, hparams⟩ := Node.declaration?_eq_some.mp declares
  obtain ⟨-, -, rfl⟩ := Node.branch.inj same
  simp only [functionDeclaration, Step.triple, pure_bind, Step.identifier, hname,
    parameterNames_eq hparams]
  change (if isDeclared s (Value.ofOption (s.bound? frame d.name)) params d.body frame then
    pure Value.undefined else _ : Step Value) s = _
  rw [isDeclared_eq hparams, Declaration.bind]
  split <;> rfl

/-- What has not the shape of a declaration does not end well. -/
theorem exists_declaration {position : Option Position} {children : List Node} {v : Value}
    (ended : functionDeclaration children frame s = .ok v s') :
    ∃ d, (Node.branch .functionDeclaration position children).declaration? = some d := by
  obtain ⟨⟨name, params, body⟩, s₁, parts, named⟩ := Step.of_bind_ok ended
  obtain ⟨text, s₂, reads, looked⟩ := Step.of_bind_ok named
  obtain ⟨t, s₃, -, binds⟩ := Step.of_bind_ok looked
  obtain rfl : children = [name, params, body] := by
    unfold Step.triple at parts
    split at parts <;> cases parts
    rfl
  have hname : name.identifier? = some text := by
    cases found : name.identifier? with
    | none =>
      simp only [Step.identifier, found] at reads
      cases reads
    | some name =>
      simp only [Step.identifier, found] at reads
      cases reads
      rfl
  have declares {names : List Text} (h : params.children.map Node.identifier? = names.map some) :
      ∃ d, (Node.branch .functionDeclaration position [name, params, body]).declaration? = some d :=
    ⟨⟨text, names, body⟩, Node.declaration?_eq_some.mpr ⟨position, name, params, rfl, hname, h⟩⟩
  dsimp only at binds
  split at binds
  · rename_i declared
    unfold isDeclared at declared
    split at declared
    · obtain ⟨cell, -, made⟩ := (Option.any_eq_true _ _).mp declared
      simp only [Bool.and_eq_true, beq_iff_eq] at made
      exact declares made.2.symm
    · cases declared
  · obtain ⟨names, s₄, reads, -⟩ := Step.of_bind_ok binds
    exact declares (map_identifier?_of_parameterNames reads)

end Walk

/-! ## What a declaration binds -/

/-- A store **has a frame**, and the object in which it binds names. -/
def Store.HasFrame (s : Store) (frame : FrameRef) : Prop :=
  ∃ cell, s.frames[frame]? = some cell ∧ cell.bindings < s.objects.size

/-- What is bound after a name has been bound. -/
theorem Entries.get?_put {entries : Entries} {name other : Text} {v : Value} :
    (entries.put (bindingKey name) v).get? (bindingKey other) =
      if other = name then some v else entries.get? (bindingKey other) := by
  have same : (bindingKey name).same (bindingKey other) = true ↔ other = name := by
    rw [Veil.same_bindingKey, bindingKey, bindingKey, Key.text.injEq, eq_comm]
  induction entries with
  | nil => simp only [put, get?_cons, same, get?_nil]
  | cons e rest ih =>
    rw [put]
    split
    · rename_i here
      rw [get?_cons, get?_cons, Veil.same_bindingKey.mp here]
      simp only [same]
      split <;> rfl
    · rename_i elsewhere
      rw [get?_cons, get?_cons, ih]
      by_cases there : e.1.same (bindingKey other) = true
      · rw [if_pos there, if_pos there]
        refine (if_neg fun eq => elsewhere ?_).symm
        rwa [← eq]
      · rw [if_neg there, if_neg there]

/-- What a frame binds names to after it has bound one. -/
theorem Store.bound?_define (there : s.HasFrame frame) {name other : Text} {v : Value} :
    (s.define frame name v).bound? frame other =
      if other = name then some v else s.bound? frame other := by
  obtain ⟨cell, found, isIn⟩ := there
  have bindings : (s.define frame name v).bindings frame =
      (s.bindings frame).put (bindingKey name) v := by
    simp [Store.bindings, define, found, setEntries, entries, isIn]
  rw [bound?, bindings, Entries.get?_put, bound?]

/-- Binding a name leaves the functions alone, -/
@[simp] theorem Store.functions_define (s : Store) (frame : FrameRef) (name : Text) (v : Value) :
    (s.define frame name v).functions = s.functions := by
  unfold define
  split <;> rfl

/-- and no run begins with it. -/
@[simp] theorem Store.run_define (s : Store) (frame : FrameRef) (name : Text) (v : Value) :
    (s.define frame name v).run = s.run := by
  unfold define
  split <;> rfl

namespace Declaration

/-- A declaration leaves a store as it is **exactly if the frame holds to it**. -/
theorem bind_eq_self_iff : d.bind frame s = s ↔ s.holdsTo frame d = true := by
  constructor
  · intro same
    refine Classical.byContradiction fun anew => ?_
    -- A new function would be one more.
    have size := congrArg (·.functions.size) same
    rw [bind, if_neg anew] at size
    simp [Store.newFunction] at size
  · intro holds
    rw [bind, if_pos holds]

variable (there : s.HasFrame frame)
include there

/-- Where it does not, the name is bound to a function that has not been there, and other names
are bound as before. -/
theorem bound?_bind_of_not (anew : s.holdsTo frame d = false) (name : Text) :
    (d.bind frame s).bound? frame name =
      if name = d.name then some (.function s.functions.size) else s.bound? frame name := by
  let made := (s.newFunction ⟨d.params, d.body, frame, some d.name, .plain, s.run⟩).2
  have there' : made.HasFrame frame := there
  rw [bind, if_neg (by simp [anew])]
  exact Store.bound?_define there'

theorem bound?_bind_of_ne {name : Text} (other : name ≠ d.name) :
    (d.bind frame s).bound? frame name = s.bound? frame name := by
  cases holds : s.holdsTo frame d with
  | true => rw [bind_eq_self_iff.mpr holds]
  | false => rw [bound?_bind_of_not there holds, if_neg other]

/-- After a declaration the frame holds to it. -/
theorem holdsTo_bind : (d.bind frame s).holdsTo frame d = true := by
  cases holds : s.holdsTo frame d with
  | true => rwa [bind_eq_self_iff.mpr holds]
  | false =>
    refine Store.holdsTo_iff.mpr ⟨_, ⟨d.params, d.body, frame, some d.name, .plain, s.run⟩,
      (bound?_bind_of_not there holds d.name).trans (if_pos rfl), ?_, ?_⟩
    · simp [bind, holds, Store.newFunction]
    · rw [makes_iff]
      simp [bind, holds, Store.newFunction]

end Declaration

/-- A frame is still there after a declaration. -/
theorem Store.HasFrame.bind (there : s.HasFrame frame) (d : Declaration) :
    (d.bind frame s).HasFrame frame := by
  unfold Declaration.bind
  split
  · exact there
  · obtain ⟨cell, found, isIn⟩ := there
    exact ⟨cell, by simp [define, newFunction, found, setEntries],
      by simpa [define, newFunction, found, setEntries] using isIn⟩

/-! ## Where nothing is hidden -/

/-- The veil that **hides nothing**: everything is within reach, and all names may be used. -/
def Veil.sheer (start : Store) : Veil where
  garbage := ∅
  context := none
  used _ := true
  hidden _ := false
  attributes _ := false
  spared _ := false
  start
  usesThis := rfl
  hidden_unused _ _ := rfl
  attributes_closed _ _ := rfl
  spared_closed _ _ := rfl

/-- A host whose functions **leave those of the program alone**, as long as what they have run
does: none of them changes more of a function than its name, binds the names of a frame in
another object or begins a run. -/
def Host.LeavesFunctions (host : Host) : Prop :=
  ∀ start, host.Unaware (.sheer start)

section Sheer

theorem Veil.sheer_barsNothing (start : Store) : (sheer start).BarsNothing :=
  ⟨rfl, rfl, fun _ => rfl⟩

/-- Every store is sound at its start. -/
theorem Veil.sound_sheer (start : Store) : (sheer start).Sound start :=
  (sheer_barsNothing start).sound (fun _ hp => hp) (fun kind _ => fitsKind (fun _ => rfl) kind)
    (sheer start).leftAlone_start

/-- What has ended well has left a sound store. -/
theorem Step.Unaware.sound_of_ok {V : Veil} {step : Step α} {P : α → Prop} {a : α}
    (h : step.Unaware V s P) (hs : V.Sound s) (ended : step s = .ok a s') : V.Sound s' := by
  have allows := (h hs).2
  rw [ended] at allows
  exact allows.1

/-- A frame stays where it is. -/
theorem Store.HasFrame.of_sound (there : s.HasFrame frame) (h : (Veil.sheer s).Sound s') :
    s'.HasFrame frame := by
  obtain ⟨cell, found, isIn⟩ := there
  obtain ⟨cell', found', same⟩ := h.untouched.frames frame cell found
  exact ⟨cell', found', same ▸ h.there (.object cell.bindings) isIn⟩

/-- What was made of a declaration **stays so**: as long as the name is bound to it, that
declaration and no other of the name is the one that the frame holds to. -/
theorem Store.holdsTo_of_sound (h : (Veil.sheer s).Sound s') (holds : s.holdsTo frame d = true)
    {e : Declaration} (name : e.name = d.name)
    (same : s'.bound? frame d.name = s.bound? frame d.name) :
    s'.holdsTo frame e = true ↔ e = d := by
  obtain ⟨f, cell, bound, found, made⟩ := Store.holdsTo_iff.mp holds
  obtain ⟨run, scope, body, params⟩ := Declaration.makes_iff.mp made
  obtain ⟨other, found'⟩ := h.untouched.functions f cell found
  have run' : s'.run = s.run := h.untouched.run
  have looked : s'.holdsTo frame e = e.makes frame s'.run { cell with name := other } := by
    simp [holdsTo, name, same, bound, found']
  rw [looked, Declaration.makes_iff, run', body, params]
  constructor
  · rintro ⟨-, -, body, params⟩
    exact Declaration.ext name params.symm body.symm
  · rintro rfl
    exact ⟨run, scope, rfl, rfl⟩

/-- It stays so as long as the name is bound to it. -/
theorem Store.holdsTo_stays (h : (Veil.sheer s).Sound s') (holds : s.holdsTo frame d = true)
    (same : s'.bound? frame d.name = s.bound? frame d.name) : s'.holdsTo frame d = true :=
  (Store.holdsTo_of_sound h holds rfl same).mpr rfl

end Sheer

/-! ## Hoisting -/

namespace Walk

/-- What is no declaration is passed over. -/
theorem hoist_cons_of_ne {rest : List Node} (h : n.kind? ≠ some .functionDeclaration) :
    hoist frame (n :: rest) = hoist frame rest := by
  rw [hoist]
  rintro position children rfl
  exact h rfl

/-- **One statement is hoisted** after another: a declaration takes its place, and all others
are passed over. -/
theorem hoist_cons {rest : List Node} (hoisted : hoist frame (n :: rest) s = .ok () s') :
    (∃ d r, n.declaration? = some d ∧ hoist frame rest ((d.bind frame s).note r) = .ok () s') ∨
      (n.declaration? = none ∧ hoist frame rest s = .ok () s') := by
  by_cases h : n.kind? = some .functionDeclaration
  · cases n with
    | leaf | stray => cases h
    | branch kind position children =>
      obtain rfl := Option.some.inj h
      obtain ⟨v, s₁, declared, noted⟩ := Step.of_bind_ok hoisted
      obtain ⟨d, declares⟩ := exists_declaration declared
      rw [functionDeclaration_eq declares] at declared
      cases declared
      exact .inl ⟨d, _, declares, noted⟩
  · rw [hoist_cons_of_ne h] at hoisted
    refine .inr ⟨Option.eq_none_iff_forall_ne_some.mpr fun d declares => h ?_, hoisted⟩
    obtain ⟨_, _, _, rfl, -⟩ := Node.declaration?_eq_some.mp declares
    rfl

/-- Hoisting changes nothing of what is to be left alone. -/
theorem sound_of_hoist {nodes : List Node} (hoisted : hoist frame nodes s = .ok () s') :
    (Veil.sheer s).Sound s' :=
  have bare := Veil.sheer_barsNothing s
  (hoist_unaware (bare.reached _) fun n _ => bare.speaks n).sound_of_ok (Veil.sound_sheer s)
    hoisted

/-- **After hoisting** each name that is declared is bound to a function that was made of its last
declaration, and all others are bound as before. -/
theorem hoist_binds {nodes : List Node} (there : s.HasFrame frame)
    (hoisted : hoist frame nodes s = .ok () s') (name : Text) :
    match lastDeclaration? name nodes with
    | some d => d.name = name ∧ s'.holdsTo frame d = true
    | none => s'.bound? frame name = s.bound? frame name := by
  induction nodes generalizing s with
  | nil =>
    cases hoisted
    rfl
  | cons n rest ih =>
    rcases hoist_cons hoisted with ⟨d, r, declares, later⟩ | ⟨other, later⟩
    · let s₁ := (d.bind frame s).note r
      have there₁ : s₁.HasFrame frame := there.bind d
      have after := ih there₁ later
      cases last : lastDeclaration? name rest with
      | some e => simpa [lastDeclaration?, last] using after
      | none =>
        simp only [last] at after
        have whole : lastDeclaration? name (n :: rest) =
            if d.name = name then some d else none := by
          simp [lastDeclaration?, last, declares, Option.filter]
        rw [whole]
        by_cases here : d.name = name
        · rw [if_pos here]
          subst here
          exact ⟨rfl, Store.holdsTo_stays (sound_of_hoist later) (Declaration.holdsTo_bind there)
            after⟩
        · rw [if_neg here]
          exact after.trans (Declaration.bound?_bind_of_ne there (Ne.symm here))
    · simpa [lastDeclaration?, other] using ih there later

end Walk

/-- A name that a statement declares has a last declaration. -/
theorem exists_lastDeclaration? (before after : List Node) (declares : n.declaration? = some d) :
    ∃ last, lastDeclaration? d.name (before ++ n :: after) = some last := by
  rw [← Option.isSome_iff_exists]
  induction before with
  | nil => simp [lastDeclaration?, declares, Option.filter]
  | cons other before ih => simp [lastDeclaration?, ih]

/-! ## Coming to a statement -/

/-- How control **comes to a statement** of a list: the list is hoisted, and the statements before
it are run. -/
inductive Walk.ComesTo (run : Runner) (frame : FrameRef) (before : List Node) (n : Node)
    (after : List Node) : Store → Store → Store → Prop
  /-- The list is that of a program, -/
  | program {s s₁ s₂ : Store} {position : Option Position} {vs : List Value}
    (hoisted : Program.prepare (.branch .program position (before ++ n :: after)) frame s =
      .ok () s₁)
    (ran : Program.runStatements run frame before s₁ = .ok vs s₂) :
    ComesTo run frame before n after s s₁ s₂
  /-- or of a block, -/
  | block {s s₁ s₂ : Store} {v : Value}
    (hoisted : hoist frame (before ++ n :: after) s = .ok () s₁)
    (ran : inTurn run frame .undefined before s₁ = .ok v s₂) :
    ComesTo run frame before n after s s₁ s₂
  /-- or of the body of a function, where a failure ends the run. -/
  | body {s s₁ s₂ : Store} {v : Value}
    (hoisted : hoist frame (before ++ n :: after) s = .ok () s₁)
    (ran : untilFailure run frame .undefined before s₁ = .ok v s₂) (fine : v ≠ .failure) :
    ComesTo run frame before n after s s₁ s₂

section Coming

variable {run : Runner} {before after rest : List Node} {s₁ s₂ : Store}

/-- What follows a step depends on nothing but its end. -/
theorem Step.bind_congr {step step' : Step α} {next : α → Step β} (h : step s = step' s') :
    (step >>= next) s = (step' >>= next) s' := by
  cases ended : step' s' with
  | ok a t => rw [bind_of_ok ended, bind_of_ok (h.trans ended)]
  | error i t => rw [bind_of_error ended, bind_of_error (h.trans ended)]

/-- And so does what taking a return from it comes to. -/
theorem Walk.catchingReturn_congr {step step' : Step Value} (h : step s = step' s') :
    catchingReturn step s = catchingReturn step' s' := by
  cases ended : step' s' with
  | ok v t =>
    change EStateM.tryCatch step _ s = EStateM.tryCatch step' _ s'
    simp only [EStateM.tryCatch, h, ended]
  | error i t =>
    cases i with
    | returned v =>
      rw [catchingReturn_of_returned ended, catchingReturn_of_returned (h.trans ended)]
    | _ =>
      rw [catchingReturn_of_error ended nofun, catchingReturn_of_error (h.trans ended) nofun]

/-- Statements of a program go on with those that are left. -/
theorem Program.runStatements_goesOn {vs : List Value}
    (ran : runStatements run frame before s = .ok vs s₁) :
    runStatements run frame (before ++ rest) s =
      ((vs ++ ·) <$> runStatements run frame rest) s₁ := by
  induction before generalizing s vs with
  | nil =>
    cases ran
    simp
  | cons n before ih =>
    obtain ⟨v, s', here, ran⟩ := Step.of_bind_ok ran
    obtain ⟨others, s'', ran, ended⟩ := Step.of_bind_ok ran
    cases ended
    rw [List.cons_append, runStatements, Step.bind_of_ok here]
    have later : _ = EStateM.map _ _ s₁ := ih ran
    change EStateM.bind _ _ s' = EStateM.map _ _ s₁
    unfold EStateM.bind
    rw [later]
    unfold EStateM.map
    cases runStatements run frame rest s₁ <;> rfl

/-- So do those of a block, -/
theorem Walk.inTurn_goesOn {last v : Value} (ran : inTurn run frame last before s = .ok v s₁) :
    inTurn run frame last (before ++ rest) s = inTurn run frame v rest s₁ := by
  induction before generalizing s last with
  | nil =>
    cases ran
    rfl
  | cons n before ih =>
    obtain ⟨w, s', here, ran⟩ := Step.of_bind_ok ran
    rw [List.cons_append, inTurn, Step.bind_of_ok here, ih ran]

/-- and those of the body of a function. -/
theorem Walk.untilFailure_goesOn {last v : Value}
    (ran : untilFailure run frame last before s = .ok v s₁) (fine : v ≠ .failure) :
    untilFailure run frame last (before ++ rest) s = untilFailure run frame v rest s₁ := by
  induction before generalizing s last with
  | nil =>
    cases ran
    rfl
  | cons n before ih =>
    obtain ⟨w, s', here, ran⟩ := Step.of_bind_ok ran
    rw [List.cons_append, untilFailure, Step.bind_of_ok here]
    cases w with
    | failure =>
      cases ran
      exact absurd rfl fine
    | _ => exact ih ran

/-- **What is left of a program** when control has come to one of its statements. -/
theorem Program.runWith_goesOn {position : Option Position} {vs : List Value}
    (hoisted : prepare (.branch .program position (before ++ n :: after)) frame s = .ok () s₁)
    (ran : runStatements run frame before s₁ = .ok vs s₂) :
    runWith run (.branch .program position (before ++ n :: after)) frame s =
      ((vs ++ ·) <$> runStatements run frame (n :: after)) s₂ :=
  (Step.bind_of_ok hoisted).trans (runStatements_goesOn ran)

/-- What is left of a block. -/
theorem Walk.statements_goesOn {v : Value}
    (hoisted : hoist frame (before ++ n :: after) s = .ok () s₁)
    (ran : inTurn run frame .undefined before s₁ = .ok v s₂) :
    statements run (before ++ n :: after) frame s = inTurn run frame v (n :: after) s₂ :=
  (Step.bind_of_ok hoisted).trans (inTurn_goesOn ran)

/-- What is left of the body of a function. -/
theorem Walk.body_goesOn {v : Value} {constructs : Bool}
    (hoisted : hoist frame (before ++ n :: after) s = .ok () s₁)
    (ran : untilFailure run frame .undefined before s₁ = .ok v s₂) (fine : v ≠ .failure) :
    body run (before ++ n :: after) frame constructs s =
      catchingReturn (do
        match ← untilFailure run frame v (n :: after) with
        | .failure => return .failure
        | v => return if constructs then .undefined else v) s₂ := by
  have later : untilFailure run frame .undefined (before ++ n :: after) s₁ =
      untilFailure run frame v (n :: after) s₂ := untilFailure_goesOn ran fine
  exact (Step.bind_of_ok hoisted).trans (catchingReturn_congr (Step.bind_congr later))

namespace Walk.ComesTo

/-- What the frame binds names to when the list has been hoisted. -/
theorem binds (comes : ComesTo run frame before n after s s₁ s₂) (there : s.HasFrame frame) :
    s₁.HasFrame frame ∧ ∀ name d, lastDeclaration? name (before ++ n :: after) = some d →
      d.name = name ∧ s₁.holdsTo frame d = true := by
  have binds {s s₁ : Store} (there : s.HasFrame frame)
      (hoisted : hoist frame (before ++ n :: after) s = .ok () s₁) :
      s₁.HasFrame frame ∧ ∀ name d, lastDeclaration? name (before ++ n :: after) = some d →
        d.name = name ∧ s₁.holdsTo frame d = true := by
    refine ⟨there.of_sound (sound_of_hoist hoisted), fun name d last => ?_⟩
    have bound := hoist_binds there hoisted name
    rwa [last] at bound
  cases comes with
  | program hoisted ran =>
    obtain ⟨_, s', begun, later⟩ := Step.of_bind_ok hoisted
    obtain ⟨_, s'', between, noted⟩ := Step.of_bind_ok later
    cases begun
    cases noted
    have bound := binds (s := { s with run := s.run + 1 }) there between
    exact bound
  | block hoisted ran => exact binds there hoisted
  | body hoisted ran fine => exact binds there hoisted

/-- **On the way to the statement** nothing happens to what is to be left alone. -/
theorem sound (comes : ComesTo run frame before n after s s₁ s₂)
    (hrun : run.Unaware (.sheer s₁)) : (Veil.sheer s₁).Sound s₂ := by
  have reached := (Veil.sheer_barsNothing s₁).reached (.frame frame)
  have start := Veil.sound_sheer s₁
  have speaks (n : Node) (_ : n ∈ before) := (Veil.sheer_barsNothing s₁).speaks n
  cases comes with
  | program hoisted ran =>
    exact (Program.runStatements_unaware hrun reached speaks).sound_of_ok start ran
  | block hoisted ran =>
    exact (inTurn_unaware hrun reached Value.fits_undefined speaks).sound_of_ok start ran
  | body hoisted ran fine =>
    exact (untilFailure_unaware hrun reached Value.fits_undefined speaks).sound_of_ok start ran

end Walk.ComesTo

end Coming

/-! ## Following a program -/

/-- Where control has come to in a program that is run where nothing is bound. -/
structure Coming where
  /-- The statements that have been run, -/
  before : List Node
  /-- the one that is next, -/
  next : Node
  /-- and those that are left. -/
  after : List Node
  /-- The store when the program had been hoisted, -/
  hoisted : Store
  /-- and the one there is now. -/
  reached : Store

/-- **Follows** the program in a text up to a statement. -/
def Program.follow? (run : Runner) (source : Text) (k : Nat) : Option Coming :=
  match parseProgram source with
  | .ok (.branch .program position statements) =>
    match prepare (.branch .program position statements) 0 Store.blank, statements.drop k with
    | .ok _ hoisted, next :: after =>
      match runStatements run 0 (statements.take k) hoisted with
      | .ok _ reached => some ⟨statements.take k, next, after, hoisted, reached⟩
      | .error .. => none
    | _, _ => none
  | _ => none

/-- Control comes to the statement up to which a program is followed. -/
theorem Program.comesTo_of_follow? {run : Runner} {source : Text} {k : Nat} {c : Coming}
    (h : follow? run source k = some c) :
    ∃ position,
      parseProgram source = .ok (.branch .program position (c.before ++ c.next :: c.after)) ∧
      Walk.ComesTo run 0 c.before c.next c.after Store.blank c.hoisted c.reached := by
  unfold follow? at h
  split at h
  · rename_i position statements parsed
    split at h
    · rename_i hoisted next after prepared left
      split at h
      · rename_i vs reached ran
        obtain rfl := Option.some.inj h
        have whole : statements.take k ++ next :: after = statements := by
          rw [← left, List.take_append_drop]
        exact ⟨position, whole.symm ▸ parsed, .program (whole.symm ▸ prepared) ran⟩
      · cases h
    · cases h
  · cases h

/-! ## Coming to a declaration -/

/-- Doing a declaration. -/
theorem Task.runTo_declaration (declares : n.declaration? = some d) (host : Host) (depth : Nat)
    (s : Store) : Task.runTo host (depth + 1) (.eval n frame) s =
      .ok .undefined (d.bind frame s) := by
  obtain ⟨position, name, params, rfl, -⟩ := Node.declaration?_eq_some.mp declares
  have ended : Walk.branch (Task.runTo host depth) .functionDeclaration [name, params, d.body]
      frame s = .ok .undefined (d.bind frame s) := Walk.functionDeclaration_eq declares s
  change EStateM.tryCatch _ _ s = _
  unfold EStateM.tryCatch
  dsimp only
  rw [ended]

/-- **A declaration that control comes to.** When a list of statements has been hoisted, the frame
holds to the last declaration of each name. When control comes to a declaration of the list, that
succeeds, and it changes nothing at all exactly if the frame holds to this very declaration then.
If the name has not been bound to anything else in the meantime, that is so exactly for the
last declaration of the name. If it is not so, the name is bound to a new function,
whatever it was bound to. -/
theorem Walk.reaches_declaration {host : Host} (hhost : host.LeavesFunctions) {depth : Nat}
    {before after : List Node} {s₁ s₂ : Store} (declares : n.declaration? = some d)
    (there : s.HasFrame frame)
    (comes : ComesTo (Task.runTo host (depth + 1)) frame before n after s s₁ s₂) :
    ∃ last, lastDeclaration? d.name (before ++ n :: after) = some last ∧
      s₁.holdsTo frame last = true ∧
      Task.runTo host (depth + 1) (.eval n frame) s₂ = .ok .undefined (d.bind frame s₂) ∧
      (d.bind frame s₂ = s₂ ↔ s₂.holdsTo frame d = true) ∧
      (s₂.bound? frame d.name = s₁.bound? frame d.name →
        (s₂.holdsTo frame d = true ↔ d = last)) ∧
      (s₂.holdsTo frame d = false → ∀ name, (d.bind frame s₂).bound? frame name =
        if name = d.name then some (.function s₂.functions.size) else s₂.bound? frame name) := by
  obtain ⟨last, isLast⟩ := exists_lastDeclaration? before after declares
  obtain ⟨there₁, binds⟩ := comes.binds there
  obtain ⟨named, holds⟩ := binds d.name last isLast
  have sound := comes.sound (Task.runTo_unaware (hhost s₁) (depth + 1))
  refine ⟨last, isLast, holds, Task.runTo_declaration declares host depth s₂,
    Declaration.bind_eq_self_iff, fun same => ?_, ?_⟩
  · exact Store.holdsTo_of_sound sound holds named.symm (by rw [named, same])
  · exact Declaration.bound?_bind_of_not (there₁.of_sound sound)

/-- The text `g = f; function f() {} g`, in which the name is bound already. -/
theorem Walk.reaches_declaration_of_alias :
    ∃ c d last, Program.follow? (Task.runTo .bare 9) "g = f; function f() {} g" 1 = some c ∧
      Host.bare.LeavesFunctions ∧ c.next.declaration? = some d ∧ Store.blank.HasFrame 0 ∧
      ComesTo (Task.runTo .bare 9) 0 c.before c.next c.after Store.blank c.hoisted c.reached ∧
      lastDeclaration? d.name (c.before ++ c.next :: c.after) = some last ∧
      c.hoisted.holdsTo 0 last = true ∧
      Task.runTo .bare 9 (.eval c.next 0) c.reached = .ok .undefined (d.bind 0 c.reached) ∧
      (d.bind 0 c.reached = c.reached ↔ c.reached.holdsTo 0 d = true) ∧
      (c.reached.bound? 0 d.name = c.hoisted.bound? 0 d.name →
        (c.reached.holdsTo 0 d = true ↔ d = last)) ∧
      c.reached.holdsTo 0 d = true := by
  have evaluates : ((Program.follow? (Task.runTo .bare 9) "g = f; function f() {} g" 1).any
      fun c => c.next.declaration?.any (c.reached.holdsTo 0 ·)) = true := by
    decide +kernel
  obtain ⟨c, follows, holds⟩ := (Option.any_eq_true _ _).mp evaluates
  obtain ⟨d, declares, holds⟩ := (Option.any_eq_true _ _).mp holds
  obtain ⟨position, parsed, comes⟩ := Program.comesTo_of_follow? follows
  have alone : Host.bare.LeavesFunctions := fun _ => Host.bare_unaware _
  have there : Store.blank.HasFrame 0 := ⟨⟨0, none, false, none⟩, rfl, Nat.zero_lt_one⟩
  obtain ⟨last, isLast, bound, done, same, exactly, -⟩ :=
    reaches_declaration alone declares there comes
  exact ⟨c, d, last, follows, alone, declares, there, comes, isLast, bound, done, same, exactly,
    holds⟩

/-- Whether a node that is done **changes no binding** of its frame. -/
def Walk.LeavesBindings (run : Runner) (frame : FrameRef) (n : Node) (s : Store) : Prop :=
  ∀ v s', run (.eval n frame) s = .ok v s' → ∀ name, s'.bound? frame name = s.bound? frame name

/-- **A declaration undoes an assignment** to its name: `f = 5; function f() {} f`. -/
theorem Walk.not_leavesBindings_of_assigned :
    ∃ c d position, Program.follow? (Task.runTo .bare 9) "f = 5; function f() {} f" 1 = some c ∧
      parseProgram "f = 5; function f() {} f" =
        .ok (.branch .program position (c.before ++ c.next :: c.after)) ∧
      c.next.declaration? = some d ∧
      ComesTo (Task.runTo .bare 9) 0 c.before c.next c.after Store.blank c.hoisted c.reached ∧
      ¬ LeavesBindings (Task.runTo .bare 9) 0 c.next c.reached := by
  have evaluates : ((Program.follow? (Task.runTo .bare 9) "f = 5; function f() {} f" 1).any
      fun c => (c.reached.bound? 0 "f").any Value.isNumber && c.next.declaration?.any fun d =>
        ((d.bind 0 c.reached).bound? 0 "f").any Value.isCallable) = true := by
    decide +kernel
  obtain ⟨c, follows, assigned⟩ := (Option.any_eq_true _ _).mp evaluates
  obtain ⟨number, declared⟩ := Bool.and_eq_true_iff.mp assigned
  obtain ⟨d, declares, callable⟩ := (Option.any_eq_true _ _).mp declared
  obtain ⟨position, parsed, comes⟩ := Program.comesTo_of_follow? follows
  refine ⟨c, d, position, follows, parsed, declares, comes, fun leaves => ?_⟩
  rw [leaves _ _ (Task.runTo_declaration declares .bare 8 c.reached) "f"] at callable
  cases bound : c.reached.bound? 0 "f" with
  | none => simp [bound] at number
  | some v => cases v <;> simp_all [Value.isNumber, Value.isCallable]

end Scriptlet
