import Scriptlet.Method.List
import Scriptlet.Proofs.Callback
import Scriptlet.Proofs.Novelty
import Scriptlet.Walk

/-!
# Iteration works on a snapshot

Eight methods of lists call a function back for the items: they map, filter, look for an item, put
a question to some or to all, gather a value or simply make the calls. The function can do what
it likes to the very list that is being gone through. It makes no difference to the calls: they
are made for the items that the list had at the start.

What is common to the eight is a *traversal*: the items to be visited with their indices, the row
of arguments that is made of an item, what is asked of an answer, whether it decides the matter,
and what is concluded in the end. The eight loops are written each in its own way, and each is
shown to be a traversal here; whatever is said of traversals then holds for all of them. A
traversal ends in one of four ways: it goes all the way, or an answer decides it, or a call is
interrupted, or it is beyond the host to tell what an answer is worth.
-/

namespace Scriptlet

/-! ## Traversals -/

/-- A **traversal** of some items. -/
structure Traversal where
  /-- The items that are visited, with their indices. -/
  visits : List (Value × Nat)
  /-- The row of arguments for a visit, after the answer before it. -/
  row : Value → Value × Nat → List Value
  /-- What counts as the answer before the first visit. -/
  start : Value
  /-- Whether an answer decides the matter, so that no more visits are made. -/
  decides : Value → Except Unmet Bool
  /-- What is concluded from the answers and from the visit that was decisive, if one was. -/
  conclude : List Value → Option (Value × Nat) → Step Value

namespace Traversal

/-- The rows of arguments for the visits, as far as the answers before them go. -/
def rows (τ : Traversal) (answers : List Value) : List (List Value) :=
  List.zipWith τ.row (τ.start :: answers) τ.visits

/-- The calls that have been made when there are some answers. -/
def calls (τ : Traversal) (answers : List Value) : List (List Value × Value) :=
  List.zipWith (fun v row => (row, v)) answers (τ.rows answers)

/-- What is left of a traversal when the first visit has been answered. -/
def after (τ : Traversal) (v : Value) (rest : List (Value × Nat)) : Traversal where
  visits := rest
  row := τ.row
  start := v
  decides := τ.decides
  conclude answers := τ.conclude (v :: answers)

/-- Makes the visits, one after another, until an answer decides the matter. -/
def goThrough (run : Runner) (callee : Value) (row : Value → Value × Nat → List Value)
    (decides : Value → Except Unmet Bool) (last : Value) :
    List (Value × Nat) → Step (List Value × Option (Value × Nat))
  | [] => return ([], none)
  | visit :: rest => do
    let v ← Step.invoke run callee (row last visit)
    if ← Step.ofExcept (decides v) then return ([v], some visit)
    else
      let (answers, decisive) ← goThrough run callee row decides v rest
      return (v :: answers, decisive)

/-- **Carries a traversal out.** -/
def perform (run : Runner) (callee : Value) (τ : Traversal) : Step Value := do
  let (answers, decisive) ← goThrough run callee τ.row τ.decides τ.start τ.visits
  τ.conclude answers decisive

/-- **How a traversal ends.** In each case the calls are those for the visits in their order, and
all answers before the last have left the matter open. -/
inductive Ends (run : Runner) (callee : Value) (τ : Traversal) (s : Store) :
    EStateM.Result Interrupt Store Value → Prop
  /-- All visits have been made. -/
  | through (answers : List Value) {t : Store} (called : CalledBack run callee s (τ.calls answers) t)
    (all : answers.length = τ.visits.length) (openLeft : ∀ v ∈ answers, τ.decides v = .ok false) :
    Ends run callee τ s (τ.conclude answers none t)
  /-- The last answer has decided the matter. -/
  | decided (answers : List Value) {v : Value} {visit : Value × Nat} {t : Store}
    (called : CalledBack run callee s (τ.calls (answers ++ [v])) t)
    (here : τ.visits[answers.length]? = some visit)
    (openLeft : ∀ v ∈ answers, τ.decides v = .ok false) (decides : τ.decides v = .ok true) :
    Ends run callee τ s (τ.conclude (answers ++ [v]) (some visit) t)
  /-- The next call has been interrupted. -/
  | interrupted (answers : List Value) {visit : Value × Nat} {t t' : Store} {i : Interrupt}
    (called : CalledBack run callee s (τ.calls answers) t)
    (here : τ.visits[answers.length]? = some visit)
    (openLeft : ∀ v ∈ answers, τ.decides v = .ok false)
    (interrupts : run (callee.callbackTask (τ.row (answers.getLastD τ.start) visit)) t = .error i t') :
    Ends run callee τ s (.error i t')
  /-- The host cannot tell what the last answer is worth. -/
  | unclear (answers : List Value) {v : Value} {t : Store} {u : Unmet}
    (called : CalledBack run callee s (τ.calls (answers ++ [v])) t)
    (more : answers.length < τ.visits.length)
    (openLeft : ∀ v ∈ answers, τ.decides v = .ok false) (unmet : τ.decides v = .error u) :
    Ends run callee τ s (.error (.fault (.unmet u)) t)

variable {run : Runner} {callee : Value} {τ : Traversal} {s s' : Store}

/-- A traversal ends as what is left of it after a visit whose answer has left the matter open. -/
theorem Ends.after {visit : Value × Nat} {rest : List (Value × Nat)} {v : Value}
    {r : EStateM.Result Interrupt Store Value} (visits : τ.visits = visit :: rest)
    (called : run (callee.callbackTask (τ.row τ.start visit)) s = .ok v s')
    (undecided : τ.decides (callee.answer v) = .ok false)
    (h : (τ.after (callee.answer v) rest).Ends run callee s' r) : τ.Ends run callee s r := by
  have calls {answers : List Value} {t : Store}
      (later : CalledBack run callee s' ((τ.after (callee.answer v) rest).calls answers) t) :
      CalledBack run callee s (τ.calls (callee.answer v :: answers)) t := by
    rw [Traversal.calls, rows, visits]
    exact .cons called later
  have openLeft {answers : List Value} (more : ∀ w ∈ answers, τ.decides w = .ok false) :
      ∀ w ∈ callee.answer v :: answers, τ.decides w = .ok false :=
    List.forall_mem_cons.mpr ⟨undecided, more⟩
  cases h with
  | @through answers t later all more =>
    refine .through (callee.answer v :: answers) (calls later) ?_ (openLeft more)
    rw [visits, List.length_cons, List.length_cons, all]
    rfl
  | @decided answers w visit' t later here more decides =>
    refine .decided (callee.answer v :: answers) (calls later) ?_ (openLeft more) decides
    rw [visits]
    exact here
  | @interrupted answers visit' t t' i later here more interrupts =>
    have there : τ.visits[(callee.answer v :: answers).length]? = some visit' := by
      rw [visits]
      exact here
    refine .interrupted (callee.answer v :: answers) (calls later) there (openLeft more) ?_
    rw [List.getLastD_cons]
    exact interrupts
  | @unclear answers w t u later many more unmet =>
    refine .unclear (callee.answer v :: answers) (calls later) ?_ (openLeft more) unmet
    rw [visits, List.length_cons, List.length_cons]
    exact Nat.succ_lt_succ many

/-- **Every traversal ends in one of the four ways.** -/
theorem perform_ends (callable : callee.isCallable = true) (τ : Traversal) (s : Store) :
    τ.Ends run callee s (τ.perform run callee s) := by
  obtain ⟨visits, row, start, decides, conclude⟩ := τ
  induction visits generalizing start conclude s with
  | nil => exact .through [] (.nil s) rfl nofun
  | cons visit rest ih =>
    unfold perform
    dsimp only
    rw [goThrough, bind_assoc]
    cases done : run (callee.callbackTask (row start visit)) s with
    | error i t =>
      rw [Step.bind_of_error (Step.invoke_of_error callable done)]
      exact .interrupted [] (.nil s) rfl nofun done
    | ok v t =>
      rw [Step.bind_of_ok (Step.invoke_of_ok callable done), bind_assoc]
      have first : CalledBack run callee s [(row start visit, callee.answer v)] t :=
        .cons done (.nil t)
      cases asked : decides (callee.answer v) with
      | error u =>
        rw [Step.bind_of_error (Step.ofExcept_of_error rfl)]
        exact .unclear [] first (Nat.zero_lt_succ _) nofun asked
      | ok decided =>
        rw [Step.bind_of_ok (Step.ofExcept_of_ok rfl)]
        cases decided with
        | true => exact .decided [] first rfl nofun asked
        | false =>
          refine Ends.after rfl done asked ?_
          have later := ih t (callee.answer v) fun answers => conclude (callee.answer v :: answers)
          unfold perform at later
          rw [if_neg nofun, bind_assoc]
          exact later

/-- A traversal in which no answer decides the matter has made all visits if it gives a value. -/
theorem Ends.of_ok {v : Value} {t : Store} (h : τ.Ends run callee s (.ok v t))
    (never : ∀ v, τ.decides v ≠ .ok true) :
    ∃ answers s', CalledBack run callee s (τ.calls answers) s' ∧ answers.length = τ.visits.length
      ∧ τ.conclude answers none s' = .ok v t := by
  generalize ended : EStateM.Result.ok v t = r at h
  cases h with
  | through _ called all openLeft => exact ⟨_, _, called, all, rfl⟩
  | decided _ _ _ _ decides => exact absurd decides (never _)
  | interrupted => cases ended
  | unclear => cases ended

end Traversal

/-! ## The loops -/

namespace ListMethod

open Traversal

/-- The row of arguments for an item: the item, its index and the list. -/
def rowOfItem (list : Value) : Value → Value × Nat → List Value :=
  fun _ visit => [visit.1, .int visit.2, list]

/-- The row of arguments for an item when something is gathered, which comes first. -/
def rowOfGathering (list : Value) : Value → Value × Nat → List Value :=
  fun gathered visit => [gathered, visit.1, .int visit.2, list]

/-- An answer that is not looked at. -/
def unasked : Value → Except Unmet Bool :=
  fun _ => .ok false

/-- An answer that has to be true or not, but decides nothing by it. -/
def judged : Value → Except Unmet Bool :=
  fun v => (fun _ => false) <$> v.truth

/-- An answer that decides the matter if it has the wanted truth. -/
def sought (wanted : Bool) : Value → Except Unmet Bool :=
  fun v => (· == wanted) <$> v.truth

/-- The items whose answers count as true. -/
def keptAmong (items answers : List Value) : List Value :=
  ((items.zip answers).filter fun (_, v) => v.truth matches .ok true).map Prod.fst

variable {run : Runner} {callee list : Value}

/-- What is made of going through some visits is made of the first answer and of going through the
others, unless the first answer decides the matter. -/
theorem map_goThrough_cons {row : Value → Value × Nat → List Value}
    {decides : Value → Except Unmet Bool} {last : Value} {visit : Value × Nat}
    {rest : List (Value × Nat)} (f : List Value × Option (Value × Nat) → α) :
    f <$> goThrough run callee row decides last (visit :: rest) =
      Step.invoke run callee (row last visit) >>= fun v =>
      Step.ofExcept (decides v) >>= fun decided =>
      if decided then pure (f ([v], some visit))
      else (fun r => f (v :: r.1, r.2)) <$> goThrough run callee row decides v rest := by
  rw [goThrough, map_bind]
  refine bind_congr fun v => ?_
  rw [map_bind]
  refine bind_congr fun decided => ?_
  cases decided with
  | true => rfl
  | false => exact map_bind f _ _

theorem mapFrom_eq (last : Value) (index : Nat) (items : List Value) :
    mapFrom (visitWith run callee list) index items =
      Prod.fst <$> goThrough run callee (rowOfItem list) unasked last (items.zipIdx index) := by
  induction items generalizing last index with
  | nil => rfl
  | cons item rest ih =>
    rw [mapFrom, List.zipIdx_cons, map_goThrough_cons]
    refine bind_congr fun v => ?_
    rw [ih v, bind_map_left]
    rfl

theorem forEachFrom_eq (last : Value) (index : Nat) (items : List Value) :
    forEachFrom (visitWith run callee list) index items =
      (fun _ => ()) <$> goThrough run callee (rowOfItem list) unasked last (items.zipIdx index) := by
  induction items generalizing last index with
  | nil => rfl
  | cons item rest ih =>
    rw [forEachFrom, List.zipIdx_cons, map_goThrough_cons]
    refine bind_congr fun v => ?_
    rw [ih v]
    rfl

theorem filterFrom_eq (last : Value) (index : Nat) (items : List Value) :
    filterFrom (visitWith run callee list) index items =
      (fun r => keptAmong items r.1) <$>
        goThrough run callee (rowOfItem list) judged last (items.zipIdx index) := by
  induction items generalizing last index with
  | nil => rfl
  | cons item rest ih =>
    rw [filterFrom, List.zipIdx_cons, map_goThrough_cons]
    refine bind_congr fun v => ?_
    rw [ih v, judged]
    cases truth : v.truth with
    | error u => rfl
    | ok keep =>
      have kept (answers : List Value) : keptAmong (item :: rest) (v :: answers)
          = if keep then item :: keptAmong rest answers else keptAmong rest answers := by
        cases keep <;> simp [keptAmong, truth]
      simp only [kept]
      exact bind_map_left (m := Step) _ _ _

theorem findFrom_eq (wanted : Bool) (last : Value) (index : Nat) (items : List Value) :
    findFrom (visitWith run callee list) wanted index items =
      Prod.snd <$> goThrough run callee (rowOfItem list) (sought wanted) last
        (items.zipIdx index) := by
  induction items generalizing last index with
  | nil => rfl
  | cons item rest ih =>
    rw [findFrom, List.zipIdx_cons, map_goThrough_cons]
    refine bind_congr fun v => ?_
    rw [ih v, sought]
    cases v.truth with
    | error u => rfl
    | ok found => rfl

theorem gatherFrom_eq (gathered : Value) (index : Nat) (items : List Value) :
    gatherFrom run callee list gathered index items =
      (fun r => r.1.getLastD gathered) <$>
        goThrough run callee (rowOfGathering list) unasked gathered (items.zipIdx index) := by
  induction items generalizing gathered index with
  | nil => rfl
  | cons item rest ih =>
    rw [gatherFrom, List.zipIdx_cons, map_goThrough_cons]
    refine bind_congr fun v => ?_
    rw [ih v]
    simp only [List.getLastD_cons]
    rfl

/-! ## The methods -/

/-- The **traversal that a method is**, given its arguments and the items that the list has at the
start. -/
def traversal? (ref : ListRef) (args items : List Value) : ListMethod → Option Traversal
  | map => some
    { visits := items.zipIdx, row := rowOfItem (.list ref), start := .undefined, decides := unasked
      conclude := fun answers _ => Step.newList answers }
  | filter => some
    { visits := items.zipIdx, row := rowOfItem (.list ref), start := .undefined, decides := judged
      conclude := fun answers _ => Step.newList (keptAmong items answers) }
  | forEach => some
    { visits := items.zipIdx, row := rowOfItem (.list ref), start := .undefined, decides := unasked
      conclude := fun _ _ => return .undefined }
  | find => some
    { visits := items.zipIdx, row := rowOfItem (.list ref), start := .undefined
      decides := sought true
      conclude := fun _ decisive => return Value.ofOption (decisive.map Prod.fst) }
  | findIndex => some
    { visits := items.zipIdx, row := rowOfItem (.list ref), start := .undefined
      decides := sought true
      conclude := fun _ decisive =>
        return .int (match decisive with | some (_, index) => index | none => -1) }
  | any => some
    { visits := items.zipIdx, row := rowOfItem (.list ref), start := .undefined
      decides := sought true
      conclude := fun _ decisive => return .bool decisive.isSome }
  | all => some
    { visits := items.zipIdx, row := rowOfItem (.list ref), start := .undefined
      decides := sought false
      conclude := fun _ decisive => return .bool decisive.isNone }
  | reduce =>
    (match args[1]?, items with
      | some v, items => some (v, items.zipIdx)
      | none, item :: rest => some (item, rest.zipIdx 1)
      | none, [] => none).map fun (start, visits) =>
        { visits, row := rowOfGathering (.list ref), start, decides := unasked
          conclude := fun answers _ => return answers.getLastD start }
  | _ => none

variable {ref : ListRef} {args : List Value} {s : Store}

theorem callback_eq (callable : (argument args 0).isCallable = true) (method : Text) :
    Step.callback method args = pure (argument args 0) :=
  if_pos callable

theorem call_reduce (callable : (argument args 0).isCallable = true) :
    call run ref args .reduce s =
      gather run (argument args 0) (.list ref) args[1]? (s.items ref) s := by
  show (Step.callback _ _ >>= fun callee => gather run callee (.list ref) args[1]? (s.items ref)) s
    = _
  rw [callback_eq callable, pure_bind]

/-- Gathering is a traversal that starts with a value, -/
theorem gatherFrom_eq_perform (run : Runner) (callee list v : Value) (index : Nat)
    (items : List Value) :
    gatherFrom run callee list v index items =
      Traversal.perform run callee
        { visits := items.zipIdx index, row := rowOfGathering list, start := v, decides := unasked
          conclude := fun answers _ => return answers.getLastD v } := by
  rw [gatherFrom_eq, map_eq_pure_bind]
  rfl

/-- which for reducing is the one that is given or the first item. -/
theorem gather_eq_perform {items : List Value} {τ : Traversal}
    (h : reduce.traversal? ref args items = some τ) :
    gather run callee (.list ref) args[1]? items = τ.perform run callee := by
  obtain ⟨⟨start, visits⟩, begins, rfl⟩ := Option.map_eq_some_iff.mp h
  cases given : args[1]? with
  | some v =>
    rw [given] at begins
    cases begins
    exact gatherFrom_eq_perform run callee (.list ref) start 0 items
  | none =>
    rw [given] at begins
    cases items with
    | nil => cases begins
    | cons item rest =>
      cases begins
      exact gatherFrom_eq_perform run callee (.list ref) start 1 rest

/-- **The eight methods are traversals.** -/
theorem call_eq_perform (callable : (argument args 0).isCallable = true) {m : ListMethod}
    {τ : Traversal} (h : m.traversal? ref args (s.items ref) = some τ) :
    call run ref args m s = τ.perform run (argument args 0) s := by
  have later {α β γ : Type} (f : α → β) (step : Step α) (next : β → Step γ) :
      (f <$> step >>= next) = step >>= fun a => next (f a) := bind_map_left f step next
  cases m with
  | map =>
    cases h
    show (Step.callback _ _ >>= fun callee => mapFrom _ _ _ >>= _) s = _
    rw [callback_eq callable, pure_bind, mapFrom_eq .undefined, later]
    rfl
  | filter =>
    cases h
    show (Step.callback _ _ >>= fun callee => filterFrom _ _ _ >>= _) s = _
    rw [callback_eq callable, pure_bind, filterFrom_eq .undefined, later]
    rfl
  | forEach =>
    cases h
    show (Step.callback _ _ >>= fun callee => forEachFrom _ _ _ >>= _) s = _
    rw [callback_eq callable, pure_bind, forEachFrom_eq .undefined, later]
    rfl
  | find | findIndex | any | all =>
    cases h
    show (Step.callback _ _ >>= fun callee => findFrom _ _ _ _ >>= _) s = _
    rw [callback_eq callable, pure_bind, findFrom_eq _ .undefined, later]
    rfl
  | reduce =>
    rw [call_reduce callable]
    exact congrFun (gather_eq_perform h) s
  | _ => cases h

/-- Gathering is the **left fold** of the callback over the visits. -/
theorem gatherFrom_eq_foldlM (gathered : Value) (index : Nat) (items : List Value) :
    gatherFrom run callee list gathered index items =
      (items.zipIdx index).foldlM
        (fun gathered visit => Step.invoke run callee (rowOfGathering list gathered visit)) gathered := by
  induction items generalizing gathered index with
  | nil => rfl
  | cons item rest ih =>
    rw [gatherFrom, List.zipIdx_cons, List.foldlM_cons]
    exact bind_congr fun v => ih v (index + 1)

/-- The items that are kept are some of those that there are, in their order. -/
theorem keptAmong_sublist {items answers : List Value} (h : items.length ≤ answers.length) :
    (keptAmong items answers).Sublist items := by
  have kept := (List.filter_sublist (p := fun (_, v) => v.truth matches .ok true)
    (l := items.zip answers)).map Prod.fst
  rwa [List.map_fst_zip h] at kept

/-- The rows for items do not depend on the answers. -/
theorem rows_of_items {τ : Traversal} {list : Value} (items : τ.row = rowOfItem list)
    (answers : List Value) :
    τ.rows answers = (τ.visits.take (answers.length + 1)).map fun visit =>
      [visit.1, .int visit.2, list] := by
  rw [Traversal.rows, items, ← List.length_cons (a := τ.start)]
  generalize τ.start :: answers = before
  generalize τ.visits = visits
  induction before generalizing visits with
  | nil => rfl
  | cons v before ih =>
    cases visits with
    | nil => rfl
    | cons visit visits =>
      rw [List.zipWith_cons_cons, ih, List.length_cons, List.take_succ_cons, List.map_cons]
      rfl

/-- The calls for items in their order, with an answer for each. -/
def callsForItems (list : Value) (items answers : List Value) : List (List Value × Value) :=
  List.zipWith (fun v visit => ([visit.1, .int visit.2, list], v)) answers items.zipIdx

/-- They are those of a traversal of the items. -/
theorem calls_of_items {τ : Traversal} {list : Value} {items : List Value}
    (row : τ.row = rowOfItem list) (visits : τ.visits = items.zipIdx) (answers : List Value) :
    τ.calls answers = callsForItems list items answers := by
  rw [Traversal.calls, Traversal.rows, callsForItems, row, visits]
  generalize τ.start = start
  generalize items.zipIdx = visits
  induction answers generalizing start visits with
  | nil => rfl
  | cons v answers ih =>
    cases visits with
    | nil => rfl
    | cons visit visits =>
      rw [List.zipWith_cons_cons, List.zipWith_cons_cons, List.zipWith_cons_cons, ih]
      rfl

theorem unasked_ne (v : Value) : unasked v ≠ .ok true := by
  unfold unasked
  exact nofun

theorem judged_ne (v : Value) : judged v ≠ .ok true := by
  unfold judged
  cases v.truth <;> exact nofun

/-- What a new list holds is what it has been made of. -/
theorem items_of_newList {items : List Value} {v : Value} {t : Store}
    (h : Step.newList items s = .ok v t) : ∃ new, v = .list new ∧ t.items new = items := by
  have made : Step.newList items s = .ok (.list s.lists.size) (s.newList items).2 := rfl
  cases made.symm.trans h
  exact ⟨_, rfl, Store.items_newList_self⟩

/-- A method in which no answer decides the matter has made all visits if it gives a value. -/
theorem of_call_ok (callable : (argument args 0).isCallable = true) {m : ListMethod}
    {τ : Traversal} {v : Value} {t : Store} (traverses : m.traversal? ref args (s.items ref) = some τ)
    (never : ∀ v, τ.decides v ≠ .ok true) (ends : call run ref args m s = .ok v t) :
    ∃ answers s', CalledBack run (argument args 0) s (τ.calls answers) s'
      ∧ answers.length = τ.visits.length ∧ τ.conclude answers none s' = .ok v t := by
  rw [call_eq_perform callable traverses] at ends
  have through : τ.Ends run (argument args 0) s _ := τ.perform_ends callable s
  rw [ends] at through
  exact through.of_ok never

/-- All eight are traversals but for one case: reducing when there is no item and nothing to start
with. -/
theorem traversal?_eq_none {m : ListMethod}
    (among : m ∈ [map, filter, forEach, reduce, find, findIndex, any, all]) {items : List Value}
    (h : m.traversal? ref args items = none) : m = .reduce ∧ args[1]? = none ∧ items = [] := by
  cases m with
  | reduce =>
    have none := Option.map_eq_none_iff.mp h
    cases given : args[1]? with
    | some v =>
      rw [given] at none
      cases none
    | none =>
      cases items with
      | cons item rest =>
        rw [given] at none
        cases none
      | nil => exact ⟨rfl, rfl, rfl⟩
  | map | filter | forEach | find | findIndex | any | all => cases h
  | _ => simp at among

/-- The rows of all traversals but that of reducing are those for the items. -/
theorem rows_of_traversal? {m : ListMethod} {τ : Traversal} {items : List Value}
    (h : m.traversal? ref args items = some τ) (notReduce : m ≠ .reduce) (answers : List Value) :
    τ.rows answers = (items.zipIdx.take (answers.length + 1)).map fun visit =>
      [visit.1, .int visit.2, .list ref] := by
  cases m with
  | map | filter | forEach | find | findIndex | any | all =>
    cases h
    exact rows_of_items rfl answers
  | reduce => exact absurd rfl notReduce
  | _ => cases h

/-- Reducing is the **left fold** over the items, or over those behind the first if there is nothing
else to start with. -/
theorem call_reduce_eq_foldlM (callable : (argument args 0).isCallable = true) {start : Value}
    {visits : List (Value × Nat)}
    (begins : args[1]? = some start ∧ visits = (s.items ref).zipIdx
      ∨ args[1]? = none ∧ (s.items ref).zipIdx = (start, 0) :: visits) :
    call run ref args .reduce s = visits.foldlM (fun gathered visit =>
      Step.invoke run (argument args 0) (rowOfGathering (.list ref) gathered visit)) start s := by
  rw [call_reduce callable]
  rcases begins with ⟨given, rfl⟩ | ⟨missing, first⟩
  · rw [given]
    exact congrFun (gatherFrom_eq_foldlM start 0 (s.items ref)) s
  · rw [missing]
    cases items : s.items ref with
    | nil =>
      rw [items] at first
      cases first
    | cons item rest =>
      rw [items] at first
      cases first
      exact congrFun (gatherFrom_eq_foldlM start 1 rest) s

/-- **Iteration works on a snapshot.** Each of the eight methods is a traversal, and ends as
traversals do: the callback has been called with the rows for the items that the list had at the
start, in their order, up to the last of them, to the one that decided the matter, to a call that was
interrupted, or to an answer of which the host could not tell whether it is true. A row consists of
the item, its index and the list, and of what has been gathered before them.

So mapping gives the answers for all items, filtering gives those items in their order whose answers
are true, and reducing is the left fold; there is no value to start it with only if the list is
empty. -/
theorem iterates_snapshot (run : Runner) (ref : ListRef) (args : List Value) (s : Store)
    (callable : (argument args 0).isCallable = true) :
    (∀ m ∈ [map, filter, forEach, reduce, find, findIndex, any, all],
      (∃ τ, m.traversal? ref args (s.items ref) = some τ
        ∧ τ.Ends run (argument args 0) s (call run ref args m s)
        ∧ (m ≠ .reduce → ∀ answers, τ.rows answers =
            ((s.items ref).zipIdx.take (answers.length + 1)).map fun visit =>
              [visit.1, .int visit.2, .list ref]))
      ∨ m = .reduce ∧ args[1]? = none ∧ s.items ref = []
        ∧ call run ref args m s = .error (.error
            ⟨.wrongType, "Reduce of empty array with no initial value", none⟩) s)
    ∧ (∀ v t, call run ref args .map s = .ok v t → ∃ new u, v = .list new
        ∧ (t.items new).length = (s.items ref).length
        ∧ CalledBack run (argument args 0) s
            (callsForItems (.list ref) (s.items ref) (t.items new)) u)
    ∧ (∀ v t, call run ref args .filter s = .ok v t → ∃ new answers u, v = .list new
        ∧ answers.length = (s.items ref).length
        ∧ CalledBack run (argument args 0) s (callsForItems (.list ref) (s.items ref) answers) u
        ∧ t.items new = keptAmong (s.items ref) answers
        ∧ (t.items new).Sublist (s.items ref))
    ∧ ∀ start visits,
        (args[1]? = some start ∧ visits = (s.items ref).zipIdx
          ∨ args[1]? = none ∧ (s.items ref).zipIdx = (start, 0) :: visits) →
        call run ref args .reduce s =
          visits.foldlM (fun gathered visit => Step.invoke run (argument args 0)
            [gathered, visit.1, .int visit.2, .list ref]) start s := by
  refine ⟨fun m among => ?_, fun v t ends => ?_, fun v t ends => ?_, fun start visits begins =>
    call_reduce_eq_foldlM callable begins⟩
  · cases traverses : m.traversal? ref args (s.items ref) with
    | some τ =>
      refine .inl ⟨τ, rfl, ?_, rows_of_traversal? traverses⟩
      rw [call_eq_perform callable traverses]
      exact τ.perform_ends callable s
    | none =>
      obtain ⟨rfl, missing, empty⟩ := traversal?_eq_none among traverses
      refine .inr ⟨rfl, missing, empty, ?_⟩
      rw [call_reduce callable, missing, empty]
      rfl
  · obtain ⟨answers, s', called, all, made⟩ := of_call_ok callable rfl unasked_ne ends
    obtain ⟨new, rfl, holds⟩ := items_of_newList made
    rw [calls_of_items rfl rfl] at called
    rw [List.length_zipIdx] at all
    refine ⟨new, s', rfl, ?_, ?_⟩
    · rw [holds, all]
    · rw [holds]
      exact called
  · obtain ⟨answers, s', called, all, made⟩ := of_call_ok callable rfl judged_ne ends
    obtain ⟨new, rfl, holds⟩ := items_of_newList made
    rw [calls_of_items rfl rfl] at called
    rw [List.length_zipIdx] at all
    refine ⟨new, answers, s', rfl, all, called, holds, ?_⟩
    rw [holds]
    exact keptAmong_sublist (Nat.le_of_eq all.symm)

/-- A list of two whose own method for adding items is called back gives two, though there are eight
in the list at the end. -/
theorem iterates_snapshot_of_push :
    (argument [.method 0 "push" (.list 0)] 0).isCallable = true
    ∧ ∃ new t, call (Task.runTo .bare 2) 0 [.method 0 "push" (.list 0)] .map
          (Store.empty.newList [.int 1, .int 2]).2 = .ok (.list new) t
      ∧ (t.items new).length = 2 ∧ (t.items 0).length = 8 := by
  have ends : ∃ t, call (Task.runTo .bare 2) 0 [.method 0 "push" (.list 0)] .map
      (Store.empty.newList [.int 1, .int 2]).2 = .ok (.list 1) t ∧ (t.items 0).length = 8 :=
    ⟨_, rfl, rfl⟩
  obtain ⟨t, ends, grown⟩ := ends
  obtain ⟨_, _, same, two, -⟩ := (iterates_snapshot (Task.runTo .bare 2) 0 [.method 0 "push" (.list 0)]
    (Store.empty.newList [.int 1, .int 2]).2 rfl).2.1 _ t ends
  cases same
  exact ⟨rfl, 1, t, ends, two, grown⟩

/-- An integer beyond all floats is neither true nor false to the host. -/
theorem truth_of_excessive {n : Int} (some : n ≠ 0)
    (excessive : (Demand.float n).isExcessive = true) :
    (Value.int n).truth = .error ⟨.float n, excessive⟩ := by
  have notZero : (Number.int n).isZero = false := beq_eq_false_iff_ne.mpr some
  show (if (Number.int n).isZero = true then .ok false else not <$> (Number.int n).isNaN) = _
  rw [notZero, if_neg nofun, Number.isNaN, Number.toFloat, floatOfInt, Demand.meet_of_excessive excessive]
  rfl

/-- A list of two, and another that has an integer for its only item. -/
def listsWith (n : Int) : Store :=
  ((Store.empty.newList [.int 1, .int 2]).2.newList [.int n]).2

/-- Where the first of them is filtered by taking the last item of the other, its second item is not
visited if the host cannot tell what the integer is worth. -/
theorem filter_of_truth_error {n : Int} {u : Unmet} (truth : (Value.int n).truth = .error u) :
    ∃ t, CalledBack (Task.runTo .bare 2) (.method 0 "pop" (.list 1)) (listsWith n)
        [([.int 1, .int 0, .list 0], .int n)] t
      ∧ call (Task.runTo .bare 2) 0 [.method 0 "pop" (.list 1)] .filter (listsWith n)
        = .error (.fault (.unmet u)) t := by
  refine ⟨_, .cons (v := .int n) rfl (.nil _), ?_⟩
  show (filterFrom (visitWith _ (.method 0 "pop" (.list 1)) (.list 0)) 0 [.int 1, .int 2]
    >>= Step.newList) _ = _
  have called : Step.invoke (Task.runTo .bare 2) (.method 0 "pop" (.list 1))
      [.int 1, .int 0, .list 0] (listsWith n) = .ok (.int n) _ := Step.invoke_of_ok rfl rfl
  exact Step.bind_of_error ((Step.bind_of_ok called).trans
    (Step.bind_of_error (Step.ofExcept_of_error truth)))

/-- So it is for an integer that is beyond all floats, though it decides nothing and no call was
interrupted. -/
theorem filter_of_excessive :
    ∃ u t, CalledBack (Task.runTo .bare 2) (.method 0 "pop" (.list 1)) (listsWith (twoTo 1100))
        [([.int 1, .int 0, .list 0], .int (twoTo 1100))] t
      ∧ call (Task.runTo .bare 2) 0 [.method 0 "pop" (.list 1)] .filter (listsWith (twoTo 1100))
        = .error (.fault (.unmet u)) t :=
  ⟨_, filter_of_truth_error (truth_of_excessive (by decide +kernel) (by decide +kernel))⟩

end ListMethod

end Scriptlet
