import Scriptlet.Proofs.Unwinding.Evaluation

/-!
# Calling is composed

What is called is a function of the program, a builtin method or a function of the host.
The methods that call back, those that sort among them, hand on calls one after the
other; all the others make no use of the runner. What the functions of the host do is their
own affair, so they are left out here.
-/

namespace Scriptlet

variable {P : Node → Prop} {known : Set FrameRef}

/-! ## Methods that do not call back -/

namespace NumberMethod

theorem fixed_isOwn (n : Number) (places : Value) : (fixed n places).IsOwn P known := by
  refine .bind (.read _) fun digits => .ite (.wrongType _) (.bind (.ofExcept _) fun x => ?_)
  split <;> exact .pure _

theorem inBase_isOwn (n : Number) (base : Value) : (inBase n base).IsOwn P known := by
  refine .bind (.read _) fun radix => .ite (.wrongType _) (.ite (.ofExcept _) ?_)
  refine .bind (.ofExcept _) fun x => ?_
  split
  · exact .ofExcept _
  · exact .ite (.pure _) (.ofExcept _)

theorem call_isOwn (n : Number) (args : List Value) (m : NumberMethod) :
    (m.call n args).IsOwn P known := by
  cases m with
  | toFixed => exact .map (fixed_isOwn n _)
  | toRadix => exact .map (inBase_isOwn n _)

end NumberMethod

theorem ObjectMethod.call_isOwn (ref : ObjectRef) (args : List Value) (m : ObjectMethod) :
    (m.call ref args).IsOwn P known := by
  cases m
  exact .bind (.read _) fun _ => .bind .get fun _ => .pure _

theorem RegexpMethod.call_isOwn (r : Regexp) (args : List Value) (m : RegexpMethod) :
    (m.call r args).IsOwn P known := by
  refine (Step.textOf_isOwn _).bind fun t => ?_
  cases m with
  | test => exact .pure _
  | exec =>
    dsimp only
    split
    · exact .pure _
    · exact Step.newList_isOwn _

theorem TextMethod.repeatedBy_isOwn (t : Text) (times : Value) :
    (repeatedBy t times).IsOwn P known := by
  have invalid (e : Extent) : Step.IsOwn P known
      (do Step.wrongType ("Invalid count value: " ++ (← Step.ofExcept e.toNumber.display)) :
        Step Text) :=
    .bind (.ofExcept _) fun _ => .wrongType _
  refine .bind (.read _) fun e => .ite (invalid e) (.bind (.ofExcept _) fun fits => ?_)
  split
  · exact invalid e
  · exact .ofExcept _

theorem searched_isOwn (pattern : Value) (all : Bool) : (searched pattern all).IsOwn P known := by
  unfold searched
  split
  · exact .ite (.wrongType _) (.pure _)
  · exact (Step.textOf_isOwn _).bind fun _ => .pure _

theorem Step.callback_isOwn (method : Text) (args : List Value) :
    (callback method args).IsOwn P known :=
  .ite (.pure _) ((textOf_isOwn _).bind fun _ => .wrongType _)

/-! ## Sorting by questions -/

section Sorting

variable {hands : Task → Prop} {precedes : Runner → Precedes}

theorem takeRun_composed (h : ∀ a b, Composed P known hands fun run => precedes run a b)
    (descending : Bool) (last : Value) (taken items : List Value) :
    Composed P known hands fun run => takeRun (precedes run) descending last taken items := by
  induction items generalizing last taken with
  | nil => exact .pure _
  | cons item rest ih => exact .andThen (h item last) fun _ => .ite (ih _ _) (.pure _)

theorem firstRun_composed (h : ∀ a b, Composed P known hands fun run => precedes run a b)
    (items : List Value) : Composed P known hands fun run => firstRun (precedes run) items := by
  match items with
  | [] => exact .pure _
  | [item] => exact .pure _
  | first :: second :: rest =>
    exact .andThen (h second first) fun descending =>
      .andThen (takeRun_composed h descending second _ rest) fun _ => .pure _

/-- Halving asks one question and then goes on with one of the halves. -/
theorem placeOf_composed (h : ∀ a b, Composed P known hands fun run => precedes run a b)
    (sorted : List Value) (item : Value) (low high : Nat) :
    Composed P known hands fun run => placeOf (precedes run) sorted item low high := by
  induction hsize : high - low using Nat.strongRecOn generalizing low high with
  | _ size ih =>
    by_cases room : low < high
    · have halved (run : Runner) : placeOf (precedes run) sorted item low high = (do
          if ← precedes run item (Value.ofOption sorted[low + (high - low) / 2]?) then
            placeOf (precedes run) sorted item low (low + (high - low) / 2)
          else placeOf (precedes run) sorted item (low + (high - low) / 2 + 1) high) := by
        rw [placeOf, dif_pos room]
      rw [funext halved]
      exact .andThen (h item _) fun _ => .ite (ih _ (by omega) _ _ rfl) (ih _ (by omega) _ _ rfl)
    · have found (run : Runner) : placeOf (precedes run) sorted item low high = pure low := by
        rw [placeOf, dif_neg room]
      simp only [found]
      exact .pure _

theorem insertAll_composed (h : ∀ a b, Composed P known hands fun run => precedes run a b)
    (sorted items : List Value) :
    Composed P known hands fun run => insertAll (precedes run) sorted items := by
  induction items generalizing sorted with
  | nil => exact .pure _
  | cons item rest ih => exact .andThen (placeOf_composed h sorted item _ _) fun _ => ih _

/-- **Sorting** hands on what its questions hand on. -/
theorem sortBy_composed (h : ∀ a b, Composed P known hands fun run => precedes run a b)
    (items : List Value) : Composed P known hands fun run => sortBy (precedes run) items :=
  .andThen (firstRun_composed h items) fun _ => insertAll_composed h _ _

end Sorting

/-! ## Methods of lists -/

namespace ListMethod

section Visits

variable {hands : Task → Prop} {visit : Runner → Visit}

theorem mapFrom_composed (h : ∀ item index, Composed P known hands fun run => visit run item index)
    (index : Nat) (items : List Value) :
    Composed P known hands fun run => mapFrom (visit run) index items := by
  induction items generalizing index with
  | nil => exact .pure _
  | cons item rest ih => exact .andThen (h item index) fun _ => .andThen (ih _) fun _ => .pure _

theorem filterFrom_composed
    (h : ∀ item index, Composed P known hands fun run => visit run item index)
    (index : Nat) (items : List Value) :
    Composed P known hands fun run => filterFrom (visit run) index items := by
  induction items generalizing index with
  | nil => exact .pure _
  | cons item rest ih =>
    exact .andThen (h item index) fun _ => .after (.ofExcept _) fun _ =>
      .andThen (ih _) fun _ => .pure _

theorem forEachFrom_composed
    (h : ∀ item index, Composed P known hands fun run => visit run item index)
    (index : Nat) (items : List Value) :
    Composed P known hands fun run => forEachFrom (visit run) index items := by
  induction items generalizing index with
  | nil => exact .pure _
  | cons item rest ih => exact .andThen (h item index) fun _ => ih _

theorem findFrom_composed (h : ∀ item index, Composed P known hands fun run => visit run item index)
    (wanted : Bool) (index : Nat) (items : List Value) :
    Composed P known hands fun run => findFrom (visit run) wanted index items := by
  induction items generalizing index with
  | nil => exact .pure _
  | cons item rest ih =>
    exact .andThen (h item index) fun _ => .after (.ofExcept _) fun _ => .ite (.pure _) (ih _)

end Visits

theorem visitWith_composed (callee list item : Value) (index : Nat) :
    Composed P known Task.IsCall fun run => visitWith run callee list item index :=
  Step.invoke_composed callee _

theorem gatherFrom_composed (callee list gathered : Value) (index : Nat) (items : List Value) :
    Composed P known Task.IsCall fun run => gatherFrom run callee list gathered index items := by
  induction items generalizing gathered index with
  | nil => exact .pure _
  | cons item rest ih => exact .andThen (Step.invoke_composed callee _) fun _ => ih _ _

theorem gather_composed (callee list : Value) (start : Option Value) (items : List Value) :
    Composed P known Task.IsCall fun run => gather run callee list start items := by
  cases start with
  | some v => exact gatherFrom_composed callee list v 0 items
  | none =>
    cases items with
    | nil => exact .own (.wrongType _)
    | cons item rest => exact gatherFrom_composed callee list item 1 rest

theorem ordered_composed (comparator : Value) (items : List Value) :
    Composed P known Task.IsCall fun run => ordered run comparator items := by
  refine .ite (.own ?_) (sortBy_composed (fun a b => ?_) items)
  · exact .bind (.mapM (fun item => (Step.textOf_isOwn item).bind fun _ => .pure _) items)
      fun _ => .pure _
  · exact .andThen (Step.invoke_composed comparator _) fun v =>
      .own ((Step.numberOf_isOwn v).bind fun _ => .bind (.ofExcept _) fun _ =>
        .ite (.pure _) (.pure _))

theorem sorted_composed (comparator : Value) (items : List Value) :
    Composed P known Task.IsCall fun run => sorted run comparator items :=
  .andThen (ordered_composed comparator _) fun _ => .pure _

/-- **The methods of lists.** -/
theorem call_composed (ref : ListRef) (args : List Value) (m : ListMethod) :
    Composed P known Task.IsCall fun run => m.call run ref args := by
  refine .after .get fun s => ?_
  have write (items : List Value) (v : Value) : Step.IsOwn P known
      ((modify fun s => s.setItems ref items : Step Unit) >>= fun _ => pure v) :=
    .bind (.changeElsewhere fun _ =>
      ⟨rfl, rfl, .of_eq rfl, Nat.le_of_eq Array.size_setIfInBounds.symm⟩) fun _ => .pure v
  cases m with
  | push | pop | shift | unshift | reverse => exact .own (write _ _)
  | slice =>
    exact .own (.bind (.read _) fun _ => .bind (.read _) fun _ => Step.newList_isOwn _)
  | splice =>
    exact .own (.bind (.read _) fun _ => .bind (.read _) fun _ =>
      (Step.newList_isOwn _).bind fun _ => write _ _)
  | concat => exact .own (Step.newList_isOwn _)
  | join => exact .own (.map (.read _))
  | indexOf => exact .own (.bind (.read _) fun _ => .pure _)
  | includes => exact .own (.map (.ofExcept _))
  | map =>
    exact .after (Step.callback_isOwn _ args) fun callee =>
      .andThen (mapFrom_composed (visitWith_composed callee _) 0 _) fun items =>
        .own (Step.newList_isOwn items)
  | filter =>
    exact .after (Step.callback_isOwn _ args) fun callee =>
      .andThen (filterFrom_composed (visitWith_composed callee _) 0 _) fun items =>
        .own (Step.newList_isOwn items)
  | forEach =>
    exact .after (Step.callback_isOwn _ args) fun callee =>
      .andThen (forEachFrom_composed (visitWith_composed callee _) 0 _) fun _ => .pure _
  | reduce =>
    exact .after (Step.callback_isOwn _ args) fun callee => gather_composed callee _ _ _
  | find | findIndex | any | all =>
    exact .after (Step.callback_isOwn _ args) fun callee =>
      .andThen (findFrom_composed (visitWith_composed callee _) _ 0 _) fun _ => .pure _
  | sort => exact .andThen (sorted_composed _ _) fun _ => .own (write _ _)

end ListMethod

/-! ## Methods of texts -/

theorem Match.replacement_composed (m : Match) (replacement : Value) :
    Composed P known Task.IsCall fun run => m.replacement run replacement :=
  .ite (.andThen (Step.invoke_composed replacement _) fun _ => .own (Step.textOf_isOwn _))
    (.own ((Step.textOf_isOwn replacement).bind fun _ => .pure _))

theorem replaceIn_composed (subject : Text) (args : List Value) (all : Bool) :
    Composed P known Task.IsCall fun run => replaceIn run subject args all :=
  .after (searched_isOwn _ all) fun _ =>
    .andThen (.mapM (fun m => .andThen (m.replacement_composed _) fun _ => .pure _) _)
      fun _ => .pure _

/-- **The methods of texts.** -/
theorem TextMethod.call_composed (t : Text) (args : List Value) (m : TextMethod) :
    Composed P known Task.IsCall fun run => m.call run t args := by
  cases m with
  | split =>
    exact .own (.bind (.read _) fun _ => .bind (.read _) fun _ => Step.newList_isOwn _)
  | toUpperCase | toLowerCase | trim | trimStart | trimEnd => exact .pure _
  | includes | indexOf | startsWith | endsWith =>
    exact .own (.bind (.read _) fun _ => (Step.textOf_isOwn _).bind fun _ => .pure _)
  | slice | substring => exact .own (.bind (.read _) fun _ => .bind (.read _) fun _ => .pure _)
  | charAt => exact .own (.bind (.read _) fun _ => .pure _)
  | charCodeAt =>
    refine .own (.bind (.read _) fun e => ?_)
    split <;> exact .pure _
  | replace | replaceAll => exact .map (replaceIn_composed t args _)
  | repeated => exact .own (.map (repeatedBy_isOwn t _))
  | padStart | padEnd => exact .own (.bind (.read _) fun _ => .pure _)
  | concat => exact .own (.bind (.mapM Step.textOf_isOwn args) fun _ => .pure _)

/-! ## All methods -/

/-- A method that is looked up by its name, if there is one. -/
theorem Composed.method {Method : Type} {hands : Task → Prop} (found : Option Method)
    {call : Method → Runner → Step α} {unknown : Step α} (h : ∀ m, Composed P known hands (call m))
    (none : unknown.IsOwn P known) :
    Composed P known hands fun run => (found.map (call · run)).getD unknown := by
  cases found with
  | none => exact .own none
  | some m => exact h m

/-- **Calling a builtin method** hands on calls. -/
theorem Step.callMethod_composed (v : Value) (name : Text) (args : List Value) :
    Composed P known Task.IsCall fun run => callMethod run v name args := by
  have unknown : (unknownMethod v name : Step Value).IsOwn P known := unknownMethod_isOwn v name
  cases v with
  | list ref => exact .method _ (ListMethod.call_composed ref args) unknown
  | text t => exact .method _ (TextMethod.call_composed t args) unknown
  | number n => exact .method _ (fun m => .own (m.call_isOwn n args)) unknown
  | object ref => exact .method _ (fun m => .own (m.call_isOwn ref args)) unknown
  | regexp _ r => exact .method _ (fun m => .own (m.call_isOwn r args)) unknown
  | _ => exact .own unknown

/-! ## Calls of the host -/

/-- **Calling a value as the host does** hands on calls, unless it is a call of a function of the
host. -/
theorem Walk.hostCall_composed (host : Host) {callee : Value} {args : List Value}
    (own : (Task.call callee args).hostCall? = none) :
    Composed P known Task.IsCall fun run => hostCall host run callee args := by
  cases callee with
  | function f => exact .map (.task trivial)
  | method _ name subject => exact Step.callMethod_composed subject name args
  | native | hostMethod => cases own
  | _ => exact .own (.fault _)

end Scriptlet
