import Scriptlet.Method
import Scriptlet.Proofs.Contract.Method
import Scriptlet.Proofs.Unaware.Property

/-!
# Runners and builtin methods are unaware

A runner is *unaware* of what a veil hides if each task that it is given is, provided that the
task itself stays behind the veil: that its frame is within reach, its names may be used, and
what is handed to a function fits. This is all that anything knows of a runner, and it is what the
induction on depths hands down in the end.

A builtin method looks at the items of a list, at the entries of the object it belongs to, and at
the texts and numbers of its arguments. The methods that call back do so through the runner,
and the items that they go on with are those that they had read before.
-/

namespace Scriptlet

/-! ## Runners -/

/-- A runner that is **unaware** of what a veil hides. -/
structure Runner.Unaware (V : Veil) (run : Runner) : Prop where
  /-- Evaluating a node. -/
  eval {n : Node} {frame : FrameRef} {s : Store} (reached : .frame frame ∉ V.garbage)
    (speaks : V.Speaks n) : (run (.eval n frame)).Unaware V s V.Fits
  /-- Running a function of the program. -/
  activate {f : FunctionRef} {args : List Value} {receiver : Option Value} {constructs : Bool}
    {s : Store} (callee : V.Fits (.function f)) (arguments : ∀ v ∈ args, V.Fits v)
    (subject : ∀ v, receiver = some v → V.Fits v) :
    (run (.activate f args receiver constructs)).Unaware V s V.Fits
  /-- Calling a value as the host does. -/
  call {callee : Value} {args : List Value} {s : Store} (fits : V.Fits callee)
    (arguments : ∀ v ∈ args, V.Fits v) : (run (.call callee args)).Unaware V s V.Fits

/-- A host that is **unaware** of what a veil hides: each of its functions is, as long as the
runner that it is given is. -/
def Host.Unaware (V : Veil) (host : Host) : Prop :=
  ∀ f run args s, Runner.Unaware V run → (∀ v ∈ args, V.Fits v) →
    (host f run args).Unaware V s V.Fits

/-- A host without functions is unaware of everything. -/
theorem Host.bare_unaware (V : Veil) : Host.bare.Unaware V :=
  fun _ _ _ _ _ _ => .fault

namespace Step

variable {V : Veil} {s : Store} {run : Runner}

theorem invoke_unaware (hrun : run.Unaware V) {callee : Value} {args : List Value}
    (h : V.Fits callee) (hargs : ∀ v ∈ args, V.Fits v) :
    (Step.invoke run callee args).Unaware V s V.Fits := by
  unfold Step.invoke
  split
  · exact (hrun.activate h hargs (by simp)).map fun _ hv => Value.fits_orUndefined (.inr hv)
  · exact hrun.call h hargs
  · exact hrun.call h fun v hv => hargs v (List.mem_of_mem_take hv)
  · exact hrun.call h fun v hv => hargs v (List.mem_of_mem_take hv)
  · exact (display_unaware h).bind fun _ _ _ _ => .wrongType

theorem callValue_unaware (hrun : run.Unaware V) {callee : Value} {args : List Value}
    {receiver : Option Value} (h : V.Fits callee) (hargs : ∀ v ∈ args, V.Fits v)
    (hreceiver : ∀ v, receiver = some v → V.Fits v) :
    (Step.callValue run callee args receiver).Unaware V s V.Fits := by
  unfold Step.callValue
  split
  · exact hrun.activate h hargs hreceiver
  · exact hrun.call h hargs

theorem constructWith_unaware (hrun : run.Unaware V) {f : FunctionRef} {args : List Value}
    (h : V.Fits (.function f)) (hargs : ∀ v ∈ args, V.Fits v) :
    (Step.constructWith run f args).Unaware V s V.Fits := by
  refine (newObject_unaware (by simp)).bind fun ref _ _ hfresh => ?_
  refine (hrun.activate h hargs (by simpa using hfresh)).bind fun v _ _ hv => ?_
  split
  · exact .pure fun _ => hv
  · exact .pure fun _ => hv
  · exact .pure fun _ => hfresh

/-- **Calling a value as a constructor.** -/
theorem construct_unaware (hrun : run.Unaware V) {callee : Value} {args : List Value}
    (h : V.Fits callee) (hargs : ∀ v ∈ args, V.Fits v) :
    (Step.construct run callee args).Unaware V s V.Fits := by
  unfold Step.construct
  split
  · refine .get_bind (fun _ => rfl) fun _ => ?_
    split
    · exact constructWith_unaware hrun h hargs
    split
    · exact constructWith_unaware hrun h hargs
    · exact .wrongType
  · exact hrun.call h hargs
  · exact hrun.call h hargs
  · exact (display_unaware h).bind fun _ _ _ _ => .wrongType

/-- What a value spreads into fits if the value does. -/
theorem spread?_unaware {v : Value} (h : V.Fits v) :
    (Step.spread? v).Unaware V s fun o => ∀ vs, o = some vs → ∀ w ∈ vs, V.Fits w := by
  unfold Step.spread?
  split
  · exact .get_bind (fun _ => rfl) fun hs => .pure fun _ => by simpa using hs.items h
  · exact .pure fun _ => by simpa using Veil.fits_tuple.mp h
  · exact .pure fun _ => by simp
  · exact .pure fun _ => by simp

end Step

variable {V : Veil} {s : Store} {run : Runner}

/-! ## Sorting -/

/-- A question about order that is unaware, asked of what fits. -/
def Precedes.Unaware (V : Veil) (precedes : Precedes) : Prop :=
  ∀ a b s, V.Fits a → V.Fits b → (precedes a b).Unaware V s fun _ => True

section Sorting

variable {precedes : Precedes} (hp : precedes.Unaware V)
include hp

theorem takeRun_unaware {descending : Bool} {last : Value} {taken items : List Value}
    (hlast : V.Fits last) (htaken : ∀ v ∈ taken, V.Fits v) (h : ∀ v ∈ items, V.Fits v) :
    (takeRun precedes descending last taken items).Unaware V s fun split =>
      (∀ v ∈ split.1, V.Fits v) ∧ ∀ v ∈ split.2, V.Fits v := by
  induction items generalizing last taken s with
  | nil => exact .pure fun _ => ⟨htaken, by simp⟩
  | cons item rest ih =>
    have hitem : V.Fits item := h item List.mem_cons_self
    rw [takeRun]
    refine (hp item last s hitem hlast).bind fun answer _ _ _ => ?_
    split
    · exact ih hitem (by simpa using ⟨hitem, htaken⟩) fun v hv => h v (List.mem_cons_of_mem _ hv)
    · exact .pure fun _ => ⟨htaken, h⟩

theorem firstRun_unaware {items : List Value} (h : ∀ v ∈ items, V.Fits v) :
    (firstRun precedes items).Unaware V s fun split =>
      (∀ v ∈ split.1, V.Fits v) ∧ ∀ v ∈ split.2, V.Fits v := by
  unfold firstRun
  split
  · exact .pure fun _ => by simp
  · exact .pure fun _ => ⟨h, by simp⟩
  · rename_i first second rest
    have hfirst : V.Fits first := h first (by simp)
    have hsecond : V.Fits second := h second (by simp)
    refine (hp second first s hsecond hfirst).bind fun descending _ _ _ => ?_
    refine (takeRun_unaware hp hsecond (by simp [hfirst, hsecond])
      fun v hv => h v (by simp [hv])).bind fun split _ _ hsplit => .pure fun _ => ⟨?_, hsplit.2⟩
    split
    · exact hsplit.1
    · simpa using hsplit.1

theorem placeOf_unaware {sorted : List Value} {item : Value} (h : ∀ v ∈ sorted, V.Fits v)
    (hitem : V.Fits item) (low high : Nat) :
    ∀ s, (placeOf precedes sorted item low high).Unaware V s fun _ => True := by
  fun_induction placeOf precedes sorted item low high with
  | case1 low high hlt middle ih₁ ih₂ =>
    intro s
    refine (hp item _ s hitem (Value.fits_ofOption_getElem? h _)).bind fun before s' _ _ => ?_
    split
    · exact ih₁ s'
    · exact ih₂ s'
  | case2 low high hlt => exact fun s => .pure fun _ => trivial

theorem insertAll_unaware {sorted items : List Value} (hsorted : ∀ v ∈ sorted, V.Fits v)
    (h : ∀ v ∈ items, V.Fits v) :
    (insertAll precedes sorted items).Unaware V s fun vs => ∀ v ∈ vs, V.Fits v := by
  induction items generalizing sorted s with
  | nil => exact .pure fun _ => hsorted
  | cons item rest ih =>
    have hitem : V.Fits item := h item List.mem_cons_self
    rw [insertAll]
    refine (placeOf_unaware hp hsorted hitem 0 sorted.length s).bind fun place _ _ _ => ?_
    refine ih (fun v hv => ?_) fun v hv => h v (List.mem_cons_of_mem _ hv)
    rcases List.mem_append.mp hv with hv | hv
    · exact hsorted v (List.mem_of_mem_take hv)
    · rcases List.mem_cons.mp hv with rfl | hv
      · exact hitem
      · exact hsorted v (List.mem_of_mem_drop hv)

theorem sortBy_unaware {items : List Value} (h : ∀ v ∈ items, V.Fits v) :
    (sortBy precedes items).Unaware V s fun vs => ∀ v ∈ vs, V.Fits v :=
  (firstRun_unaware hp h).bind fun _ _ _ hsplit => insertAll_unaware hp hsplit.1 hsplit.2

end Sorting

/-! ## Lists -/

namespace ListMethod

/-- Visits that are unaware when they are made with items that fit, and give what fits. -/
def Visit.Unaware (V : Veil) (visit : Visit) : Prop :=
  ∀ item index s, V.Fits item → (visit item index).Unaware V s V.Fits

theorem visitWith_unaware (hrun : run.Unaware V) {callee list : Value} (h : V.Fits callee)
    (hlist : V.Fits list) : Visit.Unaware V (visitWith run callee list) :=
  fun _ _ _ hitem => Step.invoke_unaware hrun h (by simp [hitem, hlist])

section Visits

variable {visit : Visit} {items : List Value} (hv : visit.Unaware V)
  (h : ∀ v ∈ items, V.Fits v)
include hv h

theorem mapFrom_unaware (index : Nat) :
    (mapFrom visit index items).Unaware V s fun vs => ∀ v ∈ vs, V.Fits v := by
  induction items generalizing index s with
  | nil => exact .pure fun _ => by simp
  | cons item rest ih =>
    rw [mapFrom]
    refine (hv item index s (h item List.mem_cons_self)).bind fun v _ _ hv => ?_
    refine (ih (fun v hv => h v (List.mem_cons_of_mem _ hv)) (index + 1)).bind fun vs _ _ hvs => ?_
    exact .pure fun _ => List.forall_mem_cons.mpr ⟨hv, hvs⟩

theorem filterFrom_unaware (index : Nat) :
    (filterFrom visit index items).Unaware V s fun vs => ∀ v ∈ vs, V.Fits v := by
  induction items generalizing index s with
  | nil => exact .pure fun _ => by simp
  | cons item rest ih =>
    have hitem : V.Fits item := h item List.mem_cons_self
    rw [filterFrom]
    refine (hv item index s hitem).bind fun v _ _ _ => .ofExcept_bind fun keep _ => ?_
    refine (ih (fun v hv => h v (List.mem_cons_of_mem _ hv)) (index + 1)).bind fun vs _ _ hvs => ?_
    refine .pure fun _ => ?_
    split
    · exact List.forall_mem_cons.mpr ⟨hitem, hvs⟩
    · exact hvs

theorem forEachFrom_unaware (index : Nat) :
    (forEachFrom visit index items).Unaware V s fun _ => True := by
  induction items generalizing index s with
  | nil => exact .pure fun _ => trivial
  | cons item rest ih =>
    rw [forEachFrom]
    refine (hv item index s (h item List.mem_cons_self)).bind fun v _ _ _ => ?_
    exact ih (fun v hv => h v (List.mem_cons_of_mem _ hv)) (index + 1)

theorem findFrom_unaware {wanted : Bool} (index : Nat) :
    (findFrom visit wanted index items).Unaware V s fun found =>
      ∀ v i, found = some (v, i) → V.Fits v := by
  induction items generalizing index s with
  | nil => exact .pure fun _ => by simp
  | cons item rest ih =>
    have hitem : V.Fits item := h item List.mem_cons_self
    rw [findFrom]
    refine (hv item index s hitem).bind fun v _ _ _ => .ofExcept_bind fun truth _ => ?_
    split
    · refine .pure fun _ v i same => ?_
      obtain ⟨rfl, -⟩ : item = v ∧ index = i := by simpa using same
      exact hitem
    · exact ih (fun v hv => h v (List.mem_cons_of_mem _ hv)) (index + 1)

end Visits

theorem gatherFrom_unaware (hrun : run.Unaware V) {callee list gathered : Value}
    {items : List Value} (h : V.Fits callee) (hlist : V.Fits list) (hg : V.Fits gathered)
    (hitems : ∀ v ∈ items, V.Fits v) (index : Nat) :
    (gatherFrom run callee list gathered index items).Unaware V s V.Fits := by
  induction items generalizing gathered index s with
  | nil => exact .pure fun _ => hg
  | cons item rest ih =>
    have hitem : V.Fits item := hitems item List.mem_cons_self
    rw [gatherFrom]
    refine (Step.invoke_unaware hrun h (by simp [hg, hitem, hlist])).bind fun v _ _ hv => ?_
    exact ih hv (fun v hv => hitems v (List.mem_cons_of_mem _ hv)) (index + 1)

theorem gather_unaware (hrun : run.Unaware V) {callee list : Value} {start : Option Value}
    {items : List Value} (h : V.Fits callee) (hlist : V.Fits list)
    (hstart : ∀ v, start = some v → V.Fits v) (hitems : ∀ v ∈ items, V.Fits v) :
    (gather run callee list start items).Unaware V s V.Fits := by
  unfold gather
  split
  · exact gatherFrom_unaware hrun h hlist (hstart _ rfl) hitems 0
  · exact gatherFrom_unaware hrun h hlist (hitems _ List.mem_cons_self)
      (fun v hv => hitems v (List.mem_cons_of_mem _ hv)) 1
  · exact .wrongType

theorem concatenation_fits_behind (hs : V.Sound s) {values : List Value}
    (h : ∀ v ∈ values, V.Fits v) : ∀ v ∈ concatenation s values, V.Fits v := by
  intro v hv
  obtain ⟨w, hw, hv⟩ := List.mem_flatMap.mp hv
  split at hv
  · exact hs.items (h _ hw) v hv
  · obtain rfl : v = w := by simpa using hv
    exact h v hw

/-- Items are joined in the same way. -/
theorem joined_conceal (hs : V.Sound s) {separator : Value} {items : List Value}
    (h : V.Fits separator) (hitems : ∀ v ∈ items, V.Fits v) :
    joined (V.conceal s) separator items = joined s separator items := by
  have texts : (items.mapM fun item =>
        if item.isNullish then .ok [] else (V.conceal s).textOf item) =
      items.mapM fun item => if item.isNullish then .ok [] else s.textOf item :=
    mapM_congr_of_mem fun item hitem => by rw [hs.textOf_conceal (hitems item hitem)]
  simp only [joined, hs.textOf_conceal h, texts]

theorem spliceCount_conceal (hs : V.Sound s) {args : List Value} (h : ∀ v ∈ args, V.Fits v)
    (left : Nat) : spliceCount (V.conceal s) args left = spliceCount s args left := by
  simp only [spliceCount, hs.clampedOffset_conceal (argument_fits h 1)]

theorem callback_unaware {method : Text} {args : List Value} (h : ∀ v ∈ args, V.Fits v) :
    (Step.callback method args).Unaware V s V.Fits := by
  unfold Step.callback
  dsimp only
  split
  · exact .pure fun _ => argument_fits h 0
  · exact (Step.textOf_unaware (argument_fits h 0)).bind fun _ _ _ _ => .wrongType

theorem ordered_unaware (hrun : run.Unaware V) {comparator : Value} {items : List Value}
    (h : V.Fits comparator) (hitems : ∀ v ∈ items, V.Fits v) :
    (ordered run comparator items).Unaware V s fun vs => ∀ v ∈ vs, V.Fits v := by
  unfold ordered
  split
  · have keyed : ∀ item ∈ items, ∀ s, Step.Unaware V s (fun e => V.Fits e.2)
        (do return (← Step.textOf item, item)) := fun item hitem s =>
      (Step.textOf_unaware (hitems item hitem)).bind fun t _ _ _ => .pure fun _ => hitems item hitem
    refine (Step.Unaware.mapM keyed s).bind fun entries _ _ hentries => .pure fun _ v hv => ?_
    obtain ⟨key, hmem⟩ := mem_sortByKey.mp hv
    exact hentries (key, v) hmem
  · refine sortBy_unaware (fun a b s ha hb => ?_) hitems
    refine (Step.invoke_unaware hrun h (by simp [ha, hb])).bind fun v _ _ hv => ?_
    refine (Step.numberOf_unaware hv).bind fun n _ _ _ => .ofExcept_bind fun isNaN _ => ?_
    split
    · exact .pure fun _ => trivial
    · exact .pure fun _ => trivial

theorem sorted_unaware (hrun : run.Unaware V) {comparator : Value} {items : List Value}
    (h : V.Fits comparator) (hitems : ∀ v ∈ items, V.Fits v) :
    (sorted run comparator items).Unaware V s fun vs => ∀ v ∈ vs, V.Fits v := by
  have present : ∀ v ∈ items.filter (!·.isUndefined), V.Fits v :=
    fun v hv => hitems v (List.mem_filter.mp hv).1
  have missing : ∀ v ∈ items.filter (·.isUndefined), V.Fits v :=
    fun v hv => hitems v (List.mem_filter.mp hv).1
  exact (ordered_unaware hrun h present).bind fun vs _ _ hvs => .pure fun _ v hv =>
    (List.mem_append.mp hv).elim (hvs v) (missing v)

/-- **The methods of lists.** -/
theorem call_unaware (hrun : run.Unaware V) {ref : ListRef} {args : List Value} {m : ListMethod}
    (h : V.Fits (.list ref)) (hargs : ∀ v ∈ args, V.Fits v) :
    (ListMethod.call run ref args m).Unaware V s V.Fits := by
  have concatenated {values : List Value} :
      concatenation (V.conceal s) values = concatenation s values := rfl
  refine .get_bind (fun _ => by simp only [Veil.items_conceal, concatenated]) fun hs => ?_
  have hitems : ∀ v ∈ s.items ref, V.Fits v := hs.items h
  have write {items : List Value} {v : Value} {s : Store} (hitems : ∀ v ∈ items, V.Fits v)
      (hv : V.Fits v) : Step.Unaware V s V.Fits
        ((modify fun s => s.setItems ref items : Step Unit) >>= fun _ => pure v) :=
    (Step.setItems_unaware hitems).bind fun _ _ _ _ => .pure fun _ => hv
  have first := argument_fits hargs 0
  have second := argument_fits hargs 1
  cases m with
  | push =>
    exact write (fun v hv => (List.mem_append.mp hv).elim (hitems v) (hargs v)) (Value.fits_int _)
  | pop =>
    exact write (fun v hv => hitems v (List.dropLast_subset _ hv))
      (Value.fits_ofOption fun v hv => hitems v (List.mem_of_getLast? hv))
  | shift =>
    exact write (fun v hv => hitems v (List.mem_of_mem_drop hv))
      (Value.fits_ofOption fun v hv => hitems v (List.mem_of_head? hv))
  | unshift =>
    exact write (fun v hv => (List.mem_append.mp hv).elim (hargs v) (hitems v)) (Value.fits_int _)
  | slice =>
    refine .read_bind (fun hs => hs.relativeOffset_conceal first _ _) fun start _ => ?_
    refine .read_bind (fun hs => hs.relativeOffset_conceal second _ _) fun stop _ => ?_
    exact Step.newList_unaware fun v hv =>
      hitems v (List.mem_of_mem_drop (List.mem_of_mem_take hv))
  | splice =>
    refine .read_bind (fun hs => hs.relativeOffset_conceal first _ _) fun start _ => ?_
    refine .read_bind (fun hs => spliceCount_conceal hs hargs _) fun count _ => ?_
    refine (Step.newList_unaware fun v hv => ?_).bind fun result _ _ hresult =>
      write (fun v hv => ?_) hresult
    · exact hitems v (List.mem_of_mem_drop (List.mem_of_mem_take hv))
    · rcases List.mem_append.mp hv with hv | hv
      · rcases List.mem_append.mp hv with hv | hv
        · exact hitems v (List.mem_of_mem_take hv)
        · exact hargs v (List.mem_of_mem_drop hv)
      · exact hitems v (List.mem_of_mem_drop hv)
  | concat =>
    exact Step.newList_unaware
      (concatenation_fits_behind hs (List.forall_mem_cons.mpr ⟨h, hargs⟩))
  | join =>
    exact Step.Unaware.map (Q := fun _ => True)
      (.read (fun hs => joined_conceal hs first hitems) fun _ _ _ => trivial)
      fun t _ => Value.fits_text t
  | indexOf =>
    exact .read_bind (fun hs => hs.relativeOffset_conceal second _ _) fun start _ =>
      .pure fun _ => Value.fits_int _
  | includes =>
    exact Step.Unaware.map (Q := fun _ => True) (.ofExcept fun _ _ => trivial)
      fun b _ => Value.fits_bool b
  | reverse => exact write (by simpa using hitems) h
  | map =>
    refine (callback_unaware hargs).bind fun callee _ _ hc => ?_
    exact (mapFrom_unaware (visitWith_unaware hrun hc h) hitems 0).bind
      fun vs _ _ hvs => Step.newList_unaware hvs
  | filter =>
    refine (callback_unaware hargs).bind fun callee _ _ hc => ?_
    exact (filterFrom_unaware (visitWith_unaware hrun hc h) hitems 0).bind
      fun vs _ _ hvs => Step.newList_unaware hvs
  | forEach =>
    refine (callback_unaware hargs).bind fun callee _ _ hc => ?_
    exact (forEachFrom_unaware (visitWith_unaware hrun hc h) hitems 0).bind
      fun _ _ _ _ => .pure fun _ => Value.fits_undefined
  | reduce =>
    refine (callback_unaware hargs).bind fun callee _ _ hc => ?_
    exact gather_unaware hrun hc h (fun v hv => hargs v (List.mem_of_getElem? hv)) hitems
  | find =>
    refine (callback_unaware hargs).bind fun callee _ _ hc => ?_
    refine (findFrom_unaware (visitWith_unaware hrun hc h) hitems 0).bind fun found _ _ hf => ?_
    refine .pure fun _ => Value.fits_ofOption fun v hv => ?_
    obtain ⟨⟨w, i⟩, hfound, rfl⟩ := Option.map_eq_some_iff.mp hv
    exact hf w i hfound
  | findIndex =>
    refine (callback_unaware hargs).bind fun callee _ _ hc => ?_
    exact (findFrom_unaware (visitWith_unaware hrun hc h) hitems 0).bind
      fun _ _ _ _ => .pure fun _ => Value.fits_int _
  | any =>
    refine (callback_unaware hargs).bind fun callee _ _ hc => ?_
    exact (findFrom_unaware (visitWith_unaware hrun hc h) hitems 0).bind
      fun _ _ _ _ => .pure fun _ => Value.fits_bool _
  | all =>
    refine (callback_unaware hargs).bind fun callee _ _ hc => ?_
    exact (findFrom_unaware (visitWith_unaware hrun hc h) hitems 0).bind
      fun _ _ _ _ => .pure fun _ => Value.fits_bool _
  | sort =>
    exact (sorted_unaware hrun first hitems).bind fun vs _ _ hvs => write hvs h

end ListMethod

/-! ## Replacing -/

theorem replacement_unaware (hrun : run.Unaware V) {m : Match} {replacement : Value}
    (h : V.Fits replacement) : (m.replacement run replacement).Unaware V s fun _ => True := by
  unfold Match.replacement
  split
  · refine (Step.invoke_unaware hrun h ?_).bind fun v _ _ hv => Step.textOf_unaware hv
    simpa [or_imp, forall_and] using captureValues_fits m.captures
  · exact (Step.textOf_unaware h).bind fun t _ _ _ => .pure fun _ => trivial

theorem searched_unaware {pattern : Value} {all : Bool} (h : V.Fits pattern) :
    (searched pattern all).Unaware V s fun _ => True := by
  unfold searched
  split
  · split
    · exact .wrongType
    · exact .pure fun _ => trivial
  · exact (Step.textOf_unaware h).bind fun t _ _ _ => .pure fun _ => trivial

theorem replaceIn_unaware (hrun : run.Unaware V) {subject : Text} {args : List Value} {all : Bool}
    (h : ∀ v ∈ args, V.Fits v) : (replaceIn run subject args all).Unaware V s fun _ => True := by
  refine (searched_unaware (argument_fits h 0)).bind fun _ s' _ _ => ?_
  refine (Step.Unaware.mapM (H := fun _ => True) (fun m _ s => ?_) s').bind
    fun _ _ _ _ => .pure fun _ => trivial
  exact (replacement_unaware hrun (argument_fits h 1)).bind fun _ _ _ _ => .pure fun _ => trivial

/-! ## Texts -/

namespace TextMethod

theorem pieces_conceal (hs : V.Sound s) {t : Text} {separator : Value} (h : V.Fits separator) :
    pieces (V.conceal s) t separator = pieces s t separator := by
  cases separator <;> simp only [pieces, hs.textOf_conceal h]

theorem limited_conceal (hs : V.Sound s) {limit : Value} (h : V.Fits limit)
    (values : List Value) : limited (V.conceal s) limit values = limited s limit values := by
  simp only [limited, hs.extentOf_conceal h]

theorem padding_conceal (hs : V.Sound s) {t : Text} {args : List Value}
    (h : ∀ v ∈ args, V.Fits v) : padding (V.conceal s) t args = padding s t args := by
  simp only [padding, hs.extentOf_conceal (argument_fits h 0),
    hs.textOf_conceal (argument_fits h 1)]

theorem repeatedBy_unaware {t : Text} {times : Value} (h : V.Fits times) :
    (repeatedBy t times).Unaware V s fun _ => True := by
  have invalid (e : Extent) {s : Store} : Step.Unaware V s (fun _ => True)
      (do Step.wrongType ("Invalid count value: " ++ (← Step.ofExcept e.toNumber.display)) :
        Step Text) :=
    .ofExcept_bind fun shown _ => .wrongType
  refine .read_bind (fun hs => hs.extentOf_conceal h) fun e _ => ?_
  split
  · exact invalid e
  · refine .ofExcept_bind fun fits _ => ?_
    split
    · exact invalid e
    · exact .ofExcept fun _ _ => trivial

/-- **The methods of texts.** -/
theorem call_unaware (hrun : run.Unaware V) {t : Text} {args : List Value} {m : TextMethod}
    (hargs : ∀ v ∈ args, V.Fits v) : (TextMethod.call run t args m).Unaware V s V.Fits := by
  have text {step : Step Text} {s : Store} (h : step.Unaware V s fun _ => True) :
      Step.Unaware V s V.Fits (Value.text <$> step) := h.map fun t _ => Value.fits_text t
  have first := argument_fits hargs 0
  have second := argument_fits hargs 1
  cases m with
  | split =>
    refine .read_bind (fun hs => pieces_conceal hs first) fun values hvalues => ?_
    refine .read_bind (fun hs => limited_conceal hs second values) fun vs hvs => ?_
    exact Step.newList_unaware (limited_fits (pieces_fits hvalues) hvs)
  | toUpperCase | toLowerCase | trim | trimStart | trimEnd =>
    exact .pure fun _ => Value.fits_text _
  | includes | startsWith | endsWith =>
    exact .read_bind (fun hs => hs.clampedOffset_conceal second _ _) fun start _ =>
      (Step.textOf_unaware first).bind fun needle _ _ _ => .pure fun _ => Value.fits_bool _
  | indexOf =>
    exact .read_bind (fun hs => hs.clampedOffset_conceal second _ _) fun start _ =>
      (Step.textOf_unaware first).bind fun needle _ _ _ => .pure fun _ => Value.fits_int _
  | slice =>
    exact .read_bind (fun hs => hs.relativeOffset_conceal first _ _) fun start _ =>
      .read_bind (fun hs => hs.relativeOffset_conceal second _ _) fun stop _ =>
        .pure fun _ => Value.fits_text _
  | substring =>
    exact .read_bind (fun hs => hs.clampedOffset_conceal first _ _) fun start _ =>
      .read_bind (fun hs => hs.clampedOffset_conceal second _ _) fun stop _ =>
        .pure fun _ => Value.fits_text _
  | charAt =>
    exact .read_bind (fun hs => hs.extentOf_conceal first) fun e _ =>
      .pure fun _ => Value.fits_text _
  | charCodeAt =>
    refine .read_bind (fun hs => hs.extentOf_conceal first) fun e _ => ?_
    split
    · exact .pure fun _ => Value.fits_int _
    · exact .pure fun _ => Value.fits_float _
  | replace | replaceAll => exact text (replaceIn_unaware hrun hargs)
  | repeated => exact text (repeatedBy_unaware first)
  | padStart | padEnd =>
    exact .read_bind (fun hs => padding_conceal hs hargs) fun filled _ =>
      .pure fun _ => Value.fits_text _
  | concat =>
    refine (Step.Unaware.mapM (H := fun _ => True) (fun v hv s => ?_) s).bind
      fun texts _ _ _ => .pure fun _ => Value.fits_text _
    exact Step.textOf_unaware (hargs v hv)

end TextMethod

/-! ## Numbers, objects and regular expressions -/

namespace NumberMethod

theorem fixed_unaware {n : Number} {places : Value} (h : V.Fits places) :
    (fixed n places).Unaware V s fun _ => True := by
  refine .read_bind (fun hs => by rw [hs.extentOf_conceal h]) fun digits _ => ?_
  split
  · exact .wrongType
  · refine .ofExcept_bind fun x _ => ?_
    split
    · exact .pure fun _ => trivial
    · exact .pure fun _ => trivial

theorem baseOf_conceal (hs : V.Sound s) {base : Value} (h : V.Fits base) :
    baseOf (V.conceal s) base = baseOf s base := by
  simp only [baseOf, hs.extentOf_conceal h]

theorem inBase_unaware {n : Number} {base : Value} (h : V.Fits base) :
    (inBase n base).Unaware V s fun _ => True := by
  refine .read_bind (fun hs => baseOf_conceal hs h) fun radix _ => ?_
  split
  · exact .wrongType
  split
  · exact .ofExcept fun _ _ => trivial
  · refine .ofExcept_bind fun x _ => ?_
    split
    · exact .ofExcept fun _ _ => trivial
    split
    · exact .pure fun _ => trivial
    · exact .ofExcept fun _ _ => trivial

theorem call_unaware {n : Number} {args : List Value} {m : NumberMethod}
    (hargs : ∀ v ∈ args, V.Fits v) : (NumberMethod.call n args m).Unaware V s V.Fits := by
  cases m with
  | toFixed => exact (fixed_unaware (argument_fits hargs 0)).map fun t _ => Value.fits_text t
  | toRadix => exact (inBase_unaware (argument_fits hargs 0)).map fun t _ => Value.fits_text t

end NumberMethod

theorem ObjectMethod.call_unaware {ref : ObjectRef} {args : List Value} {m : ObjectMethod}
    (h : V.Fits (.object ref)) (hargs : ∀ v ∈ args, V.Fits v) :
    (ObjectMethod.call ref args m).Unaware V s V.Fits := by
  cases m with
  | hasOwnProperty =>
    refine .key_bind (argument_fits hargs 0) fun name => ?_
    exact .get_bind (fun _ => by simp only [Veil.entries_conceal_of_fits h])
      fun _ => .pure fun _ => Value.fits_bool _

theorem RegexpMethod.call_unaware {r : Regexp} {args : List Value} {m : RegexpMethod}
    (hargs : ∀ v ∈ args, V.Fits v) : (RegexpMethod.call r args m).Unaware V s V.Fits := by
  refine (Step.textOf_unaware (argument_fits hargs 0)).bind fun t _ _ _ => ?_
  cases m with
  | test => exact .pure fun _ => Value.fits_bool _
  | exec =>
    dsimp only
    split
    · exact .pure fun _ => Value.fits_null
    · exact Step.newList_unaware
        (List.forall_mem_cons.mpr ⟨Value.fits_text _, captureValues_fits _⟩)

/-! ## All methods -/

theorem Step.unknownMethod_unaware {α : Type} {P : α → Prop} {v : Value} {name : Text} :
    (Step.unknownMethod v name : Step α).Unaware V s P :=
  .get_bind (fun _ => by simp only [Veil.kindName_conceal]) fun _ => .error

/-- **A builtin method** of a value that fits. -/
theorem Step.callMethod_unaware (hrun : run.Unaware V) {v : Value} {name : Text}
    {args : List Value} (h : V.Fits v) (hargs : ∀ v ∈ args, V.Fits v) :
    (Step.callMethod run v name args).Unaware V s V.Fits := by
  have named {α : Type} {method : Option α} {call : α → Step Value}
      (h : ∀ m, (call m).Unaware V s V.Fits) :
      Step.Unaware V s V.Fits ((method.map call).getD (Step.unknownMethod v name)) := by
    cases method with
    | none => exact Step.unknownMethod_unaware
    | some m => exact h m
  unfold Step.callMethod
  cases v with
  | list ref => exact named fun m => ListMethod.call_unaware hrun h hargs
  | text t => exact named fun m => TextMethod.call_unaware hrun hargs
  | number n => exact named fun m => NumberMethod.call_unaware hargs
  | object ref => exact named fun m => ObjectMethod.call_unaware h hargs
  | regexp i r => exact named fun m => RegexpMethod.call_unaware hargs
  | _ => exact Step.unknownMethod_unaware

end Scriptlet
