import Scriptlet.Method
import Scriptlet.Proofs.Contract.Call

/-!
# Builtin methods obey

Whatever a builtin method stores or gives consists of the items of a list, of its
arguments, of what callbacks give, and of new texts, numbers, truth values and lists.
The methods that call back do so through the runner; a failure of the callback has
become undefined by then.
-/

namespace Scriptlet

variable {R : Regime} {may : Prop} {s : Store} {run : Runner}

/-! ## Sorting -/

/-- A question about order that may be asked of what fits. -/
def Precedes.Obeys (R : Regime) (may : Prop) (precedes : Precedes) : Prop :=
  ∀ a b s, a.Fits R → b.Fits R → (precedes a b).Obeys R may s fun _ _ => True

theorem takeRun_obeys {precedes : Precedes} (hp : precedes.Obeys R may) {descending : Bool}
    {last : Value} {taken items : List Value} (hlast : last.Fits R)
    (htaken : ∀ v ∈ taken, v.Fits R) (h : ∀ v ∈ items, v.Fits R) :
    (takeRun precedes descending last taken items).Obeys R may s fun split _ =>
      (∀ v ∈ split.1, v.Fits R) ∧ ∀ v ∈ split.2, v.Fits R := by
  induction items generalizing last taken s with
  | nil => exact .pure fun _ => ⟨htaken, by simp⟩
  | cons item rest ih =>
    have hitem : item.Fits R := h item List.mem_cons_self
    have hrest : ∀ v ∈ rest, v.Fits R := fun v hv => h v (List.mem_cons_of_mem _ hv)
    rw [takeRun]
    refine (hp item last s hitem hlast).bind fun answer s' _ _ => ?_
    split
    · exact ih hitem (by simpa using ⟨hitem, htaken⟩) hrest
    · exact .pure fun _ => ⟨htaken, h⟩

theorem firstRun_obeys {precedes : Precedes} (hp : precedes.Obeys R may) {items : List Value}
    (h : ∀ v ∈ items, v.Fits R) :
    (firstRun precedes items).Obeys R may s fun split _ =>
      (∀ v ∈ split.1, v.Fits R) ∧ ∀ v ∈ split.2, v.Fits R := by
  unfold firstRun
  split
  · exact .pure fun _ => by simp
  · exact .pure fun _ => ⟨h, by simp⟩
  · rename_i first second rest
    have hfirst : first.Fits R := h first (by simp)
    have hsecond : second.Fits R := h second (by simp)
    refine (hp second first s hsecond hfirst).bind fun descending s' _ _ => ?_
    refine (takeRun_obeys hp hsecond (by simp [hfirst, hsecond])
      fun v hv => h v (by simp [hv])).bind fun split s'' _ hsplit => ?_
    refine .pure fun _ => ⟨?_, hsplit.2⟩
    split
    · exact hsplit.1
    · simpa using hsplit.1

theorem placeOf_obeys {precedes : Precedes} (hp : precedes.Obeys R may) {sorted : List Value}
    {item : Value} (h : ∀ v ∈ sorted, v.Fits R) (hitem : item.Fits R) (low high : Nat) :
    ∀ s, (placeOf precedes sorted item low high).Obeys R may s fun _ _ => True := by
  fun_induction placeOf precedes sorted item low high with
  | case1 low high hlt middle ih₁ ih₂ =>
    intro s
    refine (hp item _ s hitem (Value.fits_ofOption_getElem? h _)).bind fun before s' _ _ => ?_
    split
    · exact ih₁ s'
    · exact ih₂ s'
  | case2 low high hlt => exact fun s => .pure fun _ => trivial

theorem insertAll_obeys {precedes : Precedes} (hp : precedes.Obeys R may)
    {sorted items : List Value} (hsorted : ∀ v ∈ sorted, v.Fits R) (h : ∀ v ∈ items, v.Fits R) :
    (insertAll precedes sorted items).Obeys R may s R.FittingAll := by
  induction items generalizing sorted s with
  | nil => exact .pure fun _ => hsorted
  | cons item rest ih =>
    have hitem : item.Fits R := h item List.mem_cons_self
    rw [insertAll]
    refine (placeOf_obeys hp hsorted hitem 0 sorted.length s).bind fun place s' _ _ => ?_
    refine ih (fun v hv => ?_) fun v hv => h v (List.mem_cons_of_mem _ hv)
    rcases List.mem_append.mp hv with hv | hv
    · exact hsorted v (List.mem_of_mem_take hv)
    · rcases List.mem_cons.mp hv with rfl | hv
      · exact hitem
      · exact hsorted v (List.mem_of_mem_drop hv)

theorem sortBy_obeys {precedes : Precedes} (hp : precedes.Obeys R may) {items : List Value}
    (h : ∀ v ∈ items, v.Fits R) : (sortBy precedes items).Obeys R may s R.FittingAll :=
  (firstRun_obeys hp h).bind fun _ _ _ hsplit => insertAll_obeys hp hsplit.1 hsplit.2

/-- Sorting by keys only moves items. -/
theorem mem_sortByKey {items : List (Text × Value)} {v : Value} :
    v ∈ sortByKey items ↔ ∃ key, (key, v) ∈ items := by
  simp [sortByKey, (List.mergeSort_perm items _).mem_iff]

/-! ## Lists -/

namespace ListMethod

/-- Visits that may be made with items that fit, and give what fits. -/
def Visit.Obeys (R : Regime) (may : Prop) (visit : Visit) : Prop :=
  ∀ item index s, item.Fits R → (visit item index).Obeys R may s R.Fitting

theorem visitWith_obeys (hrun : run.Keeps R) {callee list : Value} (h : callee.Fits R)
    (hlist : list.Fits R) : Visit.Obeys R (¬ R.shaped) (visitWith run callee list) :=
  fun item index s hitem => Step.invoke_obeys hrun h (by simp [hitem, hlist])

section Visits

variable {visit : Visit} {items : List Value}

theorem mapFrom_obeys (hv : visit.Obeys R may) (h : ∀ v ∈ items, v.Fits R) (index : Nat) :
    (mapFrom visit index items).Obeys R may s R.FittingAll := by
  induction items generalizing index s with
  | nil => exact .pure fun _ => by simp [Regime.FittingAll]
  | cons item rest ih =>
    rw [mapFrom]
    refine (hv item index s (h item List.mem_cons_self)).bind fun v s' _ hv => ?_
    refine (ih (fun v hv => h v (List.mem_cons_of_mem _ hv)) (index + 1)).bind fun vs _ _ hvs => ?_
    exact .pure fun _ => List.forall_mem_cons.mpr ⟨hv, hvs⟩

theorem filterFrom_obeys (hv : visit.Obeys R may) (h : ∀ v ∈ items, v.Fits R) (index : Nat) :
    (filterFrom visit index items).Obeys R may s R.FittingAll := by
  induction items generalizing index s with
  | nil => exact .pure fun _ => by simp [Regime.FittingAll]
  | cons item rest ih =>
    have hitem : item.Fits R := h item List.mem_cons_self
    rw [filterFrom]
    refine (hv item index s hitem).bind fun v s' _ _ => Step.Obeys.ofExcept_bind fun keep _ => ?_
    refine (ih (fun v hv => h v (List.mem_cons_of_mem _ hv)) (index + 1)).bind fun vs _ _ hvs => ?_
    refine .pure fun _ => ?_
    split
    · exact List.forall_mem_cons.mpr ⟨hitem, hvs⟩
    · exact hvs

theorem forEachFrom_obeys (hv : visit.Obeys R may) (h : ∀ v ∈ items, v.Fits R) (index : Nat) :
    (forEachFrom visit index items).Obeys R may s fun _ _ => True := by
  induction items generalizing index s with
  | nil => exact .pure fun _ => trivial
  | cons item rest ih =>
    rw [forEachFrom]
    refine (hv item index s (h item List.mem_cons_self)).bind fun v s' _ _ => ?_
    exact ih (fun v hv => h v (List.mem_cons_of_mem _ hv)) (index + 1)

theorem findFrom_obeys (hv : visit.Obeys R may) {wanted : Bool} (h : ∀ v ∈ items, v.Fits R)
    (index : Nat) :
    (findFrom visit wanted index items).Obeys R may s fun found _ =>
      ∀ v i, found = some (v, i) → v.Fits R := by
  induction items generalizing index s with
  | nil => exact .pure fun _ => by simp
  | cons item rest ih =>
    have hitem : item.Fits R := h item List.mem_cons_self
    rw [findFrom]
    refine (hv item index s hitem).bind fun v s' _ _ => Step.Obeys.ofExcept_bind fun truth _ => ?_
    split
    · refine .pure fun _ v i same => ?_
      obtain ⟨rfl, -⟩ : item = v ∧ index = i := by simpa using same
      exact hitem
    · exact ih (fun v hv => h v (List.mem_cons_of_mem _ hv)) (index + 1)

end Visits

theorem gatherFrom_obeys (hrun : run.Keeps R) {callee list gathered : Value}
    {items : List Value} (h : callee.Fits R) (hlist : list.Fits R) (hg : gathered.Fits R)
    (hitems : ∀ v ∈ items, v.Fits R) (index : Nat) :
    (gatherFrom run callee list gathered index items).Obeys R (¬ R.shaped) s R.Fitting := by
  induction items generalizing gathered index s with
  | nil => exact .pure fun _ => hg
  | cons item rest ih =>
    have hitem : item.Fits R := hitems item List.mem_cons_self
    rw [gatherFrom]
    refine (Step.invoke_obeys hrun h (by simp [hg, hitem, hlist])).bind fun v s' _ hv => ?_
    exact ih hv (fun v hv => hitems v (List.mem_cons_of_mem _ hv)) (index + 1)

theorem gather_obeys (hrun : run.Keeps R) {callee list : Value} {start : Option Value}
    {items : List Value} (h : callee.Fits R) (hlist : list.Fits R)
    (hstart : ∀ v, start = some v → v.Fits R) (hitems : ∀ v ∈ items, v.Fits R) :
    (gather run callee list start items).Obeys R (¬ R.shaped) s R.Fitting := by
  unfold gather
  split
  · exact gatherFrom_obeys hrun h hlist (hstart _ rfl) hitems 0
  · exact gatherFrom_obeys hrun h hlist (hitems _ List.mem_cons_self)
      (fun v hv => hitems v (List.mem_cons_of_mem _ hv)) 1
  · exact .wrongType

/-- What is concatenated are the values themselves and the items of lists. -/
theorem concatenation_fits (hs : R.Sound s) {values : List Value} (h : ∀ v ∈ values, v.Fits R) :
    ∀ v ∈ concatenation s values, v.Fits R := by
  intro v hv
  obtain ⟨w, hw, hv⟩ := List.mem_flatMap.mp hv
  split at hv
  · exact hs.items (h _ hw) v hv
  · obtain rfl : v = w := by simpa using hv
    exact h v hw

theorem callback_obeys {method : Text} {args : List Value} (h : ∀ v ∈ args, v.Fits R) :
    (Step.callback method args).Obeys R may s R.Fitting := by
  unfold Step.callback
  dsimp only
  split
  · exact .pure fun _ => argument_fits h 0
  · exact Step.Obeys.read_bind fun shown _ => .wrongType

/-- Whatever order a callback gives, the items stay the same. -/
theorem ordered_obeys (hrun : run.Keeps R) {comparator : Value} {items : List Value}
    (h : comparator.Fits R) (hitems : ∀ v ∈ items, v.Fits R) :
    (ordered run comparator items).Obeys R (¬ R.shaped) s R.FittingAll := by
  unfold ordered
  split
  · have keyed : ∀ item ∈ items, ∀ s, Step.Obeys R (¬ R.shaped) s (fun e _ => e.2.Fits R)
        (do return (← Step.textOf item, item)) := fun item hitem s =>
      Step.Obeys.read_bind fun t _ => .pure fun _ => hitems item hitem
    refine (Step.Obeys.mapM keyed s).bind fun entries s' _ hentries => .pure fun _ v hv => ?_
    obtain ⟨key, hmem⟩ := mem_sortByKey.mp hv
    exact hentries (key, v) hmem
  · refine sortBy_obeys (fun a b s ha hb => ?_) hitems
    refine (Step.invoke_obeys hrun h (by simp [ha, hb])).bind fun v s' _ _ => ?_
    refine Step.Obeys.read_bind fun n _ => Step.Obeys.ofExcept_bind fun isNaN _ => ?_
    split
    · exact .pure fun _ => trivial
    · exact .pure fun _ => trivial

theorem sorted_obeys (hrun : run.Keeps R) {comparator : Value} {items : List Value}
    (h : comparator.Fits R) (hitems : ∀ v ∈ items, v.Fits R) :
    (sorted run comparator items).Obeys R (¬ R.shaped) s R.FittingAll := by
  have present : ∀ v ∈ items.filter (!·.isUndefined), v.Fits R :=
    fun v hv => hitems v (List.mem_filter.mp hv).1
  have missing : ∀ v ∈ items.filter (·.isUndefined), v.Fits R :=
    fun v hv => hitems v (List.mem_filter.mp hv).1
  exact (ordered_obeys hrun h present).bind fun vs s' _ hvs => .pure fun _ v hv =>
    (List.mem_append.mp hv).elim (hvs v) (missing v)

/-- **The methods of lists.** -/
theorem call_obeys (hrun : run.Keeps R) {ref : ListRef} {args : List Value} {m : ListMethod}
    (h : (Value.list ref).Fits R) (hargs : ∀ v ∈ args, v.Fits R) :
    (ListMethod.call run ref args m).Obeys R (¬ R.shaped) s R.Fitting := by
  refine .get_bind fun hs => ?_
  have hitems : ∀ v ∈ s.items ref, v.Fits R := hs.items h
  have write {items : List Value} {v : Value} {s : Store} (hitems : ∀ v ∈ items, v.Fits R)
      (hv : v.Fits R) : Step.Obeys R (¬ R.shaped) s R.Fitting
        ((modify fun s => s.setItems ref items : Step Unit) >>= fun _ => pure v) :=
    .change_bind (fun hs => hs.setItems hitems) (.pure fun _ => hv)
  cases m with
  | push =>
    exact write (fun v hv => (List.mem_append.mp hv).elim (hitems v) (hargs v)) (Value.fits_int _)
  | pop =>
    exact write (fun v hv => hitems v (List.dropLast_subset _ hv))
      (Value.fits_ofOption fun v hv => hitems v (List.mem_of_getLast? hv))
  | shift =>
    exact write (fun v hv => hitems v (List.mem_of_mem_drop hv))
      (Value.fits_ofOption fun v hv => hitems v (List.mem_of_head? hv))
  | unshift =>
    exact write (fun v hv => (List.mem_append.mp hv).elim (hargs v) (hitems v)) (Value.fits_int _)
  | slice =>
    refine Step.Obeys.read_bind fun start _ => Step.Obeys.read_bind fun stop _ => ?_
    exact Step.newList_obeys fun v hv =>
      hitems v (List.mem_of_mem_drop (List.mem_of_mem_take hv))
  | splice =>
    refine Step.Obeys.read_bind fun start _ => Step.Obeys.read_bind fun count _ => ?_
    refine (Step.newList_obeys fun v hv => ?_).bind fun result s' _ hresult =>
      write (fun v hv => ?_) hresult
    · exact hitems v (List.mem_of_mem_drop (List.mem_of_mem_take hv))
    · rcases List.mem_append.mp hv with hv | hv
      · rcases List.mem_append.mp hv with hv | hv
        · exact hitems v (List.mem_of_mem_take hv)
        · exact hargs v (List.mem_of_mem_drop hv)
      · exact hitems v (List.mem_of_mem_drop hv)
  | concat =>
    exact Step.newList_obeys (concatenation_fits hs (List.forall_mem_cons.mpr ⟨h, hargs⟩))
  | join => exact Step.Obeys.map (Q := fun _ _ => True) (.read fun _ _ _ => trivial) fun t _ _ _ => Value.fits_text t
  | indexOf =>
    exact Step.Obeys.read_bind fun start _ => .pure fun _ => Value.fits_int _
  | includes =>
    exact Step.Obeys.map (Q := fun _ _ => True) (.ofExcept fun _ _ _ => trivial) fun b _ _ _ => Value.fits_bool b
  | reverse => exact write (by simpa using hitems) h
  | map =>
    refine (callback_obeys hargs).bind fun callee _ _ hc => ?_
    exact (mapFrom_obeys (visitWith_obeys hrun hc h) hitems 0).bind
      fun vs _ _ hvs => Step.newList_obeys hvs
  | filter =>
    refine (callback_obeys hargs).bind fun callee _ _ hc => ?_
    exact (filterFrom_obeys (visitWith_obeys hrun hc h) hitems 0).bind
      fun vs _ _ hvs => Step.newList_obeys hvs
  | forEach =>
    refine (callback_obeys hargs).bind fun callee _ _ hc => ?_
    exact (forEachFrom_obeys (visitWith_obeys hrun hc h) hitems 0).bind
      fun _ _ _ _ => .pure fun _ => Value.fits_undefined
  | reduce =>
    refine (callback_obeys hargs).bind fun callee _ _ hc => ?_
    exact gather_obeys hrun hc h (fun v hv => hargs v (List.mem_of_getElem? hv)) hitems
  | find =>
    refine (callback_obeys hargs).bind fun callee _ _ hc => ?_
    refine (findFrom_obeys (visitWith_obeys hrun hc h) hitems 0).bind fun found _ _ hf => ?_
    refine .pure fun _ => Value.fits_ofOption fun v hv => ?_
    obtain ⟨⟨w, i⟩, hfound, rfl⟩ := Option.map_eq_some_iff.mp hv
    exact hf w i hfound
  | findIndex =>
    refine (callback_obeys hargs).bind fun callee _ _ hc => ?_
    exact (findFrom_obeys (visitWith_obeys hrun hc h) hitems 0).bind
      fun _ _ _ _ => .pure fun _ => Value.fits_int _
  | any =>
    refine (callback_obeys hargs).bind fun callee _ _ hc => ?_
    exact (findFrom_obeys (visitWith_obeys hrun hc h) hitems 0).bind
      fun _ _ _ _ => .pure fun _ => Value.fits_bool _
  | all =>
    refine (callback_obeys hargs).bind fun callee _ _ hc => ?_
    exact (findFrom_obeys (visitWith_obeys hrun hc h) hitems 0).bind
      fun _ _ _ _ => .pure fun _ => Value.fits_bool _
  | sort =>
    exact (sorted_obeys hrun (argument_fits hargs 0) hitems).bind
      fun vs _ _ hvs => write hvs h

end ListMethod

/-! ## Replacing -/

theorem captureValues_fits (captures : List (Option Text)) :
    ∀ v ∈ captureValues captures, v.Fits R := by
  intro v hv
  obtain ⟨capture, -, rfl⟩ := List.mem_map.mp hv
  cases capture with
  | none => exact Value.fits_undefined
  | some t => exact Value.fits_text t

theorem replacement_obeys (hrun : run.Keeps R) {m : Match} {replacement : Value}
    (h : replacement.Fits R) :
    (m.replacement run replacement).Obeys R (¬ R.shaped) s fun _ _ => True := by
  unfold Match.replacement
  split
  · refine (Step.invoke_obeys hrun h ?_).bind fun v _ _ _ => Step.textOf_obeys
    simpa [or_imp, forall_and] using captureValues_fits m.captures
  · exact Step.Obeys.read_bind fun t _ => .pure fun _ => trivial

theorem searched_obeys {pattern : Value} {all : Bool} :
    (searched pattern all).Obeys R may s fun _ _ => True := by
  unfold searched
  split
  · split
    · exact .wrongType
    · exact .pure fun _ => trivial
  · exact Step.Obeys.read_bind fun t _ => .pure fun _ => trivial

theorem replaceIn_obeys (hrun : run.Keeps R) {subject : Text} {args : List Value} {all : Bool}
    (h : ∀ v ∈ args, v.Fits R) :
    (replaceIn run subject args all).Obeys R (¬ R.shaped) s fun _ _ => True := by
  refine searched_obeys.bind fun _ s' _ _ => ?_
  refine Step.Obeys.bind (Step.Obeys.mapM (H := fun _ => True) (fun m _ s => ?_) s')
    fun _ _ _ _ => .pure fun _ => trivial
  exact (replacement_obeys hrun (argument_fits h 1)).bind fun _ _ _ _ => .pure fun _ => trivial

/-! ## Texts -/

namespace TextMethod

/-- The pieces of a text are texts, or undefined for a group that is not part of the
match. -/
theorem pieces_fits {t : Text} {separator : Value} {vs : List Value}
    (h : pieces s t separator = .ok vs) : ∀ v ∈ vs, v.Fits R := by
  unfold pieces at h
  split at h
  · cases h
    simp
  · cases h
    exact captureValues_fits _
  · obtain ⟨between, -, h⟩ := Except.of_bind_eq_ok h
    split at h <;> cases h <;> simp

theorem limited_fits {limit : Value} {values vs : List Value} (hvalues : ∀ v ∈ values, v.Fits R)
    (h : limited s limit values = .ok vs) : ∀ v ∈ vs, v.Fits R := by
  unfold limited at h
  split at h
  · cases h
    exact hvalues
  · obtain ⟨e, -, h⟩ := Except.of_bind_eq_ok h
    obtain ⟨n, -, h⟩ := Except.of_bind_eq_ok h
    cases h
    exact fun v hv => hvalues v (List.mem_of_mem_take hv)

theorem repeatedBy_obeys {t : Text} {times : Value} :
    (repeatedBy t times).Obeys R may s fun _ _ => True := by
  have invalid (e : Extent) {s : Store} : Step.Obeys R may s (fun _ _ => True)
      (do Step.wrongType ("Invalid count value: " ++ (← Step.ofExcept e.toNumber.display)) :
        Step Text) :=
    Step.Obeys.ofExcept_bind fun shown _ => .wrongType
  refine Step.Obeys.read_bind fun e _ => ?_
  split
  · exact invalid e
  · refine Step.Obeys.ofExcept_bind fun fits _ => ?_
    split
    · exact invalid e
    · exact .ofExcept fun _ _ _ => trivial

/-- **The methods of texts.** -/
theorem call_obeys (hrun : run.Keeps R) {t : Text} {args : List Value} {m : TextMethod}
    (hargs : ∀ v ∈ args, v.Fits R) :
    (TextMethod.call run t args m).Obeys R (¬ R.shaped) s R.Fitting := by
  have text {step : Step Text} {s : Store} (h : step.Obeys R (¬ R.shaped) s fun _ _ => True) :
      Step.Obeys R (¬ R.shaped) s R.Fitting (Value.text <$> step) :=
    h.map fun t _ _ _ => Value.fits_text t
  cases m with
  | split =>
    refine Step.Obeys.read_bind fun values hvalues => Step.Obeys.read_bind fun vs hvs => ?_
    exact Step.newList_obeys (limited_fits (pieces_fits hvalues) hvs)
  | toUpperCase | toLowerCase | trim | trimStart | trimEnd =>
    exact .pure fun _ => Value.fits_text _
  | includes | startsWith | endsWith =>
    exact Step.Obeys.read_bind fun start _ => Step.Obeys.read_bind fun needle _ =>
      .pure fun _ => Value.fits_bool _
  | indexOf =>
    exact Step.Obeys.read_bind fun start _ => Step.Obeys.read_bind fun needle _ =>
      .pure fun _ => Value.fits_int _
  | slice | substring =>
    exact Step.Obeys.read_bind fun start _ => Step.Obeys.read_bind fun stop _ =>
      .pure fun _ => Value.fits_text _
  | charAt => exact Step.Obeys.read_bind fun e _ => .pure fun _ => Value.fits_text _
  | charCodeAt =>
    refine Step.Obeys.read_bind fun e _ => ?_
    split
    · exact .pure fun _ => Value.fits_int _
    · exact .pure fun _ => Value.fits_float _
  | replace | replaceAll => exact text (replaceIn_obeys hrun hargs)
  | repeated => exact text repeatedBy_obeys
  | padStart | padEnd => exact Step.Obeys.read_bind fun filled _ => .pure fun _ => Value.fits_text _
  | concat =>
    refine Step.Obeys.bind (Step.Obeys.mapM (H := fun _ => True) (fun v _ s => ?_) s)
      fun texts _ _ _ => .pure fun _ => Value.fits_text _
    exact Step.textOf_obeys

end TextMethod

/-! ## Numbers, objects and regular expressions -/

namespace NumberMethod

theorem fixed_obeys {n : Number} {places : Value} :
    (fixed n places).Obeys R may s fun _ _ => True := by
  refine Step.Obeys.read_bind fun digits _ => ?_
  split
  · exact .wrongType
  · refine Step.Obeys.ofExcept_bind fun x _ => ?_
    split
    · exact .pure fun _ => trivial
    · exact .pure fun _ => trivial

theorem inBase_obeys {n : Number} {base : Value} :
    (inBase n base).Obeys R may s fun _ _ => True := by
  refine Step.Obeys.read_bind fun radix _ => ?_
  split
  · exact .wrongType
  split
  · exact .ofExcept fun _ _ _ => trivial
  · refine Step.Obeys.ofExcept_bind fun x _ => ?_
    split
    · exact .ofExcept fun _ _ _ => trivial
    split
    · exact .pure fun _ => trivial
    · exact .ofExcept fun _ _ _ => trivial

theorem call_obeys {n : Number} {args : List Value} {m : NumberMethod} :
    (NumberMethod.call n args m).Obeys R may s R.Fitting := by
  cases m with
  | toFixed => exact fixed_obeys.map fun t _ _ _ => Value.fits_text t
  | toRadix => exact inBase_obeys.map fun t _ _ _ => Value.fits_text t

end NumberMethod

theorem ObjectMethod.call_obeys {ref : ObjectRef} {args : List Value} {m : ObjectMethod} :
    (ObjectMethod.call ref args m).Obeys R may s R.Fitting := by
  cases m with
  | hasOwnProperty =>
    exact Step.Obeys.read_bind fun name _ => .get_bind fun _ => .pure fun _ => Value.fits_bool _

theorem RegexpMethod.call_obeys {r : Regexp} {args : List Value} {m : RegexpMethod} :
    (RegexpMethod.call r args m).Obeys R may s R.Fitting := by
  refine Step.Obeys.read_bind fun t _ => ?_
  cases m with
  | test => exact .pure fun _ => Value.fits_bool _
  | exec =>
    dsimp only
    split
    · exact .pure fun _ => Value.fits_null
    · exact Step.newList_obeys
        (List.forall_mem_cons.mpr ⟨Value.fits_text _, captureValues_fits _⟩)

/-! ## All methods -/

theorem Step.unknownMethod_obeys {α : Type} {P : α → Store → Prop} {v : Value} {name : Text} :
    (Step.unknownMethod v name : Step α).Obeys R may s P :=
  .get_bind fun _ => .error (by decide)

/-- **A builtin method** gives what fits. -/
theorem Step.callMethod_obeys (hrun : run.Keeps R) {v : Value} {name : Text} {args : List Value}
    (h : v.Fits R) (hargs : ∀ v ∈ args, v.Fits R) :
    (Step.callMethod run v name args).Obeys R (¬ R.shaped) s R.Fitting := by
  have named {α : Type} {method : Option α} {call : α → Step Value}
      (h : ∀ m, (call m).Obeys R (¬ R.shaped) s R.Fitting) :
      Step.Obeys R (¬ R.shaped) s R.Fitting
        ((method.map call).getD (Step.unknownMethod v name)) := by
    cases method with
    | none => exact Step.unknownMethod_obeys
    | some m => exact h m
  unfold Step.callMethod
  cases v with
  | list ref => exact named fun m => ListMethod.call_obeys hrun h hargs
  | text t => exact named fun m => TextMethod.call_obeys hrun hargs
  | number n => exact named fun m => NumberMethod.call_obeys
  | object ref => exact named fun m => ObjectMethod.call_obeys
  | regexp i r => exact named fun m => RegexpMethod.call_obeys
  | _ => exact Step.unknownMethod_obeys

end Scriptlet
