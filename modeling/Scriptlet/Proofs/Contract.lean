import Scriptlet.Proofs.Regime

/-!
# Steps that obey a regime

A step *obeys* a regime from a store if, provided the store is sound, the store is
sound afterwards however the step ends, an interrupt fits, and a result has the
property asked for. The property may look at the store, because a failure comes with
a warning in the log.

Everything that a program does is put together from a few ways to combine steps, and
each of them has a rule here. With these a contract is proved the way a step is
written, from the top down, and no proof further on ever looks into the monad.
-/

namespace Scriptlet

namespace Step

/-- A step **obeys a regime** from a store: `may` says whether a return may come out of
it, and `P` what holds of its result. -/
def Obeys (R : Regime) (may : Prop) (s : Store) (P : α → Store → Prop) (step : Step α) :
    Prop :=
  R.Sound s →
    match step s with
    | .ok a s' => R.Sound s' ∧ P a s'
    | .error i s' => R.Sound s' ∧ i.Fits R may

variable {R : Regime} {may may' : Prop} {s : Store} {P Q : α → Store → Prop}
  {P' : β → Store → Prop}

/-! ## The rules -/

/-- What is given back at once has to have the property. -/
theorem Obeys.pure {a : α} (h : R.Sound s → P a s) :
    Obeys R may s P (Pure.pure a : Step α) :=
  fun hs => ⟨hs, h hs⟩

/-- **One step after another**: the second starts from any sound store and any result
that the first may have. -/
theorem Obeys.bind {step : Step α} {next : α → Step β} (first : step.Obeys R may s Q)
    (second : ∀ a s', R.Sound s' → Q a s' → (next a).Obeys R may s' P') :
    Obeys R may s P' (step >>= next) := by
  intro hs
  have h := first hs
  change match EStateM.bind step next s with
    | .ok b s' => R.Sound s' ∧ P' b s'
    | .error i s' => R.Sound s' ∧ i.Fits R may
  unfold EStateM.bind
  cases hstep : step s with
  | ok a s' =>
    rw [hstep] at h
    exact second a s' h.1 h.2 h.1
  | error i s' =>
    rw [hstep] at h
    exact h

/-- A contract may be weakened. -/
theorem Obeys.mono {step : Step α} (h : step.Obeys R may s Q) (hm : may → may')
    (hp : ∀ a s', R.Sound s' → Q a s' → P a s') : step.Obeys R may' s P := by
  intro hs
  have h := h hs
  cases hstep : step s with
  | ok a s' =>
    rw [hstep] at h
    exact ⟨h.1, hp a s' h.1 h.2⟩
  | error i s' =>
    rw [hstep] at h
    exact ⟨h.1, h.2.mono hm⟩

/-- A contract where no return may come out holds wherever one may. -/
theorem Obeys.weaken {step : Step α} (h : step.Obeys R may s P) (hm : may → may') :
    step.Obeys R may' s P :=
  h.mono hm fun _ _ _ h => h

/-- A function of the result. -/
theorem Obeys.map {step : Step α} {f : α → β} (h : step.Obeys R may s Q)
    (hf : ∀ a s', R.Sound s' → Q a s' → P' (f a) s') :
    Obeys R may s P' (f <$> step) := by
  rw [map_eq_pure_bind]
  exact h.bind fun a s' _ ha => .pure fun hs' => hf a s' hs' ha

/-- An interrupt has to fit. -/
theorem Obeys.throw {i : Interrupt} (h : i.Fits R may) :
    Obeys R may s P (MonadExcept.throw i : Step α) :=
  fun hs => ⟨hs, h⟩

/-- What goes on with the store is looked at in a sound one. -/
theorem Obeys.get_bind {next : Store → Step β}
    (h : R.Sound s → (next s).Obeys R may s P') :
    Obeys R may s P' ((get : Step Store) >>= next) :=
  fun hs => h hs hs

/-- A change of the store has to keep it sound. -/
theorem Obeys.change {f : Store → Store} {P : Unit → Store → Prop}
    (h : R.Sound s → R.Sound (f s) ∧ P () (f s)) :
    Obeys R may s P (modify f : Step Unit) :=
  h

/-- So has making something new. -/
theorem Obeys.make {f : Store → α × Store}
    (h : R.Sound s → R.Sound (f s).2 ∧ P (f s).1 (f s).2) :
    (Step.make f).Obeys R may s P :=
  h

/-- Making something new, and a function of it. -/
theorem Obeys.map_make {f : Store → α × Store} {g : α → β}
    (h : R.Sound s → R.Sound (f s).2 ∧ P' (g (f s).1) (f s).2) :
    Obeys R may s P' (g <$> Step.make f) :=
  Obeys.map (Q := fun a s' => P' (g a) s') (.make h) fun _ _ _ h => h

/-- A computation that may make a demand can be relied on in no other way. -/
theorem Obeys.ofExcept {x : Except Unmet α} (h : R.Sound s → ∀ a, x = .ok a → P a s) :
    (Step.ofExcept x).Obeys R may s P := by
  intro hs
  cases x with
  | ok a => exact ⟨hs, h hs a rfl⟩
  | error u => exact ⟨hs, fun _ => ⟨u, rfl⟩⟩

/-- What is read from the store is read from a sound one. -/
theorem Obeys.read {f : Store → Except Unmet α}
    (h : R.Sound s → ∀ a, f s = .ok a → P a s) :
    (Step.read f).Obeys R may s P :=
  .get_bind fun _ => .ofExcept h

/-- What goes on with such a computation goes on in the same store. -/
theorem Obeys.ofExcept_bind {x : Except Unmet α} {next : α → Step β}
    (h : ∀ a, x = .ok a → (next a).Obeys R may s P') :
    Obeys R may s P' (Step.ofExcept x >>= next) := by
  cases x with
  | ok a => exact h a rfl
  | error u => exact fun hs => ⟨hs, fun _ => ⟨u, rfl⟩⟩

/-- What goes on with what has been read goes on in the same store. -/
theorem Obeys.read_bind {f : Store → Except Unmet α} {next : α → Step β}
    (h : ∀ a, f s = .ok a → (next a).Obeys R may s P') :
    Obeys R may s P' (Step.read f >>= next) :=
  Obeys.ofExcept_bind (x := f s) h

/-- What follows a change of the store starts from the changed store. -/
theorem Obeys.change_bind {f : Store → Store} {next : Unit → Step β}
    (h : R.Sound s → R.Sound (f s)) (hnext : (next ()).Obeys R may (f s) P') :
    Obeys R may s P' ((modify f : Step Unit) >>= next) :=
  fun hs => hnext (h hs)

/-- A fault of the host, where there is one. -/
theorem Obeys.fault {f : HostFault} (hp : ¬ R.plain) : (Step.fault f : Step α).Obeys R may s P :=
  .throw fun h => absurd h hp

/-- An error of the program that is no node's fault. -/
theorem Obeys.error {kind : ErrorKind} {reason : Text} (h : kind ≠ .misplacedNode) :
    (Step.error kind reason : Step α).Obeys R may s P :=
  .throw fun _ => h

theorem Obeys.wrongType {reason : Text} : (Step.wrongType reason : Step α).Obeys R may s P :=
  .error (by decide)

/-- A result of a whole list of steps, one for each item. -/
theorem Obeys.mapM {f : α → Step β} {H : β → Prop} {xs : List α}
    (h : ∀ x ∈ xs, ∀ s, (f x).Obeys R may s fun b _ => H b) :
    ∀ s, Obeys R may s (fun bs _ => ∀ b ∈ bs, H b) (xs.mapM f) := by
  induction xs with
  | nil =>
    intro s
    rw [List.mapM_nil]
    exact .pure fun _ => by simp
  | cons x xs ih =>
    intro s
    rw [List.mapM_cons]
    refine (h x List.mem_cons_self s).bind fun b s' _ hb => ?_
    refine (ih (fun y hy => h y (List.mem_cons_of_mem _ hy)) s').bind fun bs s'' _ hbs => ?_
    exact .pure fun _ => by simpa using ⟨hb, hbs⟩

/-- Setting errors at a position changes nothing that counts. -/
theorem Obeys.locating {step : Step α} {position : Option Position}
    (h : step.Obeys R may s P) : (Step.locating position step).Obeys R may s P := by
  intro hs
  have h := h hs
  unfold Step.locating
  simp only [tryCatch, tryCatchThe, MonadExceptOf.tryCatch]
  unfold EStateM.tryCatch
  cases hstep : step s with
  | ok a s' =>
    rw [hstep] at h
    exact h
  | error i s' =>
    rw [hstep] at h
    cases i with
    | error e => exact ⟨h.1, h.2⟩
    | _ => exact h

end Step

/-! ## What results are asked for -/

namespace Regime

/-- A result that **fits**. -/
def Fitting (R : Regime) (v : Value) (_ : Store) : Prop :=
  v.Fits R

/-- Results that fit. -/
def FittingAll (R : Regime) (vs : List Value) (_ : Store) : Prop :=
  ∀ v ∈ vs, v.Fits R

/-- A result that **fits or is a failure**, of which a warning has been given. -/
def Yields (R : Regime) (v : Value) (s : Store) : Prop :=
  v.Fits R ∨ (v = .failure ∧ R.Warned s)

variable {R : Regime} {s : Store}

/-- A failure that comes out is one that a warning has been given of. -/
theorem Yields.warned (h : R.Yields .failure s) : R.Warned s := by
  rcases h with h | h
  · exact fun hc => absurd hc (Value.fits_failure.mp h)
  · exact h.2

/-- Whatever else comes out fits. -/
theorem Yields.fits {v : Value} (h : R.Yields v s) (hv : v ≠ .failure) : v.Fits R :=
  h.resolve_right fun h => hv h.1

theorem Yields.failure_or_fits {v : Value} (h : R.Yields v s) : v = .failure ∨ v.Fits R :=
  h.symm.imp And.left id

theorem Yields.fits_orUndefined {v : Value} (h : R.Yields v s) : v.orUndefined.Fits R :=
  Value.fits_orUndefined h.failure_or_fits

end Regime

/-! ## Warnings and new values -/

namespace Step

variable {R : Regime} {may : Prop} {s : Store}

/-- A warning that is no complaint may always be given. -/
theorem warn_obeys {channel : Channel} {text : Text}
    (h : R.shaped → LogRecord.isComplaint ⟨.warning, channel, text⟩ = false) :
    (Step.warn channel text).Obeys R may s fun _ s' => R.Warned s' :=
  .change fun hs => ⟨hs.note h, hs.warned_note rfl⟩

theorem failWith_obeys {channel : Channel} {text : Text}
    (h : R.shaped → LogRecord.isComplaint ⟨.warning, channel, text⟩ = false) :
    (Step.failWith channel text).Obeys R may s R.Yields :=
  (warn_obeys h).bind fun _ _ _ hw => .pure fun _ => .inr ⟨rfl, hw⟩

theorem remark_obeys {channel : Channel} {text : Text}
    (h : R.shaped → LogRecord.isComplaint ⟨.debug, channel, text⟩ = false) :
    (Step.remark channel text).Obeys R may s fun _ _ => True :=
  .change fun hs => ⟨hs.note h, trivial⟩

theorem newList_obeys {items : List Value} (h : ∀ v ∈ items, v.Fits R) :
    (Step.newList items).Obeys R may s R.Fitting :=
  .map_make fun hs => ⟨hs.newList h, hs.fits_newList items⟩

theorem newIdentity_obeys {f : Identity → Value} (h : ∀ i, (f i).Fits R) :
    Obeys R may s R.Fitting (f <$> Step.make Store.newIdentity) :=
  .map_make fun hs => ⟨hs.newIdentity, h _⟩

theorem newMethod_obeys {name : Text} {v : Value} (h : v.Fits R) :
    (Step.newMethod name v).Obeys R may s R.Fitting :=
  newIdentity_obeys fun i => (Value.fits_method i name v).mpr h

theorem display_obeys {v : Value} : (Step.display v).Obeys R may s fun _ _ => True :=
  .read fun _ _ _ => trivial

theorem textOf_obeys {v : Value} : (Step.textOf v).Obeys R may s fun _ _ => True :=
  .read fun _ _ _ => trivial

theorem numberOf_obeys {v : Value} : (Step.numberOf v).Obeys R may s fun _ _ => True :=
  .read fun _ _ _ => trivial

end Step

end Scriptlet
