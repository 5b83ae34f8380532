import Scriptlet.Proofs.Veil.Sound
import Scriptlet.Walk.Shape

/-!
# Steps that are unaware of what is hidden

A step is *unaware* of what a veil hides if it makes no difference to it: from a sound store and
from the same store concealed it comes to the same result or the same interrupt, and to stores
that are again one the other concealed. The store that it comes to is sound, what it gives
has the property asked for, and so the next step can be unaware in turn.

This speaks of two runs at once, but both of them take the same steps, so there is one rule
for each way to combine steps and a proof still goes the way a step is written. Only where
a step goes on with what it reads from the store does one have to say something about both
stores: that what is read is the same.
-/

namespace Scriptlet

/-- An interrupt **fits behind a veil** if what it returns does. A run is halted only if
somebody watches it. -/
def Interrupt.FitsBehind (V : Veil) : Interrupt → Prop
  | .returned v => V.Fits v
  | .halted => False
  | _ => True

/-- The end of a step **with its store changed**. -/
def Step.mapEnd (f : Store → Store) :
    EStateM.Result Interrupt Store α → EStateM.Result Interrupt Store α
  | .ok a s => .ok a (f s)
  | .error i s => .error i (f s)

namespace Veil

variable (V : Veil)

/-- The end of a step with the store concealed. -/
abbrev concealEnd : EStateM.Result Interrupt Store α → EStateM.Result Interrupt Store α :=
  Step.mapEnd V.conceal

/-- An end of a step that is **as it should be**: the store is sound, and a result has the
property asked for. -/
def Allows (P : α → Prop) : EStateM.Result Interrupt Store α → Prop
  | .ok a s => V.Sound s ∧ P a
  | .error i s => V.Sound s ∧ i.FitsBehind V

end Veil

namespace Step

/-- A step is **unaware** of what a veil hides in a store, and `P` holds of its result. -/
def Unaware (V : Veil) (s : Store) (P : α → Prop) (step : Step α) : Prop :=
  V.Sound s → step (V.conceal s) = V.concealEnd (step s) ∧ V.Allows P (step s)

variable {V : Veil} {s : Store} {P Q : α → Prop} {P' : β → Prop}

/-! ## The rules -/

/-- What is given back at once has to have the property. -/
theorem Unaware.pure {a : α} (h : V.Sound s → P a) : Unaware V s P (Pure.pure a : Step α) :=
  fun hs => ⟨rfl, hs, h hs⟩

/-- **One step after another**: the second starts from any sound store and any result that the
first may have. -/
theorem Unaware.bind {step : Step α} {next : α → Step β} (first : step.Unaware V s Q)
    (second : ∀ a s', V.Sound s' → Q a → (next a).Unaware V s' P') :
    Unaware V s P' (step >>= next) := by
  intro hs
  obtain ⟨same, allows⟩ := first hs
  change EStateM.bind step next (V.conceal s) = V.concealEnd (EStateM.bind step next s) ∧
    V.Allows P' (EStateM.bind step next s)
  simp only [EStateM.bind, same]
  cases hstep : step s with
  | ok a s' =>
    rw [hstep] at allows
    exact second a s' allows.1 allows.2 allows.1
  | error i s' =>
    rw [hstep] at allows
    exact ⟨rfl, allows⟩

/-- Less may be asked of a result. -/
theorem Unaware.mono {step : Step α} (h : step.Unaware V s Q) (hp : ∀ a, Q a → P a) :
    step.Unaware V s P := by
  intro hs
  obtain ⟨same, allows⟩ := h hs
  refine ⟨same, ?_⟩
  cases hstep : step s with
  | ok a s' =>
    rw [hstep] at allows
    exact ⟨allows.1, hp a allows.2⟩
  | error i s' =>
    rw [hstep] at allows
    exact allows

/-- A function of the result. -/
theorem Unaware.map {step : Step α} {f : α → β} (h : step.Unaware V s Q)
    (hf : ∀ a, Q a → P' (f a)) : Unaware V s P' (f <$> step) := by
  rw [map_eq_pure_bind]
  exact h.bind fun a _ _ ha => .pure fun _ => hf a ha

/-- What an interrupt returns has to fit. -/
theorem Unaware.throw {i : Interrupt} (h : i.FitsBehind V) :
    Unaware V s P (MonadExcept.throw i : Step α) :=
  fun hs => ⟨rfl, hs, h⟩

/-- **What goes on with the store** goes on in the same way with the concealed one. -/
theorem Unaware.get_bind {next : Store → Step β}
    (same : V.Sound s → next (V.conceal s) = next s)
    (h : V.Sound s → (next s).Unaware V s P') :
    Unaware V s P' ((get : Step Store) >>= next) := by
  intro hs
  change next (V.conceal s) (V.conceal s) = V.concealEnd (next s s) ∧ V.Allows P' (next s s)
  rw [same hs]
  exact h hs hs

/-- A change of the store has to keep it sound and to commute with concealing it. -/
theorem Unaware.change {f : Store → Store} {P : Unit → Prop}
    (commutes : V.Sound s → V.conceal (f s) = f (V.conceal s)) (h : V.Sound s → V.Sound (f s))
    (hp : P ()) : Unaware V s P (modify f : Step Unit) := by
  intro hs
  refine ⟨?_, h hs, hp⟩
  change EStateM.Result.ok () (f (V.conceal s)) = .ok () (V.conceal (f s))
  rw [commutes hs]

/-- So has making something new, and the place of it is the same. -/
theorem Unaware.make {f : Store → α × Store}
    (commutes : V.Sound s → f (V.conceal s) = ((f s).1, V.conceal (f s).2))
    (h : V.Sound s → V.Sound (f s).2 ∧ P (f s).1) : (Step.make f).Unaware V s P := by
  intro hs
  refine ⟨?_, h hs⟩
  change (match f (V.conceal s) with | (a, s') => EStateM.Result.ok a s') =
    .ok (f s).1 (V.conceal (f s).2)
  rw [commutes hs]

/-- A computation that looks at no store. -/
theorem Unaware.ofExcept {x : Except Unmet α} (h : ∀ a, x = .ok a → P a) :
    (Step.ofExcept x).Unaware V s P := by
  intro hs
  cases x with
  | ok a => exact ⟨rfl, hs, h a rfl⟩
  | error u => exact ⟨rfl, hs, trivial⟩

/-- **What is read from the store** has to be the same in the concealed one. -/
theorem Unaware.read {f : Store → Except Unmet α} (same : V.Sound s → f (V.conceal s) = f s)
    (h : V.Sound s → ∀ a, f s = .ok a → P a) : (Step.read f).Unaware V s P :=
  .get_bind (fun hs => by rw [same hs]) fun hs => .ofExcept (h hs)

/-- What goes on with a computation that looks at no store goes on in the same store. -/
theorem Unaware.ofExcept_bind {x : Except Unmet α} {next : α → Step β}
    (h : ∀ a, x = .ok a → (next a).Unaware V s P') :
    Unaware V s P' (Step.ofExcept x >>= next) := by
  cases x with
  | ok a => exact h a rfl
  | error u => exact fun hs => ⟨rfl, hs, trivial⟩

/-- What goes on with what has been read goes on in the same store. -/
theorem Unaware.read_bind {f : Store → Except Unmet α} {next : α → Step β}
    (same : V.Sound s → f (V.conceal s) = f s)
    (h : ∀ a, f s = .ok a → (next a).Unaware V s P') :
    Unaware V s P' (Step.read f >>= next) := by
  have reads : (Step.read f >>= next) = (get >>= fun s => Step.ofExcept (f s) >>= next) := rfl
  rw [reads]
  exact .get_bind (fun hs => by rw [same hs]) fun _ => .ofExcept_bind h

/-- What follows a change of the store starts from the changed store. -/
theorem Unaware.change_bind {f : Store → Store} {next : Unit → Step β}
    (commutes : V.Sound s → V.conceal (f s) = f (V.conceal s)) (h : V.Sound s → V.Sound (f s))
    (hnext : ∀ s', V.Sound s' → (next ()).Unaware V s' P') :
    Unaware V s P' ((modify f : Step Unit) >>= next) :=
  (Unaware.change (P := fun _ => True) commutes h trivial).bind fun _ s' hs' _ => hnext s' hs'

theorem Unaware.fault {f : HostFault} : (Step.fault f : Step α).Unaware V s P :=
  .throw trivial

theorem Unaware.misshapen {f : HostFault} : (Step.misshapen f : Step α).Unaware V s P :=
  .throw trivial

theorem Unaware.error {kind : ErrorKind} {reason : Text} :
    (Step.error kind reason : Step α).Unaware V s P :=
  .throw trivial

theorem Unaware.wrongType {reason : Text} : (Step.wrongType reason : Step α).Unaware V s P :=
  .error

/-- A result of a whole list of steps, one for each item. -/
theorem Unaware.mapM {f : α → Step β} {H : β → Prop} {xs : List α}
    (h : ∀ x ∈ xs, ∀ s, (f x).Unaware V s H) :
    ∀ s, Unaware V s (fun bs => ∀ b ∈ bs, H b) (xs.mapM f) := by
  induction xs with
  | nil =>
    intro s
    rw [List.mapM_nil]
    exact .pure fun _ => by simp
  | cons x xs ih =>
    intro s
    rw [List.mapM_cons]
    refine (h x List.mem_cons_self s).bind fun b s' _ hb => ?_
    refine (ih (fun y hy => h y (List.mem_cons_of_mem _ hy)) s').bind fun bs s'' _ hbs => ?_
    exact .pure fun _ => by simpa using ⟨hb, hbs⟩

/-- What catches the interrupts of a step has to be unaware as well. -/
theorem Unaware.tryCatch {step : Step α} {handler : Interrupt → Step α}
    (h : step.Unaware V s P)
    (caught : ∀ i s', i.FitsBehind V → (handler i).Unaware V s' P) :
    Unaware V s P (MonadExcept.tryCatch step handler) := by
  intro hs
  obtain ⟨same, allows⟩ := h hs
  change EStateM.tryCatch step handler (V.conceal s) =
    V.concealEnd (EStateM.tryCatch step handler s) ∧
    V.Allows P (EStateM.tryCatch step handler s)
  unfold EStateM.tryCatch
  simp only [same]
  cases hstep : step s with
  | ok a s' =>
    rw [hstep] at allows
    exact ⟨rfl, allows⟩
  | error i s' =>
    rw [hstep] at allows
    exact caught i s' allows.2 allows.1

/-- Setting errors at a position changes nothing that counts. -/
theorem Unaware.locating {step : Step α} {position : Option Position}
    (h : step.Unaware V s P) : (Step.locating position step).Unaware V s P :=
  h.tryCatch fun i s' fits => by
    cases i with
    | error e => exact .throw trivial
    | _ => exact .throw fits

/-! ## Warnings and new values -/

theorem warn_unaware {channel : Channel} {text : Text} :
    (Step.warn channel text).Unaware V s fun _ => True :=
  .change (fun _ => rfl) (fun hs => hs.note _) trivial

theorem remark_unaware {channel : Channel} {text : Text} :
    (Step.remark channel text).Unaware V s fun _ => True :=
  .change (fun _ => rfl) (fun hs => hs.note _) trivial

theorem failWith_unaware {channel : Channel} {text : Text} :
    (Step.failWith channel text).Unaware V s V.Fits :=
  warn_unaware.bind fun _ _ _ _ => .pure fun _ => Veil.fits_failure

theorem newList_unaware {items : List Value} (h : ∀ v ∈ items, V.Fits v) :
    (Step.newList items).Unaware V s V.Fits :=
  Unaware.map (Q := fun ref => V.Fits (.list ref))
    (.make (fun _ => rfl) fun hs => ⟨hs.newList h, Veil.fits_list.mpr
      (Veil.not_mem_garbage (hs.fresh (Nat.lt_irrefl _)))⟩) fun _ h => h

theorem newObject_unaware {entries : Entries} (h : ∀ e ∈ entries, V.Fits e.2) :
    (Step.make (·.newObject entries)).Unaware V s fun ref => V.Fits (.object ref) := by
  refine .make (fun hs => ?_) fun hs => ⟨hs.newObject h,
    Veil.fits_object.mpr (hs.fresh (Nat.lt_irrefl _))⟩
  have fresh : V.context ≠ some s.objects.size := fun same =>
    Nat.lt_irrefl _ (hs.context_lt same)
  rw [Veil.conceal_newObject _ fresh]
  simp [Store.newObject]

theorem newIdentity_unaware {f : Identity → Value} (h : ∀ i, V.Fits (f i)) :
    Unaware V s V.Fits (f <$> Step.make Store.newIdentity) :=
  Unaware.map (Q := fun _ => True) (.make (fun _ => rfl) fun hs => ⟨hs.newIdentity, trivial⟩)
    fun i _ => h i

theorem newMethod_unaware {name : Text} {v : Value} (h : V.Fits v) :
    (Step.newMethod name v).Unaware V s V.Fits :=
  newIdentity_unaware fun i => (Value.fits_method i name v).mpr h

end Step

end Scriptlet
