import Scriptlet.Proofs.Unwinding.Development

/-!
# Procedures that are composed

What is evaluated or called is given a runner, and all that it can do with it is to hand
it tasks. A procedure *is composed* if it is put together from steps of the walk's own and from
tasks that it hands to the runner, one after the other. It takes no hold of an interrupt
on the way.

What comes of a procedure depends on a task, in some store, if it may come out differently
with a runner that does otherwise there and nowhere else. Four things follow for whatever
is composed, by induction on how. It keeps a relation between stores, if the tasks that it hands
on do and the walk's own steps do. What it depends on is among the tasks that it hands on. Where
an interrupt comes out of that, the procedure ends with it, in the same store. And an error that
it ends with is one of the walk's own, or has come out of what it depends on.
-/

namespace Scriptlet

/-- What a procedure **may give**, with some runner from some store. -/
def MayGive (p : Runner → Step α) (a : α) : Prop :=
  ∃ run s s', p run s = .ok a s'

/-- **A procedure is composed** of steps of the walk's own and of tasks of a certain sort. The
functions that it makes have bodies of a sort, and what it makes has its scope in frames that are
known. -/
inductive Composed (P : Node → Prop) (known : Set FrameRef) (hands : Task → Prop) :
    {α : Type} → (Runner → Step α) → Prop
  /-- A step of its own. -/
  | own {α : Type} {step : Step α} (isOwn : step.IsOwn P known) :
    Composed P known hands fun _ => step
  /-- A task that is handed to the runner. -/
  | task {t : Task} (handed : hands t) : Composed P known hands fun run => run t
  /-- One procedure after another. -/
  | bind {α β : Type} {p : Runner → Step α} {q : α → Runner → Step β}
    (first : Composed P known hands p)
    (second : ∀ a, MayGive p a → Composed P known hands (q a)) :
    Composed P known hands fun run => p run >>= fun a => q a run

/-- Two runners **agree but for one task** in one store. -/
def Runner.AgreeBut (run run' : Runner) (t₀ : Task) (s₀ : Store) : Prop :=
  ∀ t s, ¬ (t = t₀ ∧ s = s₀) → run' t s = run t s

/-- The runner that does as another, but is **interrupted in one task** in one store. -/
noncomputable def Runner.interruptedAt (run : Runner) (t₀ : Task) (s₀ : Store) (i : Interrupt) :
    Runner := by
  classical exact fun t s => if t = t₀ ∧ s = s₀ then .error i s₀ else run t s

theorem Runner.interruptedAt_agreeBut (run : Runner) (t₀ : Task) (s₀ : Store) (i : Interrupt) :
    run.AgreeBut (run.interruptedAt t₀ s₀ i) t₀ s₀ :=
  fun _ _ other => if_neg other

theorem Runner.interruptedAt_self (run : Runner) (t₀ : Task) (s₀ : Store) (i : Interrupt) :
    run.interruptedAt t₀ s₀ i t₀ s₀ = .error i s₀ :=
  if_pos ⟨rfl, rfl⟩

/-- What comes of a procedure, with a runner and from a store, **depends on a task** in some
store: there is a difference if that task is done otherwise there. -/
def DependsOn (p : Runner → Step α) (run : Runner) (s : Store) (t₀ : Task) (s₀ : Store) : Prop :=
  ∃ run' : Runner, run.AgreeBut run' t₀ s₀ ∧ p run' s ≠ p run s

/-- A procedure that halts when a task does, and does not halt otherwise, depends on it. -/
theorem DependsOn.of_halts {p : Runner → Step α} {run : Runner} {t₀ : Task} {s s₀ : Store}
    (halts : p (run.interruptedAt t₀ s₀ .halted) s = .error .halted s₀)
    (other : p run s ≠ .error .halted s₀) : DependsOn p run s t₀ s₀ :=
  ⟨_, run.interruptedAt_agreeBut t₀ s₀ .halted, fun same => other (same.symm.trans halts)⟩

/-- A procedure that ends with whatever interrupt comes out of a task depends on it. -/
theorem DependsOn.of_interrupts {p : Runner → Step α} {run : Runner} {t₀ : Task} {s s₀ : Store}
    (h : ∀ (run : Runner) i, run t₀ s₀ = .error i s₀ → p run s = .error i s₀) :
    DependsOn p run s t₀ s₀ := by
  have ends (i : Interrupt) : p (run.interruptedAt t₀ s₀ i) s = .error i s₀ :=
    h _ i (run.interruptedAt_self t₀ s₀ i)
  -- At least one of two interrupts makes a difference.
  by_cases same : p run s = .error .halted s₀
  · refine ⟨_, run.interruptedAt_agreeBut t₀ s₀ .tooDeep, fun equal => ?_⟩
    rw [ends, same] at equal
    cases equal
  · exact .of_halts (ends _) same

namespace Composed

variable {P : Node → Prop} {known : Set FrameRef} {hands : Task → Prop} {run run' : Runner}
  {t₀ : Task} {s s₀ s₁ : Store} {i : Interrupt}

/-! ## Building procedures up -/

theorem pure (a : α) : Composed P known hands fun _ => (Pure.pure a : Step α) :=
  .own (.pure a)

/-- One procedure after another, whatever the first gives. -/
theorem andThen {p : Runner → Step α} {q : α → Runner → Step β} (first : Composed P known hands p)
    (second : ∀ a, Composed P known hands (q a)) :
    Composed P known hands fun run => p run >>= fun a => q a run :=
  .bind first fun a _ => second a

/-- A procedure after a step of its own. -/
theorem after {step : Step α} {q : α → Runner → Step β} (isOwn : step.IsOwn P known)
    (second : ∀ a, Composed P known hands (q a)) :
    Composed P known hands fun run => step >>= fun a => q a run :=
  .andThen (.own isOwn) second

theorem map {p : Runner → Step α} {f : α → β} (h : Composed P known hands p) :
    Composed P known hands fun run => f <$> p run := by
  simp only [map_eq_pure_bind]
  exact .andThen h fun a => .pure (f a)

theorem ite {c : Prop} [Decidable c] {p q : Runner → Step α} (h : Composed P known hands p)
    (h' : Composed P known hands q) :
    Composed P known hands fun run => if c then p run else q run := by
  by_cases hc : c
  · simp only [if_pos hc]
    exact h
  · simp only [if_neg hc]
    exact h'

theorem mapM {p : α → Runner → Step β} (h : ∀ a, Composed P known hands (p a)) (xs : List α) :
    Composed P known hands fun run => xs.mapM fun x => p x run := by
  induction xs with
  | nil =>
    simp only [List.mapM_nil]
    exact .pure []
  | cons x xs ih =>
    simp only [List.mapM_cons]
    exact .andThen (h x) fun _ => .andThen ih fun _ => .pure _

/-- A procedure may be said to hand on more. -/
theorem mono {hands' : Task → Prop} {p : Runner → Step α} (h : Composed P known hands p)
    (more : ∀ t, hands t → hands' t) : Composed P known hands' p := by
  induction h with
  | own isOwn => exact .own isOwn
  | task handed => exact .task (more _ handed)
  | bind _ _ first second => exact .bind first second

/-! ## What follows for whatever is composed -/

section Keeping

variable {r : Store → Store → Prop} (hr : Store.Orders P known r)
include hr

/-- **A composed procedure keeps a relation** if the tasks that it hands on do. -/
theorem keeps {p : Runner → Step α} (h : Composed P known hands p)
    (hrun : ∀ t, hands t → (run t).Keeps r) : (p run).Keeps r := by
  induction h with
  | own isOwn => exact isOwn.keeps hr
  | task handed => exact hrun _ handed
  | bind _ _ ihFirst ihSecond =>
    exact ihFirst.bindOf hr.trans fun a s s' gives => ihSecond a ⟨run, s, s', gives⟩

/-- A composed procedure that comes out differently has handed on the task that makes the
difference, and up to then the relation was kept. -/
theorem handsOn_of_differ {p : Runner → Step α} (h : Composed P known hands p)
    (hrun : ∀ t, hands t → (run t).Keeps r) (agree : run.AgreeBut run' t₀ s₀)
    (differ : p run' s ≠ p run s) : hands t₀ ∧ r s s₀ := by
  induction h generalizing s with
  | own => exact absurd rfl differ
  | @task t handed =>
    by_cases here : t = t₀ ∧ s = s₀
    · obtain ⟨rfl, rfl⟩ := here
      exact ⟨handed, hr.refl s⟩
    · exact absurd (agree t s here) differ
  | @bind _ _ p q first _ ihFirst ihSecond =>
    -- Where the first part comes out alike, the second is begun in the same store.
    by_cases same : p run' s = p run s
    · cases ends : p run s with
      | error i s' =>
        rw [ends] at same
        exact absurd ((Step.bind_of_error same).trans (Step.bind_of_error ends).symm) differ
      | ok a s' =>
        rw [ends] at same
        have goesOn : (p run >>= fun a => q a run) s = q a run s' := Step.bind_of_ok ends
        have later : q a run' s' ≠ q a run s' := fun equal => differ <|
          (Step.bind_of_ok same).trans (equal.trans goesOn.symm)
        obtain ⟨handed, kept⟩ := ihSecond a ⟨run, s, s', ends⟩ later
        exact ⟨handed, hr.trans ((first.keeps hr hrun).of_ok ends) kept⟩
    · exact ihFirst same

/-- **What a composed procedure depends on** is a task that it hands on. -/
theorem handsOn {p : Runner → Step α} (h : Composed P known hands p)
    (hrun : ∀ t, hands t → (run t).Keeps r) (depends : DependsOn p run s t₀ s₀) :
    hands t₀ ∧ r s s₀ := by
  obtain ⟨run', agree, differ⟩ := depends
  exact h.handsOn_of_differ hr hrun agree differ

end Keeping

/-- Where a task is interrupted, a composed procedure ends with that or comes out as if the
task did not matter. -/
theorem eq_or_carries {p : Runner → Step α} (h : Composed P known hands p)
    (agree : run.AgreeBut run' t₀ s₀) (ends : run' t₀ s₀ = .error i s₁) :
    p run' s = p run s ∨ p run' s = .error i s₁ := by
  induction h generalizing s with
  | own => exact .inl rfl
  | @task t _ =>
    by_cases here : t = t₀ ∧ s = s₀
    · obtain ⟨rfl, rfl⟩ := here
      exact .inr ends
    · exact .inl (agree t s here)
  | @bind _ _ p q _ _ ihFirst ihSecond =>
    rcases ihFirst (s := s) with same | carried
    · cases first : p run s with
      | error j s' =>
        rw [first] at same
        exact .inl ((Step.bind_of_error same).trans (Step.bind_of_error first).symm)
      | ok a s' =>
        rw [first] at same
        have goesOn : (p run' >>= fun a => q a run') s = q a run' s' := Step.bind_of_ok same
        have wentOn : (p run >>= fun a => q a run) s = q a run s' := Step.bind_of_ok first
        rcases ihSecond a ⟨run, s, s', first⟩ (s := s') with same' | carried
        · exact .inl (goesOn.trans (same'.trans wentOn.symm))
        · exact .inr (goesOn.trans carried)
    · exact .inr (Step.bind_of_error carried)

/-- **An interrupt is carried**: where one comes out of what a composed procedure depends on,
the procedure ends with it. -/
theorem carries {p : Runner → Step α} (h : Composed P known hands p)
    (depends : DependsOn p run s t₀ s₀) {run'' : Runner} (agree : run.AgreeBut run'' t₀ s₀)
    (ends : run'' t₀ s₀ = .error i s₁) :
    p run'' s = .error i s₁ := by
  obtain ⟨run', agree', differ⟩ := depends
  -- If it came out as with either of the two runners, there would be no difference.
  rcases h.eq_or_carries (s := s) agree ends with same | carried
  · have agree'' : run'.AgreeBut run'' t₀ s₀ := fun t s other =>
      (agree t s other).trans (agree' t s other).symm
    rcases h.eq_or_carries (s := s) agree'' ends with same' | carried
    · exact absurd (same'.symm.trans same) differ
    · exact carried
  · exact carried

/-- **Where an error comes from**: a composed procedure that ends with one has raised it by itself,
and then it has no position, or has got it from a task that it depends on. -/
theorem raises {p : Runner → Step α} (h : Composed P known hands p) {e : ProgramError} {s' : Store}
    (raised : p run s = .error (.error e) s') :
    e.position = none ∨ ∃ t₀ s₀, DependsOn p run s t₀ s₀ ∧ run t₀ s₀ = .error (.error e) s' := by
  induction h generalizing s with
  | own isOwn => exact .inl (isOwn.bare raised)
  | @task t _ =>
    exact .inr ⟨t, s, .of_interrupts fun _ _ ends => ends, raised⟩
  | @bind _ _ p q first second ihFirst ihSecond =>
    -- What halts where the error comes from halts the whole, which ends with the error instead.
    have dependsOn {t₀ : Task} {s₀ : Store}
        (halts : (p (run.interruptedAt t₀ s₀ .halted) >>=
          fun a => q a (run.interruptedAt t₀ s₀ .halted)) s = .error .halted s₀) :
        DependsOn (fun run => p run >>= fun a => q a run) run s t₀ s₀ :=
      .of_halts halts fun same => by cases raised.symm.trans same
    cases ends : p run s with
    | error i s₁ =>
      cases (Step.bind_of_error ends).symm.trans raised
      refine (ihFirst ends).imp_right fun ⟨t₀, s₀, depends, came⟩ => ⟨t₀, s₀, dependsOn ?_, came⟩
      exact Step.bind_of_error (first.carries depends (run.interruptedAt_agreeBut t₀ s₀ _)
        (run.interruptedAt_self t₀ s₀ _))
    | ok a s₁ =>
      have given : MayGive p a := ⟨run, s, s₁, ends⟩
      refine (ihSecond a given ((Step.bind_of_ok ends).symm.trans raised)).imp_right
        fun ⟨t₀, s₀, depends, came⟩ => ⟨t₀, s₀, dependsOn ?_, came⟩
      have agree := run.interruptedAt_agreeBut t₀ s₀ .halted
      have halted := run.interruptedAt_self t₀ s₀ .halted
      rcases first.eq_or_carries (s := s) agree halted with same | carried
      · exact (Step.bind_of_ok (same.trans ends)).trans
          ((second a given).carries depends agree halted)
      · exact Step.bind_of_error carried

end Composed

end Scriptlet
