import Scriptlet.Proofs.Unwinding.Evaluation

/-!
# Courses and agendas

A procedure is given a runner, and when it is done nothing tells what it has handed to the
runner and in which order. A *course* is a procedure laid open: steps of its own, which know
nothing of the runner, and errands in between, on which it depends how the course goes on. All
that it does with a runner are its errands, so these can be listed.

An *agenda* says which errands there are to be, and after which outcome there is to be which
next. Steps of its own a procedure may take as it likes, but they cannot change the agenda. A
procedure *follows* an agenda if it is a course whose errands are those of the agenda: all of
them, if it comes to its end, and otherwise those up to the interrupt.
-/

namespace Scriptlet

/-! ## Courses -/

/-- What a procedure **leaves to others**. -/
inductive Errand where
  /-- To evaluate a node. -/
  | evaluate (n : Node)
  /-- To look up what is to be called at a key of an object. -/
  | resolve (object key : Value)
  /-- To call something. -/
  | call (t : Task) (isCall : t.IsCall)

/-- Does an errand. Nodes are evaluated in a given frame. -/
def Errand.perform (run : Runner) (frame : FrameRef) : Errand → Step Value
  | evaluate n => run (.eval n frame)
  | resolve object key => Step.getProperty object key
  | call t _ => run t

/-- The **course** of a procedure. -/
inductive Course (α : Type) : Type 1 where
  /-- The end. -/
  | done (a : α)
  /-- A step of its own. -/
  | own {β : Type} (step : Step β) (next : β → Course α)
  /-- An errand. -/
  | errand (e : Errand) (next : Value → Course α)

/-- An **item** of an agenda: an errand, where it does not matter which call it is. -/
inductive Item where
  | evaluate (n : Node)
  | resolve (object key : Value)
  | call

/-- The item that an errand is. -/
def Errand.item : Errand → Item
  | evaluate n => .evaluate n
  | resolve object key => .resolve object key
  | call .. => .call

/-- The value that a step gives; none if it is interrupted. -/
def Step.value? (step : Step α) (s : Store) : Option α :=
  match step s with
  | .ok a _ => some a
  | .error .. => none

theorem Step.value?_of_ok {step : Step α} {s s' : Store} {a : α} (h : step s = .ok a s') :
    step.value? s = some a := by
  rw [value?, h]

theorem Step.value?_of_error {step : Step α} {s s' : Store} {i : Interrupt}
    (h : step s = .error i s') : step.value? s = none := by
  rw [value?, h]

namespace Course

variable {run : Runner} {frame : FrameRef} {s : Store}

/-- **Goes a course**, with a runner. -/
def perform (run : Runner) (frame : FrameRef) : Course α → Step α
  | done a => pure a
  | own step next => step >>= fun b => (next b).perform run frame
  | errand e next => e.perform run frame >>= fun v => (next v).perform run frame

/-- The **items that are done** on a course, in order, each with what it gives; one that is
interrupted gives nothing and is the last. -/
def items (run : Runner) (frame : FrameRef) : Course α → Store → List (Item × Option Value)
  | done _, _ => []
  | own step next, s =>
    match step s with
    | .ok b s' => (next b).items run frame s'
    | .error .. => []
  | errand e next, s =>
    match e.perform run frame s with
    | .ok v s' => (e.item, some v) :: (next v).items run frame s'
    | .error .. => [(e.item, none)]

/-- One course after another. -/
def bind (next : α → Course β) : Course α → Course β
  | done a => next a
  | own step further => own step fun b => (further b).bind next
  | errand e further => errand e fun v => (further v).bind next

theorem perform_bind (c : Course α) (next : α → Course β) :
    (c.bind next).perform run frame = c.perform run frame >>= fun a => (next a).perform run frame := by
  induction c with
  | done a => rfl
  | own step further ih =>
    rw [bind, perform, perform, bind_assoc]
    exact congrArg _ (funext ih)
  | errand e further ih =>
    rw [bind, perform, perform, bind_assoc]
    exact congrArg _ (funext ih)

/-- The items of the second course follow if the first comes to its end. -/
theorem items_bind (c : Course α) (next : α → Course β) :
    (c.bind next).items run frame s = c.items run frame s ++
      match c.perform run frame s with
      | .ok a s' => (next a).items run frame s'
      | .error .. => [] := by
  induction c generalizing s with
  | done a => rfl
  | own step further ih =>
    rw [bind, items, items, perform]
    cases here : step s with
    | ok b s' => rw [Step.bind_of_ok here]; exact ih b
    | error i s' => rw [Step.bind_of_error here]; rfl
  | errand e further ih =>
    rw [bind, items, items, perform]
    cases here : e.perform run frame s with
    | ok v s' => rw [Step.bind_of_ok here]; exact congrArg (_ :: ·) (ih v)
    | error i s' => rw [Step.bind_of_error here]; rfl

end Course

/-! ## Agendas -/

/-- An **agenda**: what is to be done next, by what the items before have given. What is at its
end is what matters afterwards. -/
inductive Agenda (σ : Type) where
  | done (x : σ)
  | item (i : Item) (next : Value → Agenda σ)

namespace Agenda

/-- One agenda after another. -/
def bind (next : σ → Agenda τ) : Agenda σ → Agenda τ
  | done x => next x
  | item i further => item i fun v => (further v).bind next

instance : Monad Agenda where
  pure := done
  bind a next := a.bind next

/-- The items done **follow an agenda**, up to its end or to an interrupt. An interrupt may come
out of an item or between two. -/
inductive Path : Agenda σ → List (Item × Option Value) → Option σ → Prop
  | done (x : σ) : Path (.done x) [] (some x)
  | between (a : Agenda σ) : Path a [] none
  | interrupted (i : Item) (next : Value → Agenda σ) : Path (.item i next) [(i, none)] none
  | item (i : Item) {next : Value → Agenda σ} {v : Value} {after : List (Item × Option Value)}
    {end? : Option σ} (further : Path (next v) after end?) :
    Path (.item i next) ((i, some v) :: after) end?

theorem bind_done (a : Agenda σ) : a.bind done = a := by
  induction a with
  | done x => rfl
  | item i next ih => exact congrArg (item i) (funext ih)

theorem bind_bind (a : Agenda σ) (b : σ → Agenda τ) (c : τ → Agenda υ) :
    (a.bind b).bind c = a.bind fun x => (b x).bind c := by
  induction a with
  | done x => rfl
  | item i next ih => exact congrArg (item i) (funext ih)

instance : LawfulMonad Agenda :=
  LawfulMonad.mk' _ bind_done (fun _ _ => rfl) bind_bind

variable {a : Agenda σ} {b : σ → Agenda τ} {before after : List (Item × Option Value)}

theorem Path.bind_of_some {x : σ} {end? : Option τ} (first : a.Path before (some x))
    (second : (b x).Path after end?) : (a >>= b).Path (before ++ after) end? := by
  induction a generalizing before with
  | done y => cases first; exact second
  | item i next ih => cases first with | item _ further => exact .item i (ih _ further)

theorem Path.bind_of_none (first : a.Path before none) : (a >>= b).Path before none := by
  induction a generalizing before with
  | done y => cases first; exact .between _
  | item i next ih =>
    cases first with
    | between => exact .between _
    | interrupted => exact .interrupted i _
    | item _ further => exact .item i (ih _ further)

/-- What follows one agenda after another is done by the first alone, or by both. -/
theorem Path.of_bind {items : List (Item × Option Value)} {end? : Option τ}
    (h : (a >>= b).Path items end?) :
    a.Path items none ∨ ∃ before after x, items = before ++ after ∧ a.Path before (some x)
      ∧ (b x).Path after end? := by
  induction a generalizing items with
  | done y => exact .inr ⟨[], items, y, rfl, .done y, h⟩
  | item i next ih =>
    cases h with
    | between => exact .inl (.between _)
    | interrupted => exact .inl (.interrupted i next)
    | item _ further =>
      rcases ih _ further with alone | ⟨before, after, x, rfl, first, second⟩
      · exact .inl (.item i alone)
      · exact .inr ⟨_, after, x, rfl, .item i first, second⟩

end Agenda

/-! ## Following an agenda -/

/-- A procedure **follows an agenda**, which is told of its result what `view` shows. -/
def Follows (frame : FrameRef) (p : Runner → Step α) (view : α → σ) (a : Agenda σ) : Prop :=
  ∃ c : Course α, (∀ run, p run = c.perform run frame)
    ∧ ∀ run s, a.Path (c.items run frame s) (((p run).value? s).map view)

namespace Follows

variable {frame : FrameRef} {p : Runner → Step α} {view : α → σ} {a : Agenda σ}

/-- **One procedure after another** follows one agenda after another. -/
theorem bind {q : α → Runner → Step β} {view' : β → τ} {b : σ → Agenda τ}
    (first : Follows frame p view a) (second : ∀ x, Follows frame (q x) view' (b (view x))) :
    Follows frame (fun run => p run >>= fun x => q x run) view' (a >>= b) := by
  obtain ⟨c, same, path⟩ := first
  choose d same' path' using second
  refine ⟨c.bind d, fun run => ?_, fun run s => ?_⟩
  · rw [c.perform_bind, ← same run]
    exact congrArg _ (funext fun x => same' x run)
  · have path := path run s
    rw [c.items_bind, ← same run]
    cases here : p run s with
    | ok x s' =>
      rw [Step.value?_of_ok here] at path
      have goesOn : (p run >>= fun x => q x run).value? s = (q x run).value? s' := by
        rw [Step.value?, Step.bind_of_ok here]
        rfl
      rw [goesOn]
      exact path.bind_of_some (path' x run s')
    | error i s' =>
      rw [Step.value?_of_error here] at path
      have ends : (p run >>= fun x => q x run).value? s = none :=
        Step.value?_of_error (Step.bind_of_error here)
      rw [ends, List.append_nil]
      exact path.bind_of_none

/-- A step of its own, of which it is known what the agenda is told. -/
theorem own {step : Step α} {x : σ} (h : ∀ s v, step.value? s = some v → view v = x) :
    Follows frame (fun _ => step) view (pure x) := by
  refine ⟨.own step .done, fun run => (bind_pure step).symm, fun run s => ?_⟩
  rw [Course.items]
  cases here : step s with
  | ok v s' =>
    rw [Step.value?_of_ok here, Option.map_some, h s v (Step.value?_of_ok here)]
    exact .done x
  | error i s' =>
    rw [Step.value?_of_error here]
    exact .between _

theorem pure (v : α) : Follows frame (fun _ => (Pure.pure v : Step α)) view (Pure.pure (view v)) :=
  .own fun s w given => by cases given; rfl

/-- A procedure that is interrupted at once follows every agenda. -/
theorem throw (i : Interrupt) : Follows frame (fun _ => (MonadExcept.throw i : Step α)) view a :=
  ⟨.own (MonadExcept.throw i) .done, fun _ => rfl, fun _ _ => .between a⟩

/-- Own steps before a procedure are of no interest. -/
theorem after {step : Step α} {q : α → Runner → Step β} {view' : β → τ} {b : Agenda τ}
    (second : ∀ x, Follows frame (q x) view' b) :
    Follows frame (fun run => step >>= fun x => q x run) view' b := by
  have first : Follows frame (fun _ => step) (fun _ => ()) (Pure.pure ()) := own fun _ _ _ => rfl
  exact first.bind (b := fun _ => b) second

/-- Own steps after a procedure are of no interest, if the agenda is told nothing. -/
theorem andOwn {step : α → Step β} {a : Agenda Unit} (first : Follows frame p (fun _ => ()) a) :
    Follows frame (fun run => p run >>= step) (fun _ => ()) a := by
  rw [← bind_pure a]
  exact first.bind fun x => .own fun _ _ _ => rfl

/-- The agenda may be told less. -/
theorem told {g : σ → τ} (h : Follows frame p view a) :
    Follows frame p (fun x => g (view x)) (a >>= fun x => Pure.pure (g x)) := by
  have goesOn : Follows frame (fun run => p run >>= Pure.pure) (fun x => g (view x))
      (a >>= fun x => Pure.pure (g x)) := h.bind fun x => .pure x
  simp only [bind_pure] at goesOn
  exact goesOn

/-- **An errand** is the item that it is. -/
theorem errand (e : Errand) : Follows frame (fun run => e.perform run frame) id (.item e.item .done) := by
  refine ⟨.errand e .done, fun run => (bind_pure _).symm, fun run s => ?_⟩
  rw [Course.items]
  cases here : e.perform run frame s with
  | ok v s' =>
    rw [Step.value?_of_ok here]
    exact .item _ (.done v)
  | error i s' =>
    rw [Step.value?_of_error here]
    exact .interrupted _ _

theorem ite {c : Prop} [Decidable c] {q : Runner → Step α} {b : Agenda σ} (h : Follows frame p view a)
    (h' : Follows frame q view b) :
    Follows frame (fun run => if c then p run else q run) view (if c then a else b) := by
  by_cases hc : c
  · simp only [if_pos hc]
    exact h
  · simp only [if_neg hc]
    exact h'

end Follows

end Scriptlet
