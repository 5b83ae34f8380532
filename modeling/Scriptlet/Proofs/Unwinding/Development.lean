import Scriptlet.Proofs.Unwinding.Forest
import Scriptlet.Proofs.Unwinding.Key
import Scriptlet.Proofs.Unwinding.Mark

/-!
# Steps of the walk's own

Of what the walk does by itself, without the runner, five things are of interest later. It
keeps the frames, and the keys of objects. A function that it makes has its body from the node that
it is made of, so bodies stay of a sort as long as the nodes are of it. Whatever it makes has its
scope in a frame that it has been told of. And an error that it raises has no position yet, since it
is the evaluation of a node that gives it one.

The steps of the walk's own are put together from a few, and there is a rule for each way to do
so.
-/

namespace Scriptlet

/-! ## How stores develop -/

namespace Store

/-- The functions of a store **have bodies of a sort**. -/
def HasBodies (P : Node → Prop) (s : Store) : Prop :=
  ∀ (f : FunctionRef) cell, s.functions[f]? = some cell → P cell.body

/-- A store whose functions have bodies of a sort **develops** into another: that has such
bodies too, and keeps the frames. -/
def Develops (P : Node → Prop) (s s' : Store) : Prop :=
  s.HasBodies P → s.KeepsFrames s' ∧ s'.HasBodies P

variable {P : Node → Prop} {s s' t : Store}

/-- Where there are no functions, they have bodies of any sort. -/
theorem hasBodies_of_empty (h : s.functions = #[]) : s.HasBodies P := by
  intro f cell found
  rw [h] at found
  cases found

namespace Develops

/-- Where the functions are left alone, only the frames count. -/
theorem of_keepsFrames (frames : s.KeepsFrames s') (functions : s'.functions = s.functions) :
    s.Develops P s' := by
  intro bodies
  refine ⟨frames, fun f cell found => ?_⟩
  rw [functions] at found
  exact bodies f cell found

theorem of_eq (frames : s'.frames = s.frames) (functions : s'.functions = s.functions) :
    s.Develops P s' :=
  .of_keepsFrames (keepsFrames_of_eq frames) functions

theorem refl (s : Store) : s.Develops P s :=
  .of_eq rfl rfl

theorem trans (first : s.Develops P s') (second : s'.Develops P t) : s.Develops P t := by
  intro bodies
  obtain ⟨frames, bodies⟩ := first bodies
  exact ⟨frames.trans (second bodies).1, (second bodies).2⟩

theorem openInner (parent : FrameRef) : s.Develops P (s.openInner parent).2 :=
  .of_keepsFrames (keepsFrames_openInner parent) rfl

theorem markFunction (frame : FrameRef) : s.Develops P (s.markFunction frame) := by
  refine .of_keepsFrames (keepsFrames_markFunction frame) ?_
  unfold Store.markFunction
  split <;> rfl

theorem define (frame : FrameRef) (name : Text) (v : Value) :
    s.Develops P (s.define frame name v) := by
  unfold Store.define
  split
  · exact .refl s
  · exact .of_eq rfl rfl

theorem newFunction {cell : FunctionCell} (body : P cell.body) :
    s.Develops P (s.newFunction cell).2 := by
  intro bodies
  refine ⟨keepsFrames_of_eq rfl, fun f cell' found => ?_⟩
  rcases functions_newFunction found with ⟨-, rfl⟩ | found
  · exact body
  · exact bodies f cell' found

/-- A function may be written anew if it keeps its body. -/
theorem setFunction {ref : FunctionRef} {old cell : FunctionCell}
    (found : s.functions[ref]? = some old) (same : cell.body = old.body) :
    s.Develops P (s.setFunction ref cell) := by
  intro bodies
  refine ⟨keepsFrames_of_eq rfl, fun f cell' found' => ?_⟩
  rcases functions_setFunction found' with ⟨-, rfl⟩ | found'
  · exact same ▸ bodies ref old found
  · exact bodies f cell' found'

end Develops

/-- A store develops into another that keeps its scopes, given that some frames are known, keeps
its keys and takes no list back: it **unfolds**. -/
structure Unfolds (P : Node → Prop) (known : Set FrameRef) (s s' : Store) : Prop where
  develops : s.Develops P s'
  scopes : s.KeepsScopes known s'
  keys : s.KeepsKeys s'
  lists : s.lists.size ≤ s'.lists.size

namespace Unfolds

variable {known : Set FrameRef}

/-- Where frames and functions are left alone, nothing happens to them. -/
theorem of_eq (frames : s'.frames = s.frames) (functions : s'.functions = s.functions)
    (keys : s.KeepsKeys s') (lists : s.lists.size ≤ s'.lists.size) :
    s.Unfolds P known s' :=
  ⟨.of_eq frames functions, .of_eq frames functions keys.objects, keys, lists⟩

theorem refl (s : Store) : s.Unfolds P known s :=
  ⟨.refl s, .refl s, .refl s, Nat.le_refl _⟩

theorem trans (first : s.Unfolds P known s') (second : s'.Unfolds P known t) :
    s.Unfolds P known t :=
  ⟨first.develops.trans second.develops, first.scopes.trans second.scopes,
    first.keys.trans second.keys, Nat.le_trans first.lists second.lists⟩

/-- Knowledge of a frame that is there is not needed. -/
theorem of_there {frame : FrameRef} (there : frame < s.frames.size)
    (h : s.Unfolds P (insert frame known) s') : s.Unfolds P known s' :=
  ⟨h.develops, h.scopes.of_there there, h.keys, h.lists⟩

theorem openInner {parent : FrameRef} (isKnown : parent ∈ known) :
    s.Unfolds P known (s.openInner parent).2 :=
  ⟨.openInner parent, .openInner isKnown, .openInner parent, Nat.le_refl _⟩

theorem markFunction (frame : FrameRef) : s.Unfolds P known (s.markFunction frame) :=
  ⟨.markFunction frame, .markFunction frame, .markFunction frame,
    by unfold Store.markFunction; split <;> exact Nat.le_refl _⟩

theorem define (frame : FrameRef) (name : Text) (v : Value) :
    s.Unfolds P known (s.define frame name v) :=
  ⟨.define frame name v, .define frame name v, .define frame name v,
    by unfold Store.define; split <;> exact Nat.le_refl _⟩

theorem newFunction {cell : FunctionCell} (body : P cell.body) (isKnown : cell.scope ∈ known) :
    s.Unfolds P known (s.newFunction cell).2 :=
  ⟨.newFunction body, .newFunction isKnown, .of_eq rfl, Nat.le_refl _⟩

/-- A function may be written anew if it keeps its body and its scope. -/
theorem setFunction {ref : FunctionRef} {old cell : FunctionCell}
    (found : s.functions[ref]? = some old) (body : cell.body = old.body)
    (scope : cell.scope = old.scope) : s.Unfolds P known (s.setFunction ref cell) :=
  ⟨.setFunction found body, .setFunction found scope, .of_eq rfl, Nat.le_refl _⟩

end Unfolds

/-- A relation **orders stores** if it is transitive, and a store comes before whatever it
unfolds into. Nothing depends on stores whose functions have other bodies. -/
structure Orders (P : Node → Prop) (known : Set FrameRef) (r : Store → Store → Prop) : Prop where
  unfolds : ∀ {s s'}, s.Unfolds P known s' → r s s'
  trans : ∀ {s s' t}, r s s' → r s' t → r s t
  given : ∀ {s s' : Store}, (s.HasBodies P → r s s') → r s s'

variable {known : Set FrameRef}

theorem Orders.refl {r : Store → Store → Prop} (hr : Orders P known r) (s : Store) : r s s :=
  hr.unfolds (.refl s)

theorem develops_orders (P : Node → Prop) : Orders P known (Develops P) :=
  ⟨Unfolds.develops, .trans, fun h bodies => h bodies bodies⟩

/-- Marks are kept whatever bodies functions have. -/
theorem marks_orders : Orders (fun _ => True) known fun s s' => s.marks ⊆ s'.marks where
  unfolds h := (h.develops fun _ _ _ => trivial).1.marks_subset
  trans := Set.Subset.trans
  given h := h fun _ _ _ => trivial

/-- So are the keys of objects, -/
theorem keys_orders : Orders (fun _ => True) known KeepsKeys where
  unfolds h := h.keys
  trans := .trans
  given h := h fun _ _ _ => trivial

/-- and so are lists, which are never taken back. -/
theorem lists_orders :
    Orders (fun _ => True) known fun s s' => s.lists.size ≤ s'.lists.size where
  unfolds h := h.lists
  trans := Nat.le_trans
  given h := h fun _ _ _ => trivial

/-- So are scopes. -/
theorem scopes_orders : Orders (fun _ => True) known (KeepsScopes known) where
  unfolds h := h.scopes
  trans := .trans
  given h := h fun _ _ _ => trivial

end Store

/-! ## Steps of the walk's own -/

/-- A sort of nodes is **hereditary** if the children of a node of that sort are of it. -/
def Node.Hereditary (P : Node → Prop) : Prop :=
  ∀ n, P n → ∀ m ∈ n.children, P m

/-- A step is **the walk's own** if the store unfolds, however it ends, given that some frames are
known, and an error that comes out of it has no position. -/
structure Step.IsOwn (P : Node → Prop) (known : Set FrameRef) (step : Step α) : Prop where
  unfolds : step.Keeps (Store.Unfolds P known)
  bare : ∀ {s s' e}, step s = .error (.error e) s' → e.position = none

namespace Step.IsOwn

variable {P : Node → Prop} {known : Set FrameRef}

theorem keeps {r : Store → Store → Prop} {step : Step α} (h : step.IsOwn P known)
    (hr : Store.Orders P known r) : step.Keeps r :=
  fun s => hr.unfolds (h.unfolds s)

/-- The walk's own steps keep marks. -/
theorem keepsMarks {step : Step α} (h : step.IsOwn (fun _ => True) known) : step.KeepsMarks :=
  h.keeps Store.marks_orders

/-! ### The rules -/

theorem pure (a : α) : IsOwn P known (Pure.pure a : Step α) :=
  ⟨fun s => .refl s, nofun⟩

theorem throw {i : Interrupt} (bare : ∀ e, i = .error e → e.position = none) :
    IsOwn P known (MonadExcept.throw i : Step α) :=
  ⟨fun s => .refl s, fun raised => bare _ (by cases raised; rfl)⟩

theorem get : IsOwn P known (MonadState.get : Step Store) :=
  ⟨fun s => .refl s, nofun⟩

/-- A step that gives something in whatever store it is done. -/
theorem of_ok {step : Step α} (h : ∀ s : Store, ∃ a s', step s = .ok a s' ∧ s.Unfolds P known s') :
    step.IsOwn P known where
  unfolds s := by
    obtain ⟨a, s', ends, unfolds⟩ := h s
    unfold storeAfter
    rw [ends]
    exact unfolds
  bare {s _ _} raised := by
    obtain ⟨a, s', ends, -⟩ := h s
    cases ends.symm.trans raised

/-- One step after another, where the second goes on with what the first gives. -/
theorem bindOf {step : Step α} {next : α → Step β} (first : step.IsOwn P known)
    (second : ∀ a s s', step s = .ok a s' → (next a).IsOwn P known) :
    IsOwn P known (step >>= next) where
  unfolds := first.unfolds.bindOf .trans fun a s s' gives => (second a s s' gives).unfolds
  bare {s s' e} raised := by
    cases hstep : step s with
    | ok a s₁ => exact (second a s s₁ hstep).bare ((Step.bind_of_ok hstep).symm.trans raised)
    | error i s₁ =>
      cases (Step.bind_of_error hstep).symm.trans raised
      exact first.bare hstep

/-- **One step after another.** -/
theorem bind {step : Step α} {next : α → Step β} (first : step.IsOwn P known)
    (second : ∀ a, (next a).IsOwn P known) : IsOwn P known (step >>= next) :=
  first.bindOf fun a _ _ _ => second a

theorem map {step : Step α} {f : α → β} (h : step.IsOwn P known) : IsOwn P known (f <$> step) := by
  rw [map_eq_pure_bind]
  exact h.bind fun _ => .pure _

theorem ite {c : Prop} [Decidable c] {step step' : Step α} (h : step.IsOwn P known)
    (h' : step'.IsOwn P known) : IsOwn P known (if c then step else step') := by
  split
  · exact h
  · exact h'

/-- A change of the store. -/
theorem change {f : Store → Store} (h : ∀ s : Store, s.Unfolds P known (f s)) :
    IsOwn P known (modify f : Step Unit) :=
  ⟨h, nofun⟩

/-- A change of the store that leaves the frames and the functions alone. -/
theorem changeElsewhere {f : Store → Store}
    (h : ∀ s, (f s).frames = s.frames ∧ (f s).functions = s.functions ∧
      s.KeepsKeys (f s) ∧ s.lists.size ≤ (f s).lists.size) :
    IsOwn P known (modify f : Step Unit) :=
  change fun s => .of_eq (h s).1 (h s).2.1 (h s).2.2.1 (h s).2.2.2

/-- Making something new. -/
theorem make {f : Store → α × Store} (h : ∀ s : Store, s.Unfolds P known (f s).2) :
    (Step.make f).IsOwn P known :=
  ⟨h, nofun⟩

/-- Making something new that is neither a frame nor a function. -/
theorem makeElsewhere {f : Store → α × Store}
    (h : ∀ s, (f s).2.frames = s.frames ∧ (f s).2.functions = s.functions ∧
      s.KeepsKeys (f s).2 ∧ s.lists.size ≤ (f s).2.lists.size) :
    (Step.make f).IsOwn P known :=
  make fun s => .of_eq (h s).1 (h s).2.1 (h s).2.2.1 (h s).2.2.2

theorem fault (f : HostFault) : (Step.fault f : Step α).IsOwn P known :=
  .throw nofun

theorem error (kind : ErrorKind) (reason : Text) :
    (Step.error kind reason : Step α).IsOwn P known :=
  .throw fun e same => by cases same; rfl

theorem wrongType (reason : Text) : (Step.wrongType reason : Step α).IsOwn P known :=
  .error _ reason

theorem misshapen (f : HostFault) : (Step.misshapen f : Step α).IsOwn P known :=
  .throw nofun

theorem ofExcept (x : Except Unmet α) : (Step.ofExcept x).IsOwn P known := by
  cases x with
  | ok a => exact .pure a
  | error u => exact .throw nofun

theorem read (f : Store → Except Unmet α) : (Step.read f).IsOwn P known :=
  .bind .get fun _ => .ofExcept _

/-- A step that goes on in the store that it has read something from. -/
theorem readBind {f : Store → Except Unmet α} {next : α → Step β}
    (unfolds : ∀ (s : Store) a, f s = .ok a → s.Unfolds P known ((next a).storeAfter s))
    (bare : ∀ {a s s' e}, next a s = .error (.error e) s' → e.position = none) :
    IsOwn P known (Step.read f >>= next) where
  unfolds s := by
    unfold storeAfter
    cases found : f s with
    | ok a =>
      rw [Step.bind_of_ok (Step.read_of_ok found)]
      exact unfolds s a found
    | error u =>
      rw [Step.bind_of_error (Step.read_of_error found)]
      exact .refl s
  bare {s s' e} raised := by
    cases found : f s with
    | ok a => exact bare ((Step.bind_of_ok (Step.read_of_ok found)).symm.trans raised)
    | error u => cases (Step.bind_of_error (Step.read_of_error found)).symm.trans raised

theorem mapM {f : α → Step β} (h : ∀ a, (f a).IsOwn P known) (xs : List α) :
    IsOwn P known (xs.mapM f) := by
  induction xs with
  | nil => rw [List.mapM_nil]; exact .pure _
  | cons x xs ih =>
    rw [List.mapM_cons]
    exact (h x).bind fun _ => ih.bind fun _ => .pure _

end Step.IsOwn

end Scriptlet
