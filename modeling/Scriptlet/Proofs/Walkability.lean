import Mathlib.Data.Set.Insert
import Scriptlet.Proofs.Conformance
import Scriptlet.Proofs.Moment

/-!
# Programs can be walked

The reader of programs and the walk over them agree only in that both keep to one table
of shapes. That is enough: whatever is read can be walked, and the walk never meets a
node that it cannot take apart, or one that should not stand where it does. It neither
complains of such a node in the log nor ends because of one.

The walk also meets the bodies of functions that a context holds already. Those that
earlier programs have left there are parts of trees that were read, so contexts go on
being fit for it.
-/

namespace Scriptlet

/-- A store **goes on without complaint** from another: the log of it has more records at
most, and none of these is about a node that should not be there. -/
def Store.GoesOnWithoutComplaint (s s' : Store) : Prop :=
  ∃ new, s'.log = new ++ s.log ∧ ∀ r ∈ new, r.isComplaint = false

/-- The functions that can be reached from some sites **have proper bodies**: trees that
conform to the table of shapes, blocks or expressions. -/
def Store.HasProperBodiesFrom (s : Store) (sites : Set Site) : Prop :=
  ∀ p ∈ sites, ∀ f cell, s.Reaches p (.function f) → s.functions[f]? = some cell →
    cell.body.Proper Node.isBody

/-- Whether an interrupt **blames a node**: for not being what has to stand in its place,
or for not having the shape of its kind. -/
def Interrupt.blamesNode : Interrupt → Bool
  | misshapen _ => true
  | error e => e.kind == .misplacedNode
  | _ => false

/-- A moment **blames no node** if there has been no complaint since the start, and if it
is no interrupt that blames one. -/
def Moment.BlamesNone (start : Store) : Moment → Prop
  | before _ s | after _ _ s => start.GoesOnWithoutComplaint s
  | interrupted _ i s => start.GoesOnWithoutComplaint s ∧ i.blamesNode = false

/-- A **host that keeps to the table of shapes**, in a run from some sites of a store: it
makes no functions with other bodies, and it does not by itself complain of nodes. -/
def Host.KeepsToShapes (host : Host) (roots : Set Site) (s : Store) : Prop :=
  host.Keeps (.ofStart False True False ∅ roots s)

/-! ## From regimes to walks without complaint -/

section Shaped

variable {R : Regime} (shaped : R.shaped)
include shaped

theorem Interrupt.Fits.blamesNode_eq_false {i : Interrupt} {may : Prop} (h : i.Fits R may) :
    i.blamesNode = false := by
  cases i with
  | misshapen f => exact absurd shaped h
  | error e => simpa [blamesNode] using h shaped
  | _ => rfl

theorem Regime.Sound.goesOnWithoutComplaint {s s' : Store} (hs : R.Sound s')
    (start : R.logged = s.log) : s.GoesOnWithoutComplaint s' := by
  obtain ⟨new, same, fine⟩ := hs.log
  exact ⟨new, start ▸ same, fine shaped⟩

theorem Regime.Sound.hasProperBodiesFrom {s : Store} (hs : R.Sound s) :
    s.HasProperBodiesFrom R.garbageᶜ := by
  intro p hp f cell reaches found
  obtain ⟨conforms, isBody⟩ := (hs.functions f cell (hs.not_mem_of_reaches hp reaches) found).2 shaped
  exact ⟨conforms, isBody⟩

theorem Moment.Fits.blamesNone {m : Moment} {s : Store} (h : m.Fits R)
    (start : R.logged = s.log) : m.BlamesNone s := by
  cases m with
  | before task s' => exact h.1.goesOnWithoutComplaint shaped start
  | after task v s' =>
    cases task <;> exact h.1.goesOnWithoutComplaint shaped start
  | interrupted task i s' =>
    exact ⟨h.1.goesOnWithoutComplaint shaped start, h.2.blamesNode_eq_false shaped⟩

end Shaped

/-! ## Whole runs -/

namespace Program

/-- **What is read can be walked.** A program that is read from a text conforms to the table
of shapes. In a context whose functions have proper bodies it runs, at every moment and to
its end, without a complaint of a node and without an interrupt that blames one, and the
functions still have proper bodies then. -/
theorem walks_what_is_read {source : Text} {program : Node}
    (parsed : parseProgram source = .ok program) :
    program.Proper (·.isOf .program) ∧
      ∀ (host : Host) (frame : FrameRef) (s : Store) (roots : Set Site), .frame frame ∈ roots →
        s.HasProperBodiesFrom roots → host.KeepsToShapes roots s → ∀ depth : Nat,
          (∀ m, Passes host depth program frame s m → m.BlamesNone s) ∧
          match runWith (Task.runTo host depth) program frame s with
          | .ok _ s' =>
            s.GoesOnWithoutComplaint s' ∧ s'.HasProperBodiesFrom (s.unreached roots)ᶜ
          | .error i s' =>
            s.GoesOnWithoutComplaint s' ∧ s'.HasProperBodiesFrom (s.unreached roots)ᶜ ∧
              i.blamesNode = false := by
  have proper := parseProgram_proper parsed
  refine ⟨proper, fun host frame s roots start bodies hhost depth => ?_⟩
  let R : Regime := .ofStart False True False ∅ roots s
  have sound : R.Sound s := by
    refine Regime.sound_start (fun _ _ _ _ _ _ _ _ => ⟨False.elim, False.elim⟩) ?_ (by simp)
    intro r hr f cell reaches found _
    have body := bodies r hr f cell reaches found
    exact ⟨body.conforms, body.sorted⟩
  have reached : .frame frame ∉ R.garbage := Store.root_not_mem_unreached start
  have shapes : ∀ n ∈ program.children, R.Has Node.isStatement n :=
    fun n hn _ => statements_of_conforms proper.conforms proper.sorted n hn
  refine ⟨fun m passes => (fits_of_passes hhost sound reached shapes passes).blamesNone trivial rfl,
    ?_⟩
  have ends := runWith_obeys (Task.runTo_keeps hhost depth) reached shapes sound
  cases hrun : runWith (Task.runTo host depth) program frame s with
  | ok results s' =>
    rw [hrun] at ends
    exact ⟨ends.1.goesOnWithoutComplaint trivial rfl, ends.1.hasProperBodiesFrom trivial⟩
  | error i s' =>
    rw [hrun] at ends
    exact ⟨ends.1.goesOnWithoutComplaint trivial rfl, ends.1.hasProperBodiesFrom trivial,
      ends.2.blamesNode_eq_false trivial⟩

/-- The text `f(1);`, read and then run where nothing is bound. -/
theorem walks_what_is_read_of_call :
    ∃ program, parseProgram "f(1);" = .ok program ∧ program.Proper (·.isOf .program) ∧
      .frame 0 ∈ ({.frame 0} : Set Site) ∧ Store.blank.HasProperBodiesFrom {.frame 0} ∧
      Host.bare.KeepsToShapes {.frame 0} Store.blank ∧
      (∀ m, Passes .bare 9 program 0 Store.blank m → m.BlamesNone Store.blank) ∧
      match runWith (Task.runTo .bare 9) program 0 Store.blank with
      | .ok _ s' => Store.blank.GoesOnWithoutComplaint s' ∧
          s'.HasProperBodiesFrom (Store.blank.unreached {.frame 0})ᶜ
      | .error i s' => Store.blank.GoesOnWithoutComplaint s' ∧
          s'.HasProperBodiesFrom (Store.blank.unreached {.frame 0})ᶜ ∧ i.blamesNode = false := by
  have reads : (parseProgram "f(1);").isOk = true := by decide +kernel
  have start : .frame 0 ∈ ({.frame 0} : Set Site) := Set.mem_singleton _
  have bodies : Store.blank.HasProperBodiesFrom {.frame 0} := fun _ _ f cell _ found => by
    simp [Store.blank, Store.empty, Store.openFrame, Store.newFrame, Store.newObject] at found
  cases parsed : parseProgram "f(1);" with
  | error e => simp [parsed, Except.isOk, Except.toBool] at reads
  | ok program =>
    have whole := walks_what_is_read parsed
    exact ⟨program, rfl, whole.1, start, bodies, Host.bare_keeps _,
      whole.2 .bare 0 Store.blank {.frame 0} start bodies (Host.bare_keeps _) 9⟩

end Program

end Scriptlet
