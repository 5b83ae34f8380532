import Scriptlet.Proofs.HostFree
import Scriptlet.Proofs.Moment
import Scriptlet.Proofs.Unaware.Task
import Scriptlet.Proofs.Unwinding.Mark

/-!
# Runs are local to the names in their text

A program that is run in a context can bind a name there, read it and bind it anew, but
only a name that stands in its text. Whether the context binds any other name makes no difference to
the run: not to its results, its errors or its log, nor to anything that it leaves behind. And
such a binding stays what it is, at every moment of the run.

This holds of contexts from which nothing that can be called is within reach, and no object of
the host: both could know the context by other ways than by names. Nor may the context itself be
within reach of what it binds, since then its bindings would be entries of an object like any
other, and the key of an entry can be computed.
-/

namespace Scriptlet

/-! ## Contexts -/

/-- A value is **inert** if nothing of what it consists of can be called or is an object of the
host. -/
def Value.IsInert (v : Value) : Prop :=
  ∀ w, v.Holds w → w.isCallable = false ∧ ∀ ref, w ≠ .host ref

/-- An object is a **plain context** in a store. -/
structure Store.IsPlainContext (s : Store) (context : ObjectRef) : Prop where
  /-- It is there. -/
  isIn : (Site.object context).IsIn s
  /-- All values within its reach are inert. -/
  inert : ∀ p, s.Reaches (.object context) p → ∀ v ∈ s.held p, v.IsInert
  /-- It cannot be reached from its own values. -/
  apart : ∀ v ∈ s.held (.object context), ∀ p, v.Names p → ¬ s.Reaches p (.object context)

/-- The store in which an object has **no entry for a name**. -/
def Store.unbind (s : Store) (ref : ObjectRef) (name : Text) : Store :=
  s.setEntries ref ((s.entries ref).filter fun e => !e.1.same (bindingKey name))

/-- Whether a program **mentions** a key: its text is among the names in the tree, or is that of
the receiver. -/
def Node.mentions (program : Node) (key : Key) : Bool :=
  key.text?.any fun name => decide (name ∈ program.names) || name == "this"

/-- The entries of an object that a program **does not mention**. -/
def Store.unmentioned (s : Store) (program : Node) (ref : ObjectRef) : Entries :=
  (s.entries ref).filter fun e => !program.mentions e.1

section Context

variable {s : Store} {context : ObjectRef}

/-- An inert value names lists and objects only. -/
theorem Value.IsInert.names {v : Value} (h : v.IsInert) {p : Site} (names : v.Names p) :
    (∃ ref, p = .list ref) ∨ ∃ ref, p = .object ref := by
  obtain ⟨w, holds, site⟩ := names
  obtain ⟨uncallable, noHost⟩ := h w holds
  cases w with
  | list ref => exact .inl ⟨ref, (Option.some.inj site).symm⟩
  | object ref => exact .inr ⟨ref, (Option.some.inj site).symm⟩
  | function | hostMethod => cases uncallable
  | host ref => exact absurd rfl (noHost ref)
  | _ => cases site

namespace Store.IsPlainContext

variable (h : s.IsPlainContext context)
include h

theorem reachesDataOnly : s.ReachesDataOnly context :=
  reachesDataOnly_of_names fun p reaches v hv _ names => (h.inert p reaches v hv).names names

/-- One does not get back to the context. -/
theorem not_leads {p : Site} (reaches : s.Reaches (.object context) p) :
    ¬ s.Leads p (.object context) := by
  intro leads
  rcases reaches.cases_head with rfl | ⟨q, first, rest⟩
  · cases leads with
    | value held names => exact h.apart _ held _ names .refl
  · cases first with
    | value held names => exact h.apart _ held q names (rest.tail leads)

end Store.IsPlainContext

/-- Beginning a run changes nothing about what leads where. -/
theorem Store.leads_of_begun {run : Nat} {p q : Site} (leads : Store.Leads { s with run } p q) :
    s.Leads p q := by
  cases leads with
  | value held names => exact .value (by cases p <;> exact held) names
  | scope found => exact .scope found
  | bindings found => exact .bindings found
  | parent found inside => exact .parent found inside

/-- A run may be begun. -/
theorem Store.IsPlainContext.begun (h : s.IsPlainContext context) (run : Nat) :
    Store.IsPlainContext { s with run } context where
  isIn := h.isIn
  inert p reaches v hv :=
    h.inert p (Relation.ReflTransGen.mono (fun _ _ => leads_of_begun) _ _ reaches) v
      (by cases p <;> exact hv)
  apart v hv p names reaches :=
    h.apart v hv p names (Relation.ReflTransGen.mono (fun _ _ => leads_of_begun) _ _ reaches)

end Context

/-! ## Veils over a context -/

/-- The veil over bindings of a context of **names that a program does not mention**, for a run
that starts in a frame of a store. -/
def Veil.ofContext (program : Node) (context : ObjectRef) (hidden : Text → Bool)
    (unmentioned : ∀ name, program.mentions (bindingKey name) = true → hidden name = false)
    (frame : FrameRef) (start : Store) : Veil where
  garbage := start.unreached {.frame frame}
  context := some context
  used name := program.mentions (bindingKey name)
  hidden
  attributes _ := false
  spared _ := false
  start
  usesThis := by simp [Node.mentions, bindingKey, Key.text?]
  hidden_unused := unmentioned
  attributes_closed _ _ := rfl
  spared_closed _ _ := rfl

section OfContext

variable {s : Store} {context : ObjectRef} {program : Node} {hidden : Text → Bool}
  {unmentioned : ∀ name, program.mentions (bindingKey name) = true → hidden name = false}
  {frame : FrameRef} {start : Store}

/-- A program speaks with the names that it mentions. -/
theorem Veil.speaks_ofContext :
    (Veil.ofContext program context hidden unmentioned frame start).Speaks program :=
  fun name h => by simp [ofContext, Node.mentions, bindingKey, Key.text?, h]

/-- **A run in a plain context starts soundly** under such a veil. -/
theorem Store.IsPlainContext.sound (h : s.IsPlainContext context) (source : Option Text) :
    let frame := (s.openFrame context none source).1
    let start := (s.openFrame context none source).2
    (Veil.ofContext program context hidden unmentioned frame start).Sound start := by
  intro frame start
  let V : Veil := .ofContext program context hidden unmentioned frame start
  have reached {p : Site} (hp : p ∉ V.garbage) (isIn : p.IsIn start) :
      start.Reaches (.frame frame) p ∧ (p = .frame frame ∨ s.Reaches (.object context) p) := by
    obtain ⟨r, rfl, reaches⟩ := Store.exists_reaches hp isIn
    exact ⟨reaches, h.reachesDataOnly.reached_openFrame reaches⟩
  have within {p : Site} (reaches : start.Reaches (.frame frame) p) : p ∉ V.garbage :=
    Store.not_mem_unreached (Set.mem_singleton _) reaches
  refine ⟨?_, fun _ hp => hp, ?_, ?_, ?_, fun kind _ => V.fitsKind (fun _ => rfl) kind, ?_⟩
  · rintro p (hp | ⟨ref, same, rfl⟩)
    · exact hp.1
    · obtain rfl := Option.some.inj same
      exact h.isIn
  · intro p hp v hv w hw
    have isIn : p.IsIn start := Classical.byContradiction fun hout => by
      simp [Store.held_eq_nil hout] at hv
    obtain ⟨reaches, rfl | inside⟩ := reached hp isIn
    · cases hv
    · refine ⟨False.elim, False.elim, fun q site => ?_⟩
      rintro (out | ⟨ref, same, rfl⟩)
      · exact within (reaches.tail (.value hv ⟨w, hw, site⟩)) out
      · obtain rfl := Option.some.inj same
        exact h.not_leads inside (.value (by cases p <;> exact hv) ⟨w, hw, site⟩)
  · intro f cell hf found
    obtain ⟨-, same | inside⟩ := reached hf (Array.getElem?_eq_some_iff.mp found).1
    · cases same
    · rcases h.reachesDataOnly _ inside with ⟨_, same⟩ | ⟨_, same⟩ <;> cases same
  · intro f cell hf found
    obtain ⟨reaches, same | inside⟩ := reached hf (Array.getElem?_eq_some_iff.mp found).1
    · obtain rfl := Site.frame.inj same
      obtain rfl := Option.some.inj (found.symm.trans Store.getElem?_openFrame)
      exact ⟨within (.single (.bindings found)), nofun⟩
    · rcases h.reachesDataOnly _ inside with ⟨_, same⟩ | ⟨_, same⟩ <;> cases same
  · exact V.leftAlone_start

/-- To hide one name is to unbind it. -/
theorem Veil.conceal_ofContext {name : Text}
    {unmentioned : ∀ other, program.mentions (bindingKey other) = true → (other == name) = false} :
    (Veil.ofContext program context (· == name) unmentioned frame start).conceal =
      (·.unbind context name) := by
  funext s
  have hides : (fun e : Key × Value =>
      !(Veil.ofContext program context (· == name) unmentioned frame start).hides e.1) =
      fun e => !e.1.same (bindingKey name) := by
    funext e
    cases e.1 <;> simp [ofContext, Veil.hides, Key.text?, Key.same, bindingKey, Key.number?]
  rw [conceal_eq_setEntries rfl (fun _ => rfl), hides, Store.unbind]

/-- What such a veil leaves alone is what the program does not mention. -/
theorem Veil.LeftAlone.unmentioned_eq
    (h : (Veil.ofContext program context hidden unmentioned frame start).LeftAlone s) :
    s.unmentioned program context = start.unmentioned program context := by
  have alone : (fun e : Key × Value => !program.mentions e.1) =
      fun e => (Veil.ofContext program context hidden unmentioned frame start).leavesAlone e.1 := by
    funext e
    cases e.1 <;> simp [leavesAlone, ofContext, Node.mentions, bindingKey, Key.text?]
  rw [Store.unmentioned, Store.unmentioned, alone]
  exact h.bindings context rfl

end OfContext

/-! ## Moments under a veil -/

/-- The store that there is at a moment. -/
def Moment.store : Moment → Store
  | before _ s | after _ _ s | interrupted _ _ s => s

section Watched

variable {V : Veil} (lifted : ∀ s, V.conceal s = s) {watch : Moment → Bool}
  (quiet : ∀ m, V.Sound m.store → watch m = false)
include lifted quiet

/-- Where nothing is hidden, a watch that objects to no sound store does not interfere. -/
theorem Runner.watched_step {run : Runner} {task : Task} {s : Store} {P : Value → Prop}
    (h : (run task).Unaware V s P) : (run.watched watch task).Unaware V s P := by
  intro hs
  have ends := (h hs).2
  have same : run.watched watch task s = run task s := by
    simp only [watched, quiet (.before task s) hs, Bool.false_eq_true, if_false]
    cases hrun : run task s with
    | ok v s' =>
      rw [hrun] at ends
      simp only [quiet (.after task v s') ends.1, Bool.false_eq_true, if_false]
    | error i s' =>
      rw [hrun] at ends
      simp only [quiet (.interrupted task i s') ends.1, Bool.false_eq_true, if_false]
  refine ⟨?_, same ▸ ends⟩
  rw [lifted, same]
  cases run task s <;> simp [Step.mapEnd, lifted]

theorem Runner.watched_unaware {run : Runner} (hrun : run.Unaware V) :
    (run.watched watch).Unaware V where
  eval reached speaks := watched_step lifted quiet (hrun.eval reached speaks)
  activate callee arguments subject :=
    watched_step lifted quiet (hrun.activate callee arguments subject)
  call fits arguments := watched_step lifted quiet (hrun.call fits arguments)

theorem Task.watchedTo_unaware {host : Host} (hhost : host.Unaware V) (depth : Nat) :
    Runner.Unaware V (Task.watchedTo host watch depth) := by
  induction depth with
  | zero =>
    exact Runner.watched_unaware lifted quiet
      ⟨fun _ _ => .throw trivial, fun _ _ _ => .throw trivial, fun _ _ => .throw trivial⟩
  | succ depth ih => exact Runner.watched_unaware lifted quiet (Task.perform_unaware hhost ih)

end Watched

namespace Program

/-- **At every moment of a run the store is sound** under a veil that hides nothing, if it is
when the run has been begun. -/
theorem sound_of_passes {V : Veil} (lifted : ∀ s, V.conceal s = s) {host : Host}
    (hhost : host.Unaware V) {depth : Nat} {program : Node} {frame : FrameRef} {s : Store}
    {m : Moment} (reached : .frame frame ∉ V.garbage) (speaks : V.Speaks program)
    (hs : V.Sound { s with run := s.run + 1 }) (passes : Passes host depth program frame s m) :
    V.Sound m.store := by
  obtain ⟨watch, only, s', halted⟩ := passes
  refine Classical.byContradiction fun unsound => ?_
  have quiet : ∀ m', V.Sound m'.store → watch m' = false := fun m' sound => by
    cases objects : watch m' with
    | false => rfl
    | true => exact absurd (only m' objects ▸ sound) unsound
  have ends :=
    (runWith_conceal (Task.watchedTo_unaware lifted quiet hhost depth) reached speaks hs).2
  rw [halted] at ends
  exact ends.2

/-! ## Whole runs -/

section Runs

variable {source : Text} {program : Node} {s : Store} {context : ObjectRef}

/-- The veil over a context in a run that **has just been begun** there. -/
def veilOfRun (program : Node) (context : ObjectRef) (hidden : Text → Bool)
    (unmentioned : ∀ name, program.mentions (bindingKey name) = true → hidden name = false)
    (source : Text) (s : Store) : Veil :=
  .ofContext program context hidden unmentioned (s.openFrame context none (some source)).1
    { (s.openFrame context none (some source)).2 with run := s.run + 1 }

variable {hidden : Text → Bool}
  {unmentioned : ∀ name, program.mentions (bindingKey name) = true → hidden name = false}

/-- It is sound then, -/
theorem veilOfRun_sound (plain : s.IsPlainContext context) (source : Text) :
    (veilOfRun program context hidden unmentioned source s).Sound
      { (s.openFrame context none (some source)).2 with run := s.run + 1 } :=
  (plain.begun (s.run + 1)).sound (some source)

/-- and the whole run is unaware of what is hidden. -/
theorem evaluateAllWith_conceal (hidden : Text → Bool)
    (unmentioned : ∀ name, program.mentions (bindingKey name) = true → hidden name = false)
    (parsed : parseProgram source = .ok program) (plain : s.IsPlainContext context) (depth : Nat) :
    let V := veilOfRun program context hidden unmentioned source s
    let opened := s.openFrame context none (some source)
    let ends := evaluateAllWith (Task.runTo .bare depth) source context s
    runWith (Task.runTo .bare depth) program opened.1 (V.conceal opened.2) = V.concealEnd ends ∧
      V.Allows (fun vs => ∀ v ∈ vs, V.Fits v) ends := by
  intro V opened ends
  have run : ends = runWith (Task.runTo .bare depth) program opened.1 opened.2 := by
    simp only [ends, evaluateAllWith_eq, parsed, opened]
  rw [run]
  exact runWith_conceal (Task.runTo_unaware (Host.bare_unaware V) depth)
    (Store.root_not_mem_unreached (Set.mem_singleton _)) Veil.speaks_ofContext
    (veilOfRun_sound plain source)

/-- **Without the binding of a name that is not mentioned** the run is the same. -/
theorem evaluateAllWith_unbind {name : Text} (silent : program.mentions (bindingKey name) = false)
    (parsed : parseProgram source = .ok program) (plain : s.IsPlainContext context) (depth : Nat) :
    evaluateAllWith (Task.runTo .bare depth) source context (s.unbind context name) =
      Step.mapEnd (·.unbind context name)
        (evaluateAllWith (Task.runTo .bare depth) source context s) := by
  have unmentioned (other : Text) (mentioned : program.mentions (bindingKey other) = true) :
      (other == name) = false := by
    simpa using fun same : other = name => by simp [same, silent] at mentioned
  have runs := (evaluateAllWith_conceal (· == name) unmentioned parsed plain depth).1
  simp only [Veil.concealEnd, veilOfRun, Veil.conceal_ofContext] at runs
  rw [← runs, evaluateAllWith_eq, parsed]
  rfl

/-- However a step ends as it should, it leaves a sound store. -/
theorem sound_storeAfter {V : Veil} {P : α → Prop} {step : Step α} (h : V.Allows P (step s)) :
    V.Sound (step.storeAfter s) := by
  unfold Step.storeAfter
  cases ends : step s with
  | ok a s' => exact (ends ▸ h : V.Allows P (.ok a s')).1
  | error i s' => exact (ends ▸ h : V.Allows P (.error i s')).1

end Runs

/-- **Locality.** A text is run in a plain context. Whether the context binds a name that the
program does not mention makes no difference: the results, the errors, the log and all that
there is afterwards are the same but for that binding, and the binding is what it was. At every
moment of the run, and at its end, the entries of the context that the program does not mention
are those that there were at the start. -/
theorem concerns_what_it_mentions {source : Text} {program : Node}
    (parsed : parseProgram source = .ok program) {s : Store} {context : ObjectRef}
    (plain : s.IsPlainContext context) (depth : Nat) :
    let ends := evaluateAllWith (Task.runTo .bare depth) source context
    let opened := s.openFrame context none (some source)
    (∀ name, name ∉ program.names → name ≠ "this" →
      ends (s.unbind context name) = Step.mapEnd (·.unbind context name) (ends s) ∧
      ((ends.storeAfter s).entries context).get? (bindingKey name) =
        (s.entries context).get? (bindingKey name)) ∧
    (∀ m, Passes .bare depth program opened.1 opened.2 m →
      m.store.unmentioned program context = s.unmentioned program context) ∧
    (ends.storeAfter s).unmentioned program context = s.unmentioned program context := by
  intro ends opened
  -- With nothing hidden, the veil tells what is left alone.
  let V : Veil := veilOfRun program context (fun _ => false) (fun _ _ => rfl) source s
  have lifted : ∀ s, V.conceal s = s := Veil.conceal_eq_self (fun _ => rfl) fun _ => rfl
  have alone {s' : Store} (hs : V.Sound s') :
      s'.unmentioned program context = s.unmentioned program context :=
    hs.untouched.unmentioned_eq
  have left := alone
    (sound_storeAfter (evaluateAllWith_conceal _ (fun _ _ => rfl) parsed plain depth).2)
  refine ⟨fun name unused notThis => ?_, fun m passes => ?_, left⟩
  · have silent : program.mentions (bindingKey name) = false := by
      simp [Node.mentions, bindingKey, Key.text?, unused, notThis]
    refine ⟨evaluateAllWith_unbind silent parsed plain depth, ?_⟩
    have kept (entries : Entries) : Entries.get? (entries.filter fun e => !program.mentions e.1)
        (bindingKey name) = entries.get? (bindingKey name) :=
      Veil.get?_filter (p := fun key => !program.mentions key) (by simp [silent])
    rw [← kept, ← kept (s.entries context)]
    exact congrArg (Entries.get? · (bindingKey name)) left
  · exact alone (sound_of_passes lifted (Host.bare_unaware V)
      (Store.root_not_mem_unreached (Set.mem_singleton _)) Veil.speaks_ofContext
      (veilOfRun_sound plain source) passes)

/-- The text `k = (x) => x + 1; m = k(2)`, run in a context that binds `n` to 5. -/
theorem concerns_what_it_mentions_of_call :
    let source : Text := "k = (x) => x + 1; m = k(2)"
    let n : Text := "n"
    let s := (Store.empty.newObject [(bindingKey n, .int 5)]).2
    let ends := evaluateAllWith (Task.runTo .bare 9) source 0
    let opened := s.openFrame 0 none (some source)
    ∃ program, parseProgram source = .ok program ∧ s.IsPlainContext 0 ∧
      n ∉ program.names ∧ n ≠ "this" ∧
      ends (s.unbind 0 n) = Step.mapEnd (·.unbind 0 n) (ends s) ∧
      ((ends.storeAfter s).entries 0).get? (bindingKey n) = some (.int 5) ∧
      (∀ m, Passes .bare 9 program opened.1 opened.2 m →
        m.store.unmentioned program 0 = s.unmentioned program 0) ∧
      (ends.storeAfter s).unmentioned program 0 = s.unmentioned program 0 := by
  intro source n s ends opened
  have names : (parseProgram source).toOption.map (fun program => decide (n ∈ program.names)) =
      some false := by
    decide +kernel
  have held (p : Site) (v : Value) (hv : v ∈ s.held p) : v = .int 5 := by
    cases p with
    | object ref =>
      cases ref <;> simp_all [Store.held, s, Store.entries, Store.newObject, Store.empty]
    | _ => simp_all [Store.held, s, Store.items, Store.attributes, Store.newObject, Store.empty]
  have plain : s.IsPlainContext 0 := by
    refine ⟨Nat.zero_lt_one, fun p _ v hv w hw => ?_, fun v hv p names _ => ?_⟩
    · obtain rfl := held p v hv
      obtain rfl := (Value.holds_iff_eq rfl).mp hw
      exact ⟨rfl, fun _ same => by cases same⟩
    · obtain rfl := held _ v hv
      obtain ⟨w, hw, site⟩ := names
      obtain rfl := (Value.holds_iff_eq rfl).mp hw
      cases site
  cases parsed : parseProgram source with
  | error e => simp [parsed, Except.toOption] at names
  | ok program =>
    have unused : n ∉ program.names := by simpa [parsed, Except.toOption] using names
    obtain ⟨unbound, moments, left⟩ := concerns_what_it_mentions parsed plain 9
    obtain ⟨same, kept⟩ := unbound n unused (by decide)
    exact ⟨program, rfl, plain, unused, by decide, same, kept, moments, left⟩

end Program

end Scriptlet
