import Scriptlet.Proofs.Locality
import Scriptlet.Proofs.Unwinding.Doing

/-!
# Closed attributes are out of reach

An attribute of an object of the host is closed if its name starts with two underscores. No
program gets at such an attribute, whatever value it makes the name of: two contexts that differ
in nothing else look the same to it, and it leaves both of them with the closed attributes that
they had.

What the host does is another matter, since it may look at whatever it likes. Its objects are
spelled and shown as it pleases, and a program can use that as a name; so of two stores that are to
look the same it is asked that their objects *show themselves openly*, which is to say that closed
attributes play no part in it. Of the functions of the host it is asked what is shown of programs:
that they *ignore* closed attributes, as long as what they are given to run does.

A step that ignores them is one that is unaware of what is hidden under a veil that hides nothing
but closed attributes, and that leaves them alone even if they are not hidden. This is how the one
kind of statement, about any two stores, is made of the other, about a store and the same store
concealed.
-/

namespace Scriptlet

/-! ## Open parts -/

/-- The **open part** of a store: it has all that there is but the closed attributes. -/
def Store.openPart (s : Store) : Store :=
  { s with hosts := s.hosts.map fun cell =>
      { cell with attributes := cell.attributes.filter fun a => isOpenAttribute a.1 } }

/-- The **closed attributes** of an object of the host. -/
def Store.closedAttributes (s : Store) (ref : HostRef) : List (Text × Value) :=
  (s.attributes ref).filter fun a => !isOpenAttribute a.1

/-- Objects of a kind **show themselves openly** if their closed attributes play no part in how they
are spelled and shown. -/
structure HostKind.ShowsOpenly (kind : HostKind) : Prop where
  text : ∀ ref attributes,
    kind.text ref (attributes.filter fun a => isOpenAttribute a.1) = kind.text ref attributes
  description : ∀ ref attributes,
    kind.description ref (attributes.filter fun a => isOpenAttribute a.1) =
      kind.description ref attributes

/-- All objects of the host in a store **show themselves openly**. -/
def Store.ShowsOpenly (s : Store) : Prop :=
  ∀ kind ∈ s.hostKinds, kind.ShowsOpenly

/-- From one store to another the closed attributes **are kept**: they are what they were, and
nothing new has any. No object of the host is taken back, and no run is begun. -/
structure Store.KeepsClosed (s s' : Store) : Prop where
  attributes : ∀ ref, s'.closedAttributes ref = s.closedAttributes ref
  hosts : s.hosts.size ≤ s'.hosts.size
  run : s'.run = s.run

/-- A step **ignores closed attributes**. -/
structure Step.IgnoresClosed (step : Step α) : Prop where
  /-- From stores with the same open part, in which objects show themselves openly, it comes to the
  same end, but for closed attributes. -/
  alike : ∀ s t, s.ShowsOpenly → s.openPart = t.openPart →
    Step.mapEnd Store.openPart (step s) = Step.mapEnd Store.openPart (step t)
  /-- It keeps them. -/
  keeps : step.Keeps Store.KeepsClosed
  /-- Where objects show themselves openly, so do those that it makes. -/
  shows : step.Keeps fun s s' => s.ShowsOpenly → s'.ShowsOpenly
  /-- It is not halted from outside. -/
  unhalted : ∀ s s', step s ≠ .error .halted s'

/-- A runner **ignores closed attributes** if each task does. -/
def Runner.IgnoresClosed (run : Runner) : Prop :=
  ∀ task, (run task).IgnoresClosed

/-- A host whose functions **ignore closed attributes**, as long as what they run does. -/
def Host.IgnoresClosed (host : Host) : Prop :=
  ∀ f run args, run.IgnoresClosed → (host f run args).IgnoresClosed

variable {s s' t : Store}

theorem Store.KeepsClosed.refl (s : Store) : s.KeepsClosed s :=
  ⟨fun _ => rfl, Nat.le_refl _, rfl⟩

theorem Step.IgnoresClosed.throw {i : Interrupt} (h : i ≠ .halted) :
    Step.IgnoresClosed (MonadExcept.throw i : Step α) where
  alike _ _ _ same := congrArg (EStateM.Result.error i) same
  keeps s := .refl s
  shows _ := id
  unhalted _ _ ended := by
    cases ended
    exact h rfl

theorem Host.callingBack_ignoresClosed : Host.callingBack.IgnoresClosed := by
  intro f run args hrun
  cases args with
  | nil => exact .throw nofun
  | cons callee args => exact hrun (.call callee args)

/-! ## The veil over closed attributes -/

/-- The veil over **closed attributes**, for a run that starts in a store. It leaves them alone,
whether or not it `hides` them. Nothing else of that store is of interest. -/
def Veil.overClosed (hides : Bool) (start : Store) : Veil where
  garbage := ∅
  context := none
  used _ := true
  hidden _ := false
  attributes name := hides && !isOpenAttribute name
  spared name := !isOpenAttribute name
  start := { Store.empty with hosts := start.hosts, run := start.run }
  usesThis := rfl
  hidden_unused _ _ := rfl
  attributes_closed _ isOpen := by rw [isOpen, Bool.not_true, Bool.and_false]
  spared_closed _ isOpen := by rw [isOpen]; rfl

section OverClosed

variable {hides : Bool} {start : Store}

theorem Veil.overClosed_barsNothing (hides : Bool) (start : Store) :
    (overClosed hides start).BarsNothing :=
  ⟨rfl, rfl, fun _ => rfl⟩

theorem Veil.veiledAttributes_overClosed (start : Store) :
    (overClosed true start).veiledAttributes = List.filter fun a => isOpenAttribute a.1 := by
  funext attributes
  simp [veiledAttributes, overClosed]

/-- Concealing a store leaves its open part, -/
theorem Veil.conceal_overClosed (start : Store) :
    (overClosed true start).conceal = Store.openPart := by
  funext s
  have entries : (overClosed true start).veiledEntries = fun _ entries => entries := by
    funext ref entries
    exact if_neg (Option.some_ne_none ref).symm
  simp only [conceal, Store.openPart, veiledAttributes_overClosed, entries, Store.mk.injEq,
    true_and, and_true]
  exact Array.mapIdx_eq_iff.mpr fun i => by simp

/-- or all of it. -/
theorem Veil.conceal_overClosed_false (start s : Store) : (overClosed false start).conceal s = s :=
  conceal_eq_self (fun _ => rfl) (fun _ => rfl) s

/-- The kinds that fit are those whose objects show themselves openly, -/
theorem Veil.fitsKind_overClosed_iff {kind : HostKind} :
    (overClosed true start).FitsKind kind ↔ kind.ShowsOpenly := by
  have veiled := veiledAttributes_overClosed start
  constructor
  · rintro ⟨text, description⟩
    rw [veiled] at text description
    exact ⟨text, description⟩
  · rintro ⟨text, description⟩
    rw [← veiled] at text description
    exact ⟨text, description⟩

/-- and the sound stores are those to which the closed attributes of the start **have been
kept**. -/
theorem Veil.sound_overClosed_iff : (overClosed hides start).Sound s ↔
    start.KeepsClosed s ∧ (hides = true → s.ShowsOpenly) := by
  constructor
  · refine fun h => ⟨⟨h.untouched.attributes, Nat.le_of_not_lt fun lt =>
      Nat.lt_irrefl _ (h.there (.host s.hosts.size) lt), h.untouched.run⟩, ?_⟩
    rintro rfl kind isIn
    exact fitsKind_overClosed_iff.mp (h.kinds kind isIn)
  · rintro ⟨h, shows⟩
    refine (overClosed_barsNothing hides start).sound (fun p hp => ?_) (fun kind isIn => ?_) {
      functions := fun _ _ found => nomatch found
      frames := fun _ _ found => nomatch found
      run := h.run
      bindings := nofun
      attributes := h.attributes }
    · cases p with
      | host ref => exact Nat.lt_of_lt_of_le hp h.hosts
      | _ => exact absurd hp (Nat.not_lt_zero _)
    · cases hides with
      | false => exact fitsKind (fun _ => rfl) kind
      | true => exact fitsKind_overClosed_iff.mpr (shows rfl kind isIn)

/-- What is left of the closed attributes in an open part is nothing. -/
theorem Store.closedAttributes_openPart (s : Store) (ref : HostRef) :
    s.openPart.closedAttributes ref = [] := by
  have attributes : s.openPart.attributes ref =
      (s.attributes ref).filter fun a => isOpenAttribute a.1 := by
    simp only [Store.attributes, openPart, Array.getElem?_map]
    cases s.hosts[ref]? <;> rfl
  rw [closedAttributes, attributes, List.filter_filter]
  simp

/-- A store without closed attributes is its own open part. -/
theorem Store.openPart_eq_self (h : ∀ ref, s.closedAttributes ref = []) : s.openPart = s := by
  have hosts : s.hosts.map (fun cell : HostCell =>
      { cell with attributes := cell.attributes.filter fun a => isOpenAttribute a.1 }) = s.hosts := by
    refine Array.ext_getElem? fun ref => ?_
    rw [Array.getElem?_map]
    cases found : s.hosts[ref]? with
    | none => rfl
    | some cell =>
      have none := h ref
      simp only [closedAttributes, attributes, found, Option.map_some, Option.getD_some,
        List.filter_eq_nil_iff, Bool.not_eq_true', Bool.not_eq_false] at none
      rw [Option.map_some, List.filter_eq_self.mpr none]
  rw [openPart, hosts]

theorem Store.openPart_openPart (s : Store) : s.openPart.openPart = s.openPart :=
  openPart_eq_self s.closedAttributes_openPart

/-- Stores with the same open part have objects of the same kinds. -/
theorem Store.ShowsOpenly.of_openPart_eq (shows : s.ShowsOpenly) (same : s.openPart = t.openPart) :
    t.ShowsOpenly := by
  have kinds (s : Store) : s.openPart.hostKinds = s.hostKinds := by
    rw [hostKinds, openPart, Array.map_map]
    rfl
  unfold ShowsOpenly
  rw [← kinds t, ← same, kinds s]
  exact shows

/-! ## Ignoring and being unaware -/

theorem Store.KeepsClosed.trans (first : s.KeepsClosed s') (second : s'.KeepsClosed t) :
    s.KeepsClosed t where
  attributes ref := (second.attributes ref).trans (first.attributes ref)
  hosts := Nat.le_trans first.hosts second.hosts
  run := second.run.trans first.run

/-- A step of which the store afterwards stays as it is has an end that stays so. -/
theorem Step.mapEnd_eq_self {step : Step α} {f : Store → Store}
    (h : f (step.storeAfter s) = step.storeAfter s) : Step.mapEnd f (step s) = step s := by
  unfold storeAfter at h
  cases ends : step s with
  | ok a s' => exact congrArg (EStateM.Result.ok a) (by simpa only [ends] using h)
  | error i s' => exact congrArg (EStateM.Result.error i) (by simpa only [ends] using h)

/-- What ignores closed attributes and is run in an open part ends as it does in the whole, but for
these. -/
theorem Step.IgnoresClosed.openPart {step : Step α} (h : step.IgnoresClosed)
    (shows : s.ShowsOpenly) : step s.openPart = Step.mapEnd Store.openPart (step s) := by
  -- Run in an open part, the step leaves no closed attributes, so its end is open as well.
  have bare : (step.storeAfter s.openPart).openPart = step.storeAfter s.openPart :=
    Store.openPart_eq_self fun ref =>
      ((h.keeps s.openPart).attributes ref).trans (s.closedAttributes_openPart ref)
  rw [← mapEnd_eq_self bare]
  exact (h.alike s s.openPart shows s.openPart_openPart.symm).symm

/-- A step **ignores closed attributes** just if it is unaware of them, wherever the run started and
whether or not they are hidden. -/
theorem Step.ignoresClosed_iff {step : Step α} : step.IgnoresClosed ↔
    ∀ hides start s, step.Unaware (.overClosed hides start) s fun _ => True := by
  constructor
  · intro h hides start s hs
    obtain ⟨kept, shows⟩ := Veil.sound_overClosed_iff.mp hs
    have keeps : (Veil.overClosed hides start).Sound (step.storeAfter s) :=
      Veil.sound_overClosed_iff.mpr ⟨kept.trans (h.keeps s), fun hidden => h.shows s (shows hidden)⟩
    constructor
    · cases hides with
      | false =>
        rw [Veil.conceal_overClosed_false]
        exact (mapEnd_eq_self (Veil.conceal_overClosed_false start _)).symm
      | true =>
        rw [Veil.concealEnd, Veil.conceal_overClosed]
        exact h.openPart (shows rfl)
    · have unhalted := h.unhalted s
      unfold storeAfter at keeps
      cases ends : step s with
      | ok a s' => exact ⟨by simpa only [ends] using keeps, trivial⟩
      | error i s' =>
        refine ⟨by simpa only [ends] using keeps, ?_⟩
        cases i with
        | returned v => exact (Veil.overClosed_barsNothing hides start).fits v
        | halted => exact unhalted s' ends
        | _ => trivial
  · intro h
    have own (s : Store) := h false s s (Veil.sound_overClosed_iff.mpr ⟨.refl s, nofun⟩)
    have covered (s : Store) (shows : s.ShowsOpenly) :=
      h true s s (Veil.sound_overClosed_iff.mpr ⟨.refl s, fun _ => shows⟩)
    refine ⟨fun s t shows same => ?_, fun s => ?_, fun s shows => ?_, fun s s' ended => ?_⟩
    · have left := (covered s shows).1
      have right := (covered t (shows.of_openPart_eq same)).1
      rw [Veil.concealEnd, Veil.conceal_overClosed] at left right
      rw [← left, ← right, same]
    · exact (Veil.sound_overClosed_iff.mp (Program.sound_storeAfter (own s).2)).1
    · have sound := Program.sound_storeAfter (covered s shows).2
      exact (Veil.sound_overClosed_iff.mp sound).2 rfl
    · have allows := (own s).2
      rw [ended] at allows
      exact allows.2

theorem Runner.ignoresClosed_iff {run : Runner} :
    run.IgnoresClosed ↔ ∀ hides start, run.Unaware (.overClosed hides start) := by
  constructor
  · intro h hides start
    have unaware (task : Task) (s : Store) : (run task).Unaware (.overClosed hides start) s
        (Veil.overClosed hides start).Fits :=
      (Step.ignoresClosed_iff.mp (h task) hides start s).mono fun v _ =>
        (Veil.overClosed_barsNothing hides start).fits v
    exact ⟨fun _ _ => unaware _ _, fun _ _ _ => unaware _ _, fun _ _ => unaware _ _⟩
  · intro h task
    refine Step.ignoresClosed_iff.mpr fun hides start s => ?_
    have bars := Veil.overClosed_barsNothing hides start
    cases task with
    | eval n frame =>
      exact ((h hides start).eval (bars.reached _) (bars.speaks n)).mono fun _ _ => trivial
    | activate f args receiver constructs =>
      exact ((h hides start).activate (bars.fits _) (fun v _ => bars.fits v) fun v _ =>
        bars.fits v).mono fun _ _ => trivial
    | call callee args =>
      exact ((h hides start).call (bars.fits _) fun v _ => bars.fits v).mono fun _ _ => trivial

end OverClosed

/-! ## Tasks and programs -/

section Runs

variable {host : Host} (ignores : host.IgnoresClosed)
include ignores

/-- **One level of a run** ignores closed attributes if the levels below do. -/
theorem Task.perform_ignoresClosed {run : Runner} (hrun : run.IgnoresClosed) :
    Runner.IgnoresClosed fun task => task.perform host run := by
  -- The functions of the host are given this runner and no other.
  let given : Host := fun f _ args => host f run args
  have same : (fun task : Task => task.perform host run) = fun task => task.perform given run := by
    funext task
    cases task <;> rfl
  rw [same]
  refine Runner.ignoresClosed_iff.mpr fun hides start =>
    perform_unaware (fun f _ args s _ _ => ?_) (Runner.ignoresClosed_iff.mp hrun hides start)
  exact (Step.ignoresClosed_iff.mp (ignores f run args hrun) hides start s).mono fun v _ =>
    (Veil.overClosed_barsNothing hides start).fits v

/-- **Running tasks to any depth** ignores closed attributes. -/
theorem Task.runTo_ignoresClosed (depth : Nat) : Runner.IgnoresClosed (Task.runTo host depth) := by
  induction depth with
  | zero => exact fun _ => .throw nofun
  | succ depth ih => exact perform_ignoresClosed ignores ih

namespace Program

/-- A text that is run in the open part of a store comes to the open part of what it comes to in
the store, if objects show themselves openly there; and the closed attributes are those of the
start. -/
theorem evaluateAllWith_openPart (depth : Nat) (source : Text) (context : ObjectRef) (s : Store) :
    let ends := evaluateAllWith (Task.runTo host depth) source context
    (s.ShowsOpenly → ends s.openPart = Step.mapEnd Store.openPart (ends s)) ∧
      ∀ ref, (ends.storeAfter s).closedAttributes ref = s.closedAttributes ref := by
  intro ends
  cases parsed : parseProgram source with
  | error e =>
    have fails (s : Store) : ends s = .error (.malformed e) s := by
      simp only [ends, evaluateAllWith_eq, parsed]
    refine ⟨fun _ => by rw [fails, fails, Step.mapEnd], fun ref => ?_⟩
    rw [Step.storeAfter, fails]
  | ok program =>
    have opens (s : Store) : ends s =
        runWith (Task.runTo host depth) program (s.openFrame context none (some source)).1
          (s.openFrame context none (some source)).2 := by
      simp only [ends, evaluateAllWith_eq, parsed]
    let opened := (s.openFrame context none (some source)).2
    let V (hides : Bool) := Veil.overClosed hides { opened with run := opened.run + 1 }
    have ran (hides : Bool) (shows : hides = true → s.ShowsOpenly) :=
      have bars : (V hides).BarsNothing := Veil.overClosed_barsNothing hides _
      runWith_conceal
        (Runner.ignoresClosed_iff.mp (Task.runTo_ignoresClosed ignores depth) hides _)
        (bars.reached (.frame (s.openFrame context none (some source)).1)) (bars.speaks program)
        (Veil.sound_overClosed_iff.mpr ⟨.refl _, shows⟩)
    refine ⟨fun shows => ?_, fun ref => ?_⟩
    · have same := (ran true fun _ => shows).1
      rw [Veil.concealEnd, Veil.conceal_overClosed] at same
      rw [opens, opens, ← same]
      rfl
    · have sound := sound_storeAfter (ran false fun hidden => absurd hidden Bool.false_ne_true).2
      have kept := (Veil.sound_overClosed_iff.mp sound).1.attributes ref
      rw [Step.storeAfter, opens]
      exact kept

end Program

end Runs

/-! ## Keys -/

section Keys

variable {key : Value} {name : Text}

/-- What goes on with a key that has a name goes on with that name. -/
theorem Step.read_keyOf_bind {next : Text → Step α} (named : s.keyOf key = .ok name) :
    (Step.read (·.keyOf key) >>= next) s = next name s := by
  have reads : Step.read (·.keyOf key) s = .ok name s := by
    change Step.ofExcept (s.keyOf key) s = .ok name s
    rw [named]
    rfl
  exact Step.bind_of_ok reads

variable (named : s.keyOf key = .ok name) (closed : isOpenAttribute name = false)
include named closed

/-- To read a closed attribute gives undefined, whether or not there is one. -/
theorem Step.getProperty_of_closed (ref : HostRef) :
    Step.getProperty (.host ref) key s = .ok .undefined s := by
  refine (read_keyOf_bind named).trans ?_
  rw [getPart, closed]
  rfl

/-- To write one is a failure of which the log tells. -/
theorem Step.setProperty_of_closed (ref : HostRef) (v : Value) :
    Step.setProperty (.host ref) key v s = .ok .failure (s.note ⟨.warning, .property,
      "Cannot set property " ++ name.quoted ++ " on a host object"⟩) := by
  refine (read_keyOf_bind named).trans ?_
  rw [setPart, closed]
  rfl

end Keys

namespace Program

/-- **Closed attributes are out of reach.** Two stores that differ in nothing but closed attributes,
and in which objects of the host show themselves openly, are told apart by no text that is run in
them: both runs come to the same results or the same error, to the same log and, but for these
attributes, to the same store. Whatever objects show, the closed attributes are what they were after
any run. There is no value, of whatever type and whatever it is spelled like, that is a key to one
of them: to read under it gives undefined and to write under it is a failure. -/
theorem closedAttributes_out_of_reach {host : Host} (ignores : host.IgnoresClosed) (depth : Nat)
    (source : Text) (context : ObjectRef) :
    let ends := evaluateAllWith (Task.runTo host depth) source context
    (∀ s t : Store, s.ShowsOpenly → s.openPart = t.openPart →
      Step.mapEnd Store.openPart (ends s) = Step.mapEnd Store.openPart (ends t)) ∧
    (∀ s ref, (ends.storeAfter s).closedAttributes ref = s.closedAttributes ref) ∧
    ∀ (s : Store) key name, s.keyOf key = .ok name → isOpenAttribute name = false → ∀ ref,
      Step.getProperty (.host ref) key s = .ok .undefined s ∧
      ∀ v, Step.setProperty (.host ref) key v s = .ok .failure (s.note ⟨.warning, .property,
        "Cannot set property " ++ name.quoted ++ " on a host object"⟩) := by
  intro ends
  have runs := evaluateAllWith_openPart ignores depth source context
  refine ⟨fun s t shows same => ?_, fun s => (runs s).2, fun s key name named closed ref => ?_⟩
  · rw [← (runs s).1 shows, ← (runs t).1 (shows.of_openPart_eq same), same]
  · exact ⟨Step.getProperty_of_closed named closed ref,
      Step.setProperty_of_closed named closed ref⟩

/-- The text `h[h]++; h[k] = h.size; g(k.push, h)`, where `h` is spelled `__s`, which is the name of
its own closed attribute, `k` is the list `['__s']`, and `g` calls back. The attribute is one or
another. -/
theorem closedAttributes_out_of_reach_of_spelling :
    let source : Text := "h[h]++; h[k] = h.size; g(k.push, h)"
    let name : Text := "__s"
    let kind : HostKind := ⟨"Named", fun _ _ => name, fun _ _ => "<named>", []⟩
    let size : Text × Value := ("size", .int 1)
    let store (held : Value) : Store :=
      (((Store.empty.newList [.text name]).2.newHostCell ⟨kind, [size, (name, held)]⟩).2.newObject
        [(bindingKey "h", .host 0), (bindingKey "k", .list 0),
          (bindingKey "g", .native ⟨"g", "g", "function", none, 1⟩)]).2
    let s := store (.int 5)
    let t := store .null
    let ends := evaluateAllWith (Task.runTo .callingBack 9) source 0
    Host.callingBack.IgnoresClosed ∧ s.ShowsOpenly ∧ s.openPart = t.openPart ∧
      Step.mapEnd Store.openPart (ends s) = Step.mapEnd Store.openPart (ends t) ∧
      (ends.storeAfter s).closedAttributes 0 = [(name, .int 5)] ∧
      (ends.storeAfter t).closedAttributes 0 = [(name, .null)] ∧
      s.keyOf (.host 0) = .ok name ∧ s.keyOf (.list 0) = .ok name ∧ isOpenAttribute name = false ∧
      Step.getProperty (.host 0) (.host 0) s = .ok .undefined s ∧
      Step.getProperty (.host 0) (.list 0) s = .ok .undefined s := by
  intro source name kind size store s t ends
  have ignores := Host.callingBack_ignoresClosed
  obtain ⟨alike, kept, keys⟩ := closedAttributes_out_of_reach ignores 9 source 0
  have closed : isOpenAttribute name = false := by decide
  have isOpen : isOpenAttribute size.1 = true := by decide
  have shown (held : Value) :
      [size, (name, held)].filter (fun a => isOpenAttribute a.1) = [size] := by
    simp only [List.filter_cons, isOpen, closed, if_true, Bool.false_eq_true, if_false,
      List.filter_nil]
  have openly : s.ShowsOpenly := by
    intro other isIn
    have kinds : s.hostKinds = #[kind] := by
      simp [s, store, Store.hostKinds, Store.newObject, Store.newHostCell, Store.newList,
        Store.empty]
    obtain rfl : other = kind := Array.mem_singleton.mp (kinds ▸ isIn)
    exact ⟨fun _ _ => rfl, fun _ _ => rfl⟩
  have same : s.openPart = t.openPart := by
    simp [s, t, store, Store.openPart, Store.newObject, Store.newHostCell, Store.newList,
      Store.empty, shown]
  have byItself : s.keyOf (.host 0) = .ok name := Except.eq_ok_of_toOption (by decide +kernel)
  have byList : s.keyOf (.list 0) = .ok name := Except.eq_ok_of_toOption (by decide +kernel)
  exact ⟨ignores, openly, same, alike s t openly same, kept s 0, kept t 0, byItself, byList, closed,
    (keys s (.host 0) name byItself closed 0).1, (keys s (.list 0) name byList closed 0).1⟩

end Program

end Scriptlet
