import Scriptlet.Json
import Scriptlet.Proofs.Scope.Running
import Scriptlet.Proofs.Writing

/-!
# What an object has

A program may read an entry of an object, and it may ask the object whether it has one. Reading goes
by the text of a key and, if nothing stands under that, by the number that the key is, since the
host may have put an entry there. Asking goes by the text alone. So an entry that stands under a
number only is read, and still the object does not have it; of all other entries the two agree.

No program can bring such an entry about, for a number becomes a key by the host alone. A program
may do away with one, by writing under the text of the number; after that the two agree there too.
-/

namespace Scriptlet

open Step

/-! ## Reading and asking -/

/-- A key names an entry of an object that stands **under a number only**. -/
def Store.HasNumberOnly (s : Store) (ref : ObjectRef) (key : Value) : Prop :=
  ∃ text, s.keyOf key = .ok text ∧ (s.entries ref).HasNumberOnly key text

/-- Reading from an object **finds a value** that is stored in it: under the text of the key or, where
nothing is under that, under the number that the key is. -/
inductive Store.Finds (s : Store) (ref : ObjectRef) (key : Value) : Value → Prop
  | text {t : Text} {v : Value} (named : s.keyOf key = .ok t)
    (found : (s.entries ref).get? (.text t) = some v) : Finds s ref key v
  | number {n : Number} {t : Text} {v : Value} (isNumber : key = .number n)
    (named : s.keyOf key = .ok t) (missing : (s.entries ref).has (.text t) = false)
    (found : (s.entries ref).get? (.number n) = some v) : Finds s ref key v

/-- What becomes of **reading** from an object under a key **and of asking** the object for it. -/
inductive Store.ReadsAndAsks (s : Store) (ref : ObjectRef) (key : Value) :
    EStateM.Result Interrupt Store Value → EStateM.Result Interrupt Store Value → Prop
  /-- What is stored is read, and the object has it. -/
  | owned {v : Value} (finds : s.Finds ref key v) (other : ¬ s.HasNumberOnly ref key) :
    ReadsAndAsks s ref key (.ok v s) (.ok (.bool true) s)
  /-- What is stored under a number only is read, but the object does not have it. -/
  | numbered {v : Value} (finds : s.Finds ref key v) (only : s.HasNumberOnly ref key) :
    ReadsAndAsks s ref key (.ok v s) (.ok (.bool false) s)
  /-- Nothing is stored: there may be a method, and the object does not have it. -/
  | absent {t : Text} (named : s.keyOf key = .ok t) (missing : ∀ v, ¬ s.Finds ref key v) :
    ReadsAndAsks s ref key (methodOrUndefined (.object ref) t s) (.ok (.bool false) s)
  /-- The key has no text. -/
  | unnamed {u : Unmet} (unread : s.keyOf key = .error u) :
    ReadsAndAsks s ref key (.error (.fault (.unmet u)) s) (.error (.fault (.unmet u)) s)

namespace Store

variable {s : Store} {ref : ObjectRef} {key v : Value} {text : Text}

theorem hasNumberOnly_iff (named : s.keyOf key = .ok text) :
    s.HasNumberOnly ref key ↔ (s.entries ref).HasNumberOnly key text := by
  refine ⟨fun ⟨t, named', only⟩ => ?_, fun only => ⟨text, named, only⟩⟩
  obtain rfl : t = text := Except.ok.inj (named'.symm.trans named)
  exact only

/-- Nothing is found under a key without a text. -/
theorem Finds.exists_keyOf (finds : s.Finds ref key v) : ∃ t, s.keyOf key = .ok t := by
  cases finds with
  | text named _ => exact ⟨_, named⟩
  | number _ named _ _ => exact ⟨_, named⟩

/-- **What is found stands in the slot** that reading goes to. -/
theorem finds_iff (named : s.keyOf key = .ok text) :
    s.Finds ref key v ↔ (s.entries ref).get? ((s.entries ref).slot key text) = some v := by
  by_cases only : (s.entries ref).HasNumberOnly key text
  · obtain ⟨n, rfl, missing, there⟩ := only
    rw [Entries.slot_number missing there]
    refine ⟨fun finds => ?_, .number rfl named missing⟩
    cases finds with
    | text named' found =>
      cases named'.symm.trans named
      rw [← Entries.isSome_get?, found] at missing
      cases missing
    | number isNumber _ _ found =>
      cases isNumber
      exact found
  · rw [Entries.slot_text only]
    refine ⟨fun finds => ?_, .text named⟩
    cases finds with
    | text named' found =>
      cases named'.symm.trans named
      exact found
    | number isNumber named' missing found =>
      cases named'.symm.trans named
      refine absurd ⟨_, isNumber, missing, ?_⟩ only
      rw [← Entries.isSome_get?, found]
      rfl

/-- What is under a number only is found. -/
theorem HasNumberOnly.exists_finds (only : s.HasNumberOnly ref key) : ∃ v, s.Finds ref key v := by
  obtain ⟨t, named, n, rfl, missing, there⟩ := only
  rw [← Entries.isSome_get?] at there
  obtain ⟨v, found⟩ := Option.isSome_iff_exists.mp there
  exact ⟨v, .number rfl named missing found⟩

/-- **Asking goes by the text alone**: what is found is had, unless it is under a number only. -/
theorem has_text_iff (named : s.keyOf key = .ok text) :
    (s.entries ref).has (.text text) = true ↔
      (∃ v, s.Finds ref key v) ∧ ¬ s.HasNumberOnly ref key := by
  rw [hasNumberOnly_iff named]
  constructor
  · intro has
    obtain ⟨v, found⟩ := Option.isSome_iff_exists.mp ((Entries.isSome_get? _ _).trans has)
    refine ⟨⟨v, .text named found⟩, fun ⟨n, _, missing, _⟩ => ?_⟩
    cases missing.symm.trans has
  · rintro ⟨⟨v, finds⟩, other⟩
    rw [finds_iff named, Entries.slot_text other] at finds
    rw [← Entries.isSome_get?, finds]
    rfl

/-- Asking and finding come to the same **except for entries under a number only**. -/
theorem ReadsAndAsks.agree_iff {reads asks : EStateM.Result Interrupt Store Value}
    (h : s.ReadsAndAsks ref key reads asks) :
    (asks = .ok (.bool true) s ↔ ∃ v, s.Finds ref key v) ↔ ¬ s.HasNumberOnly ref key := by
  cases h with
  | owned finds other => exact iff_of_true (iff_of_true rfl ⟨_, finds⟩) other
  | numbered finds only =>
    refine iff_of_false (fun agree => ?_) (not_not_intro only)
    cases agree.mpr ⟨_, finds⟩
  | absent named missing =>
    refine iff_of_true (iff_of_false nofun fun ⟨v, finds⟩ => missing v finds) fun only => ?_
    obtain ⟨v, finds⟩ := only.exists_finds
    exact missing v finds
  | unnamed unread =>
    have noText {t : Text} (named : s.keyOf key = .ok t) : False := by
      cases unread.symm.trans named
    refine iff_of_true (iff_of_false nofun fun ⟨v, finds⟩ => ?_) fun ⟨t, named, _⟩ => noText named
    obtain ⟨t, named⟩ := finds.exists_keyOf
    exact noText named

end Store

namespace ObjectMethod

variable {s : Store} {ref : ObjectRef} {text : Text}

theorem callMethod_eq (run : Runner) (ref : ObjectRef) (args : List Value) :
    callMethod run (.object ref) "hasOwnProperty" args = call ref args .hasOwnProperty :=
  rfl

theorem call_of_named {args : List Value} (named : s.keyOf (argument args 0) = .ok text) :
    call ref args .hasOwnProperty s = .ok (.bool ((s.entries ref).has (.text text))) s :=
  bind_of_ok (read_of_ok named)

theorem call_of_unnamed {args : List Value} {u : Unmet}
    (unread : s.keyOf (argument args 0) = .error u) :
    call ref args .hasOwnProperty s = .error (.fault (.unmet u)) s :=
  bind_of_error (read_of_error unread)

/-- **Reading and asking**, whatever the object and the key. -/
theorem readsAndAsks (s : Store) (ref : ObjectRef) (args : List Value) :
    s.ReadsAndAsks ref (argument args 0) (getProperty (.object ref) (argument args 0) s)
      (call ref args .hasOwnProperty s) := by
  have reads : getProperty (.object ref) (argument args 0) s = getEntry ref (argument args 0) s := rfl
  rw [reads]
  generalize isKey : argument args 0 = key
  cases named : s.keyOf key with
  | error u =>
    rw [getEntry_of_error named, call_of_unnamed (isKey ▸ named)]
    exact .unnamed named
  | ok text =>
    rw [getEntry_of_named named, call_of_named (isKey ▸ named)]
    cases stored : (s.entries ref).get? ((s.entries ref).slot key text) with
    | none =>
      have missing (v : Value) : ¬ s.Finds ref key v := fun finds => by
        cases stored.symm.trans ((Store.finds_iff named).mp finds)
      have notHad : (s.entries ref).has (.text text) = false :=
        Bool.eq_false_of_not_eq_true fun has =>
          have ⟨v, finds⟩ := ((Store.has_text_iff named).mp has).1
          missing v finds
      rw [notHad]
      exact .absent named missing
    | some v =>
      have finds := (Store.finds_iff named).mpr stored
      cases has : (s.entries ref).has (.text text) with
      | true => exact .owned finds ((Store.has_text_iff named).mp has).2
      | false =>
        refine .numbered finds (Classical.byContradiction fun other => ?_)
        cases has.symm.trans ((Store.has_text_iff named).mpr ⟨⟨v, finds⟩, other⟩)

end ObjectMethod

/-! ## Runs -/

/-- What has come to stand under a number only **has stood there before**. -/
theorem Store.KeepsKeys.hasNumberOnly {s s' : Store} (h : s.KeepsKeys s') {ref : ObjectRef}
    {key : Value} (only : s'.HasNumberOnly ref key) : s.HasNumberOnly ref key := by
  obtain ⟨t, named, n, rfl, missing, there⟩ := only
  -- The text of a number does not depend on the store.
  have primitive : (Value.number n).IsPrimitive := trivial
  have same : s.keyOf (.number n) = .ok t := (keyOf_of_isPrimitive primitive s' s).trans named
  refine ⟨t, same, n, rfl, Bool.eq_false_of_not_eq_true fun has => ?_, h.numbers ref n there⟩
  cases missing.symm.trans (h.kept ref (.text t) has)

/-- A host whose functions **keep the keys of objects**, as long as the runner does. -/
def Host.KeepsKeys (host : Host) : Prop :=
  ∀ f run args, (∀ t, (run t).Keeps Store.KeepsKeys) → (host f run args).Keeps Store.KeepsKeys

theorem Host.callingBack_keepsKeys : Host.callingBack.KeepsKeys := by
  intro f run args hrun
  cases args with
  | nil => exact .refl
  | cons callee args => exact hrun (.call callee args)

/-- Running tasks to any depth keeps the keys of objects at every moment. -/
theorem Task.watchedTo_keepsKeys {host : Host} (hhost : host.KeepsKeys) (watch : Moment → Bool)
    (depth : Nat) (t : Task) : (Task.watchedTo host watch depth t).Keeps Store.KeepsKeys :=
  Task.watchedTo_ordered Node.hereditary_true Store.keys_orders
    (fun f run args hrun => hhost f run args fun t => hrun t t.isOf_true) watch depth t.isOf_true

/-- **Running a text** keeps the keys of objects. -/
theorem Program.evaluateAllWith_keepsKeys {run : Runner}
    (hrun : ∀ t, (run t).Keeps Store.KeepsKeys) (source : Text) (context : ObjectRef) :
    (evaluateAllWith run source context).Keeps Store.KeepsKeys := by
  have reads : (read source).Keeps Store.KeepsKeys := by
    intro s
    unfold storeAfter read
    cases parseProgram source <;> exact .refl s
  have opens : (Step.make (·.openFrame context none (some source))).Keeps Store.KeepsKeys :=
    fun _ => .of_eq rfl
  refine reads.bindOf .trans fun program _ _ _ => opens.bindOf .trans fun frame _ _ _ => ?_
  exact (runWith_composed Node.hereditary_true trivial (Set.mem_univ frame)).keeps Store.keys_orders
    fun t _ => hrun t

/-- **The laws of having.** An object has what is found in it unless that stands under a number only;
then it is read, and the object is said not to have it. And at no moment of a run does an entry stand
under a number only that has not stood so before the run. -/
theorem ObjectMethod.hasOwnProperty_agrees (run : Runner) (s : Store) (ref : ObjectRef)
    (args : List Value) :
    let key := argument args 0
    let asks := callMethod run (.object ref) "hasOwnProperty" args s
    s.ReadsAndAsks ref key (getProperty (.object ref) key s) asks ∧
    ((asks = .ok (.bool true) s ↔ ∃ v, s.Finds ref key v) ↔ ¬ s.HasNumberOnly ref key) ∧
    ∀ host : Host, host.KeepsKeys → ∀ (watch : Moment → Bool) (depth : Nat) (source : Text)
      (context : ObjectRef) (s' : Store),
      (Program.evaluateAllWith (Task.watchedTo host watch depth) source context).storeAfter s = s' →
      s'.HasNumberOnly ref key → s.HasNumberOnly ref key := by
  intro key asks
  have answers : s.ReadsAndAsks ref key (getProperty (.object ref) key s) asks :=
    readsAndAsks s ref args
  refine ⟨answers, answers.agree_iff, ?_⟩
  rintro host hhost watch depth source context _ rfl only
  have hrun := Task.watchedTo_keepsKeys hhost watch depth
  exact (Program.evaluateAllWith_keepsKeys hrun source context s).hasNumberOnly only

/-- An object that the host has put an entry into under the number 1, and a context that names it. -/
def Store.handedIn : Store :=
  ((Store.empty.newObject [(.number (.int 1), .text "one")]).2.newObject
    [(bindingKey "m", .object 0)]).2

theorem Store.keyOf_one (s : Store) : s.keyOf (.int 1) = .ok "1" := by
  have text : (Number.int 1).display = .ok "1" := Except.eq_ok_of_toOption (by decide +kernel)
  show s.keyOf (.number (.int 1)) = _
  rw [keyOf, textOf, textFrom, text]

/-- What is left of a run that writes the entry, and another one. -/
def Store.afterWriting : Store :=
  (Program.evaluateAllWith (Task.watchedTo .callingBack (fun _ => false) 9)
    "m[1] = 'two'; m['a'] = m[1]" 1).storeAfter Store.handedIn

/-- The entry still stands under the number only after that. -/
theorem ObjectMethod.hasOwnProperty_agrees_of_written :
    Host.callingBack.KeepsKeys ∧ Store.afterWriting.HasNumberOnly 0 (.int 1) ∧
      Store.handedIn.HasNumberOnly 0 (.int 1) ∧
      callMethod (Task.runTo .bare 0) (.object 0) "hasOwnProperty" [.text "a"] Store.afterWriting =
        .ok (.bool true) Store.afterWriting := by
  have only : Store.afterWriting.HasNumberOnly 0 (.int 1) :=
    ⟨"1", Store.keyOf_one _, .int 1, rfl, by decide +kernel, by decide +kernel⟩
  obtain ⟨-, -, runs⟩ := hasOwnProperty_agrees (Task.runTo .bare 0) Store.handedIn 0 [.int 1]
  have before := runs .callingBack Host.callingBack_keepsKeys _ 9 _ 1 Store.afterWriting rfl only
  have other : ¬ Store.afterWriting.HasNumberOnly 0 (.text "a") := fun ⟨_, _, _, isNumber, _⟩ => by
    cases isNumber
  have has : (Store.afterWriting.entries 0).has (.text "a") = true := by decide +kernel
  have finds := ((Store.has_text_iff (Store.textOf_text Store.afterWriting "a")).mp has).1
  obtain ⟨-, agrees, -⟩ := hasOwnProperty_agrees (Task.runTo .bare 0) Store.afterWriting 0 [.text "a"]
  exact ⟨Host.callingBack_keepsKeys, only, before, (agrees.mpr other).mpr finds⟩

/-- From the object as the host has handed it in the entry is read under 1, and it does not have 1. -/
theorem ObjectMethod.not_hasOwnProperty_of_number :
    getProperty (.object 0) (.int 1) Store.handedIn = .ok (.text "one") Store.handedIn ∧
      Store.handedIn.Finds 0 (.int 1) (.text "one") ∧
      ¬ (callMethod (Task.runTo .bare 0) (.object 0) "hasOwnProperty" [.int 1] Store.handedIn =
          .ok (.bool true) Store.handedIn ↔ ∃ v, Store.handedIn.Finds 0 (.int 1) v) := by
  have named := Store.handedIn.keyOf_one
  have finds : Store.handedIn.Finds 0 (.int 1) (.text "one") := .number rfl named rfl rfl
  refine ⟨(getEntry_of_named named).trans rfl, finds, fun agree => ?_⟩
  have asks : call 0 [.int 1] .hasOwnProperty Store.handedIn = .ok (.bool false) Store.handedIn :=
    call_of_named named
  cases asks.symm.trans (agree.mpr ⟨_, finds⟩)

/-! ## Contexts given as JSON -/

mutual

theorem Json.toValue_keepsKeys (s : Store) : (x : Json) → s.KeepsKeys (x.toValue s).2
  | .null | .bool _ | .number _ | .text _ => .refl s
  | .array items => (toValues_keepsKeys s items).trans (.of_eq rfl)
  | .object members =>
    have ⟨kept, texts⟩ := toEntries_keepsKeys s members
    kept.trans (.newObject texts)

theorem Json.toValues_keepsKeys (s : Store) :
    (items : List Json) → s.KeepsKeys (Json.toValues s items).2
  | [] => .refl s
  | x :: rest => (x.toValue_keepsKeys s).trans (toValues_keepsKeys _ rest)

theorem Json.toEntries_keepsKeys (s : Store) : (members : List (Text × Json)) →
    s.KeepsKeys (Json.toEntries s members).2 ∧ (Json.toEntries s members).1.OnlyTexts
  | [] => ⟨.refl s, .nil⟩
  | (key, x) :: rest =>
    have ⟨kept, texts⟩ := toEntries_keepsKeys (x.toValue s).2 rest
    ⟨(x.toValue_keepsKeys s).trans kept, List.forall_mem_cons.mpr ⟨⟨key, rfl⟩, texts⟩⟩

end

/-- **In a context given as JSON** nothing stands under a number only, nor does it come to. So at every
moment of a run an object has just what is found in it. -/
theorem ObjectMethod.asks_iff_finds_of_json {host : Host} (hhost : host.KeepsKeys)
    (watch : Moment → Bool) (depth : Nat) (source : Text) (members : List (Text × Json))
    {context : ObjectRef} {s s' : Store} (made : Store.empty.newContext members = (context, s))
    (leaves :
      (Program.evaluateAllWith (Task.watchedTo host watch depth) source context).storeAfter s = s')
    (run : Runner) (ref : ObjectRef) (args : List Value) :
    callMethod run (.object ref) "hasOwnProperty" args s' = .ok (.bool true) s' ↔
      ∃ v, s'.Finds ref (argument args 0) v := by
  have before : Store.empty.KeepsKeys s := by
    obtain ⟨kept, texts⟩ := Json.toEntries_keepsKeys .empty members
    cases made
    exact kept.trans (.newObject texts)
  have runs : s.KeepsKeys s' := by
    have hrun := Task.watchedTo_keepsKeys hhost watch depth
    rw [← leaves]
    exact Program.evaluateAllWith_keepsKeys hrun source context s
  rw [callMethod_eq]
  refine (readsAndAsks s' ref args).agree_iff.mpr fun only => ?_
  obtain ⟨_, _, n, _, _, there⟩ := (before.trans runs).hasNumberOnly only
  have none : Store.empty.entries ref = [] := rfl
  rw [none] at there
  cases there

end Scriptlet
