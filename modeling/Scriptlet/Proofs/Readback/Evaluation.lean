import Scriptlet.Proofs.Readback.Datum
import Scriptlet.Proofs.Readback.Parsing
import Scriptlet.Walk

/-!
# Evaluating literals of data

Evaluating a literal of data makes new lists and objects, and leaves those that are there
as they are, and all frames. So what the store holds at the value of an element it still
holds when the other elements have been evaluated, and at the end it holds the data at the
value of the whole.

The only name in a literal is `undefined`. Nothing reserves it, and its value is undefined
only because no frame around binds it; hence the literal is evaluated in a frame that binds
nothing.
-/

namespace Scriptlet

/-! ## Stores that grow -/

/-- A store **grows** into another, which keeps all lists and objects, and has the same
frames. -/
structure Store.Grows (s s' : Store) : Prop where
  lists {ref : ListRef} {values : List Value} :
    s.lists[ref]? = some values → s'.lists[ref]? = some values
  objects {ref : ObjectRef} {members : Entries} :
    s.objects[ref]? = some members → s'.objects[ref]? = some members
  frames : s'.frames = s.frames

namespace Store

variable {s s' s'' : Store}

theorem Grows.refl (s : Store) : s.Grows s :=
  ⟨id, id, rfl⟩

theorem Grows.trans (h : s.Grows s') (h' : s'.Grows s'') : s.Grows s'' :=
  ⟨h'.lists ∘ h.lists, h'.objects ∘ h.objects, h'.frames.trans h.frames⟩

theorem getElem?_push_of_some {xs : Array α} {x y : α} {i : Nat} (h : xs[i]? = some x) :
    (xs.push y)[i]? = some x := by
  obtain ⟨small, -⟩ := Array.getElem?_eq_some_iff.mp h
  rw [Array.getElem?_push_lt small, ← Array.getElem?_eq_getElem small, h]

theorem grows_newList (s : Store) (items : List Value) : s.Grows (s.newList items).2 :=
  ⟨getElem?_push_of_some, id, rfl⟩

theorem grows_newObject (s : Store) (entries : Entries) : s.Grows (s.newObject entries).2 :=
  ⟨id, getElem?_push_of_some, rfl⟩

/-- **What a store holds it holds when it has grown.** -/
theorem Holds.grow {d : Datum} {v : Value} (h : s.Holds d v) (grows : s.Grows s') :
    s'.Holds d v := by
  induction d generalizing v with
  | undefined | null | bool | int | text => cases h; constructor
  | list items ih =>
    cases h with
    | list held each =>
      exact .list (grows.lists held) (forall₂_of_mem each fun d hd v hv => ih d hd hv)
  | object entries ih =>
    cases h with
    | object held each =>
      refine .object (grows.objects held) (forall₂_of_mem each fun entry he member hm => ?_)
      cases hm with
      | mk key hv => exact .mk key (ih _ he hv)

theorem HoldsEntry.grow {entry : Text × Datum} {member : Key × Value} (h : s.HoldsEntry entry member)
    (grows : s.Grows s') : s'.HoldsEntry entry member := by
  cases h with
  | mk key hv => exact .mk key (hv.grow grows)

/-- What holds data is no failure. -/
theorem Holds.orUndefined {d : Datum} {v : Value} (h : s.Holds d v) : v.orUndefined = v := by
  cases h <;> rfl

/-! ## Frames that bind nothing -/

/-- A frame **binds nothing**, and there is none around it. -/
def BindsNothing (s : Store) (frame : FrameRef) : Prop :=
  ∃ cell, s.frames[frame]? = some cell ∧ cell.parent = none ∧ s.objects[cell.bindings]? = some []

theorem BindsNothing.grow {frame : FrameRef} (h : s.BindsNothing frame) (grows : s.Grows s') :
    s'.BindsNothing frame := by
  obtain ⟨cell, found, outermost, empty⟩ := h
  exact ⟨cell, grows.frames ▸ found, outermost, grows.objects empty⟩

/-- Every name is undefined there. -/
theorem BindsNothing.lookup {frame : FrameRef} (h : s.BindsNothing frame) (name : Text) :
    s.lookup frame name = .undefined := by
  obtain ⟨cell, found, outermost, empty⟩ := h
  have bindings : s.bindings frame = [] := by
    rw [Store.bindings, found, Option.map_some, entries_of_getElem? empty, Option.getD_some]
  have unbound : s.binds frame name = false := by
    rw [binds, bindings]
    rfl
  have alone : s.parent? frame = none := by
    simp [parent?, found, outermost]
  have binder : s.binder? frame name = none := by
    rw [binder?, firstFrame?, if_neg (Bool.eq_false_iff.mp unbound)]
    split
    · rfl
    · rename_i parent around
      cases alone.symm.trans around
  rw [Store.lookup, binder]

end Store

/-! ## Steps that yield something -/

namespace Step

/-- A step **yields** something from a store: it gives a result with a property, and the store
only grows. -/
def Yields (s : Store) (P : α → Store → Prop) (step : Step α) : Prop :=
  ∃ a s', step s = .ok a s' ∧ s.Grows s' ∧ P a s'

variable {s : Store} {P Q : α → Store → Prop} {P' : β → Store → Prop}

theorem Yields.pure {a : α} (h : P a s) : Yields s P (Pure.pure a : Step α) :=
  ⟨a, s, rfl, .refl s, h⟩

/-- **One step after another.** -/
theorem Yields.bind {step : Step α} {next : α → Step β} (first : step.Yields s Q)
    (second : ∀ a s', s.Grows s' → Q a s' → (next a).Yields s' P') :
    Yields s P' (step >>= next) := by
  obtain ⟨a, s', here, grows, ha⟩ := first
  obtain ⟨b, s'', there, grows', hb⟩ := second a s' grows ha
  refine ⟨b, s'', ?_, grows.trans grows', hb⟩
  show EStateM.bind step next s = _
  rw [EStateM.bind, here]
  exact there

theorem Yields.ofExcept {x : Except Unmet α} {a : α} (hx : x = .ok a) (h : P a s) :
    (Step.ofExcept x).Yields s P := by
  subst hx
  exact .pure h

/-- No error comes out, so none is set at a position. -/
theorem Yields.locating {step : Step α} (position : Option Position) (h : step.Yields s P) :
    (Step.locating position step).Yields s P := by
  obtain ⟨a, s', here, grows, ha⟩ := h
  refine ⟨a, s', ?_, grows, ha⟩
  show EStateM.tryCatch step _ s = _
  rw [EStateM.tryCatch, here]

end Step

/-! ## Literals of data -/

open Step

/-- **Evaluating a literal yields the data**, with a given runner. -/
def Datum.IsYielded (d : Datum) (run : Runner) (frame : FrameRef) : Prop :=
  ∀ n, d.Literal n → ∀ s : Store, s.BindsNothing frame →
    (run (.eval n frame)).Yields s fun v s' => s'.Holds d v

namespace Walk

variable {run : Runner} {frame : FrameRef} {s : Store}

/-- A literal of data is neither a hole nor spread. -/
theorem elementItems_literal {d : Datum} {n : Node} (h : d.Literal n) :
    elementItems run frame n = (do return [(← run (.eval n frame)).orUndefined]) := by
  cases h <;> rfl

/-- The elements are evaluated to the items of a list. -/
theorem listItems_yields {items : List Datum} {elements : List Node}
    (each : List.Forall₂ Datum.Literal items elements) (ih : ∀ d ∈ items, d.IsYielded run frame)
    (empty : s.BindsNothing frame) :
    (listItems run frame elements).Yields s fun values s' => List.Forall₂ s'.Holds items values := by
  induction each generalizing s with
  | nil => exact .pure .nil
  | @cons d n items elements literal _ others =>
    obtain ⟨here, more⟩ := List.forall_mem_cons.mp ih
    rw [listItems, elementItems_literal literal]
    refine Yields.bind (Q := fun values s' => ∃ v, values = [v] ∧ s'.Holds d v) ?_ ?_
    · exact (here n literal s empty).bind fun v s' _ hv => .pure ⟨v, by rw [hv.orUndefined], hv⟩
    · rintro _ s' grows ⟨v, rfl, hv⟩
      exact (others more (empty.grow grows)).bind fun values s'' grows' hvalues =>
        .pure (.cons (hv.grow grows') hvalues)

/-- The value of a property is none that a key would name. -/
theorem propertyValue_yields {d : Datum} {n : Node} (key : Text)
    (h : (run (.eval n frame)).Yields s fun v s' => s'.Holds d v) :
    (propertyValue run key n frame).Yields s fun v s' => s'.Holds d v := by
  refine h.bind fun v s' _ hv => ?_
  cases hv with
  | undefined => exact .pure .undefined
  | null => exact .pure .null
  | bool b => exact .pure (.bool b)
  | int n => exact .pure (.int n)
  | text t => exact .pure (.text t)
  | list held each => exact .pure (.list held each)
  | object held each => exact .pure (.object held each)

/-- A key that is new comes last. -/
theorem put_of_notMem {entries : Entries} {keys : List Text} {key : Text} (v : Value)
    (same : entries.map Prod.fst = keys.map Key.text) (new : key ∉ keys) :
    entries.put (.text key) v = entries ++ [(.text key, v)] := by
  induction entries generalizing keys with
  | nil => rfl
  | cons entry entries ih =>
    cases keys with
    | nil => cases same
    | cons first keys =>
      obtain ⟨here, more⟩ := List.cons.inj same
      have different : entry.1.same (.text key) = false := by
        rw [here]
        exact beq_eq_false_iff_ne.mpr (List.ne_of_not_mem_cons new).symm
      rw [Entries.put, different, if_neg nofun, ih more (List.not_mem_of_not_mem_cons new)]
      rfl

theorem keys_of_holdsEntry {entries : List (Text × Datum)} {members : Entries}
    (each : List.Forall₂ s.HoldsEntry entries members) :
    members.map Prod.fst = (entries.map Prod.fst).map Key.text := by
  induction each with
  | nil => rfl
  | cons first _ ih =>
    cases first
    rw [List.map_cons, ih]
    rfl

/-- A property that is a literal of a key with data puts them under the key. -/
theorem objectEntries_literal {entry : Text × Datum} {property : Node}
    (h : Datum.LiteralEntry entry property) (basic : ∀ c ∈ entry.1, isBasic c = true) :
    ∃ n, entry.2.Literal n ∧ ∀ members rest,
      objectEntries run frame members (property :: rest) = (do
        let v ← propertyValue run entry.1 n frame
        objectEntries run frame (members.put (.text entry.1) v) rest) := by
  cases h with
  | word key p q literal => exact ⟨_, literal, fun _ _ => rfl⟩
  | quoted key p q literal =>
    refine ⟨_, literal, fun members rest => ?_⟩
    show (do
      let v ← propertyValue run (stringValue key.quoted) _ frame
      objectEntries run frame (members.put (.text (stringValue key.quoted)) v) rest) = _
    rw [stringValue_quoted basic]

/-- The properties are evaluated to the entries of an object, one after another. -/
theorem objectEntries_yields {done entries : List (Text × Datum)} {properties : List Node}
    {members : Entries} (each : List.Forall₂ Datum.LiteralEntry entries properties)
    (ih : ∀ entry ∈ entries, entry.2.IsYielded run frame)
    (basic : ∀ entry ∈ entries, ∀ c ∈ entry.1, isBasic c = true)
    (distinct : ((done ++ entries).map Prod.fst).Nodup) (empty : s.BindsNothing frame)
    (held : List.Forall₂ s.HoldsEntry done members) :
    (objectEntries run frame members properties).Yields s fun members s' =>
      List.Forall₂ s'.HoldsEntry (done ++ entries) members := by
  induction each generalizing s done members with
  | nil =>
    rw [List.append_nil]
    exact .pure held
  | @cons entry property entries properties first _ others =>
    obtain ⟨here, more⟩ := List.forall_mem_cons.mp ih
    obtain ⟨basicKey, basic⟩ := List.forall_mem_cons.mp basic
    obtain ⟨n, literal, opened⟩ := objectEntries_literal first basicKey
    rw [opened]
    refine (propertyValue_yields entry.1 (here n literal s empty)).bind fun v s' grows hv => ?_
    have held' : List.Forall₂ s'.HoldsEntry done members := held.imp fun _ _ h => h.grow grows
    have new : entry.1 ∉ done.map Prod.fst := by
      intro old
      rw [List.map_append, List.map_cons] at distinct
      exact (List.nodup_append.mp distinct).2.2 _ old _ List.mem_cons_self rfl
    rw [put_of_notMem v (keys_of_holdsEntry held') new]
    rw [← List.singleton_append, ← List.append_assoc] at distinct ⊢
    exact others more basic distinct (empty.grow grows)
      (List.rel_append held' (.cons (.mk entry.1 hv) .nil))

/-! ## All literals -/

end Walk

theorem Task.runTo_branch_yields {host : Host} {depth : Nat} {kind : Kind} {p : Option Position}
    {children : List Node} {frame : FrameRef} {s : Store} {P : Value → Store → Prop}
    (h : (Walk.branch (Task.runTo host depth) kind children frame).Yields s P) :
    (Task.runTo host (depth + 1) (.eval (.branch kind p children) frame)).Yields s P :=
  h.locating p

theorem Walk.literal_number (text : Text) (q : Position) :
    literal [.leaf .number text q] = Value.number <$> Step.ofExcept (numberOfText text) :=
  rfl

theorem Walk.unary_minus {run : Runner} {frame : FrameRef} (operand : Node) (q : Position) :
    unary run [.leaf .operator "-" q, operand] frame = (do
      match ← run (.eval operand frame) with
      | .failure => return .failure
      | v => Step.read fun s => s.applyUnary .minus v) :=
  rfl

/-- The numeral of a natural number. -/
theorem Task.runTo_numeral_yields {host : Host} {depth n : Nat} {p : Option Position} {q : Position}
    {frame : FrameRef} {s : Store} (small : n ≤ maxSafeInteger) :
    (Task.runTo host (depth + 1) (.eval (.branch .literal p [.leaf .number (Text.ofNat n) q]) frame)).Yields s
      fun v _ => v = .int n := by
  refine runTo_branch_yields ?_
  show (Walk.literal [.leaf .number (Text.ofNat n) q]).Yields s _
  rw [Walk.literal_number, numberOfText_ofNat small]
  exact .pure rfl

/-- The numeral of a natural number after a minus sign. -/
theorem Task.runTo_minus_yields {host : Host} {depth n : Nat} {p p' : Option Position}
    {q q' : Position} {frame : FrameRef} {s : Store} (small : n ≤ maxSafeInteger) (some : n ≠ 0) :
    (Task.runTo host (depth + 2) (.eval (.branch .unary p
        [.leaf .operator "-" q, .branch .literal p' [.leaf .number (Text.ofNat n) q']]) frame)).Yields s
      fun v _ => v = .int (-n) := by
  refine runTo_branch_yields ?_
  show (Walk.unary _ [.leaf .operator "-" q, _] frame).Yields s _
  rw [Walk.unary_minus]
  refine (runTo_numeral_yields small).bind ?_
  rintro _ s' - rfl
  have minus : s'.applyUnary .minus (.int n) = .ok (.int (-n)) := by
    cases n with
    | zero => exact absurd rfl some
    | succ n => rfl
  exact .ofExcept minus rfl

namespace Datum

variable {host : Host} {depth : Nat} {frame : FrameRef} {d : Datum}

theorem int_isYielded {n : Int} (plain : (int n).IsPlain) :
    (int n).IsYielded (Task.runTo host (depth + 2)) frame := by
  intro node literal s _
  rw [IsPlain] at plain
  cases literal with
  | natural h p q =>
    obtain ⟨v, s', hrun, grows, rfl⟩ := Task.runTo_numeral_yields plain
    refine ⟨_, s', hrun, grows, ?_⟩
    rw [Int.natAbs_of_nonneg h]
    exact .int n
  | negative h p p' q q' =>
    obtain ⟨v, s', hrun, grows, rfl⟩ := Task.runTo_minus_yields plain (by omega)
    refine ⟨_, s', hrun, grows, ?_⟩
    rw [show -(n.natAbs : Int) = n by omega]
    exact .int n

theorem text_isYielded {t : Text} (plain : (text t).IsPlain) :
    (text t).IsYielded (Task.runTo host (depth + 1)) frame := by
  intro node literal s _
  rw [IsPlain] at plain
  cases literal with
  | text _ p q =>
    refine Task.runTo_branch_yields ⟨.text (Walk.stringValue t.quoted), s, rfl, .refl s, ?_⟩
    rw [stringValue_quoted plain]
    exact .text t

theorem list_isYielded {items : List Datum}
    (ih : ∀ d ∈ items, d.IsYielded (Task.runTo host depth) frame) :
    (list items).IsYielded (Task.runTo host (depth + 1)) frame := by
  intro node literal s empty
  cases literal with
  | list p each =>
    refine Task.runTo_branch_yields ((Walk.listItems_yields each ih empty).bind fun values s' _ held => ?_)
    have grows := s'.grows_newList values
    exact ⟨_, _, rfl, grows, .list Array.getElem?_push_size (held.imp fun _ _ h => h.grow grows)⟩

theorem object_isYielded {entries : List (Text × Datum)} (plain : (object entries).IsPlain)
    (ih : ∀ entry ∈ entries, entry.2.IsYielded (Task.runTo host depth) frame) :
    (object entries).IsYielded (Task.runTo host (depth + 1)) frame := by
  intro node literal s empty
  rw [IsPlain] at plain
  obtain ⟨distinct, basic, -⟩ := plain
  cases literal with
  | object p each =>
    have members := Walk.objectEntries_yields each ih basic
      (show (([] ++ entries).map Prod.fst).Nodup from distinct) empty .nil
    refine Task.runTo_branch_yields (members.bind fun members s' _ held => ?_)
    have grows := s'.grows_newObject members
    exact ⟨_, _, rfl, grows, .object Array.getElem?_push_size (held.imp fun _ _ h => h.grow grows)⟩

/-- **A literal of plain data yields the data** wherever nothing is bound, as soon as it may be
run one level deeper than the data have levels. -/
theorem isYielded (plain : d.IsPlain) (deep : d.levels ≤ depth) :
    d.IsYielded (Task.runTo host (depth + 1)) frame := by
  obtain ⟨depth, rfl⟩ : ∃ m, depth = m + 1 := ⟨depth - 1, by have := d.levels_pos; omega⟩
  induction d generalizing depth with
  | undefined =>
    intro node literal s empty
    cases literal with
    | undefined p q =>
      refine Task.runTo_branch_yields ⟨_, s, rfl, .refl s, ?_⟩
      rw [empty.lookup]
      exact .undefined
  | null =>
    intro node literal s _
    cases literal
    exact Task.runTo_branch_yields (.pure .null)
  | bool b =>
    intro node literal s _
    cases literal
    cases b
    · exact Task.runTo_branch_yields (.pure (.bool false))
    · exact Task.runTo_branch_yields (.pure (.bool true))
  | int n => exact int_isYielded plain
  | text t => exact text_isYielded plain
  | list items ih =>
    rw [IsPlain] at plain
    refine list_isYielded fun d hd => ?_
    have lower := levels_lt_list hd
    have some := d.levels_pos
    obtain ⟨depth, rfl⟩ : ∃ m, depth = m + 1 := ⟨depth - 1, by omega⟩
    exact ih d hd (plain d hd) depth (by omega)
  | object entries ih =>
    refine object_isYielded plain fun entry he => ?_
    rw [IsPlain] at plain
    have lower := levels_lt_object he
    have some := entry.2.levels_pos
    obtain ⟨depth, rfl⟩ : ∃ m, depth = m + 1 := ⟨depth - 1, by omega⟩
    exact ih entry he (plain.2.2 entry he) depth (by omega)

end Datum

end Scriptlet
