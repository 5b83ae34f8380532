import Scriptlet.Proofs.Unwinding.Mark
import Scriptlet.Property

/-!
# What access comes to

Reading an item of a list or a text and writing one go through the same steps: the key may give
an index; if it does not, its text may be the name of the length; and otherwise it is the name
of a method, or nothing that can be written. Here each of these ways is followed to its end.

Up to the point where a list is changed nothing in the store is, so whatever goes wrong before
leaves it as it was.
-/

namespace Scriptlet

/-- A step **succeeds** in a store if it is not interrupted. -/
def Step.Succeeds (step : Step α) (s : Store) : Prop :=
  ∃ a s', step s = .ok a s'

/-- A step **only looks** if it leaves the store as it is, however it ends. -/
def Step.OnlyLooks (step : Step α) : Prop :=
  step.Keeps fun s s' => s' = s

namespace Step

variable {s : Store} {ref : ListRef} {key v : Value}

/-! ## Looking -/

theorem OnlyLooks.of_ok {step : Step α} (h : step.OnlyLooks) {s s' : Store} {a : α}
    (ends : step s = .ok a s') : s' = s :=
  Keeps.of_ok h ends

theorem OnlyLooks.of_error {step : Step α} (h : step.OnlyLooks) {s s' : Store} {i : Interrupt}
    (ends : step s = .error i s') : s' = s :=
  Keeps.of_error h ends

theorem OnlyLooks.pure (a : α) : OnlyLooks (Pure.pure a : Step α) :=
  fun _ => rfl

theorem OnlyLooks.bind {step : Step α} {next : α → Step β} (first : step.OnlyLooks)
    (second : ∀ a, (next a).OnlyLooks) : OnlyLooks (step >>= next) :=
  first.bindOf (fun h h' => h'.trans h) fun a _ _ _ => second a

theorem ofExcept_onlyLooks (x : Except Unmet α) : (ofExcept x).OnlyLooks := by
  cases x with
  | ok a => exact fun _ => rfl
  | error u => exact fun _ => rfl

theorem read_onlyLooks (f : Store → Except Unmet α) : (read f).OnlyLooks :=
  .bind (fun _ => rfl) fun _ => ofExcept_onlyLooks _

theorem room_onlyLooks (n : Nat) : (room n).OnlyLooks :=
  .bind (ofExcept_onlyLooks _) fun _ => .pure _

theorem lengthOf_onlyLooks (v : Value) : (lengthOf v).OnlyLooks := by
  refine .bind (read_onlyLooks _) fun n => .bind (ofExcept_onlyLooks _) fun x => ?_
  split
  · split <;> exact .pure _
  · exact fun _ => rfl

theorem ofExcept_eq_ok {x : Except Unmet α} {a : α} {s' : Store} :
    ofExcept x s = .ok a s' ↔ x = .ok a ∧ s' = s := by
  cases x with
  | ok b =>
    constructor
    · rintro ⟨⟩
      exact ⟨rfl, rfl⟩
    · rintro ⟨⟨⟩, rfl⟩
      rfl
  | error u => exact iff_of_false nofun nofun

/-- There is room for what is below the limit. -/
theorem room_of_lt {n : Nat} (h : n < memoryLimit) : room n s = .ok () s := by
  have counted : (Demand.count n).isExcessive = false := by
    refine decide_eq_false (Nat.not_lt_of_le ?_)
    rw [Int.natAbs_natCast]
    exact Nat.le_trans (Nat.le_of_lt h) (by decide)
  have held : (Demand.memory n).isExcessive = false := decide_eq_false (Nat.not_le_of_lt h)
  have given : (countOf n >>= reserve) = .ok n := by
    rw [countOf, Demand.meet_of_allowed counted]
    show reserve n = _
    rw [reserve, Demand.meet_of_allowed held]
    rfl
  exact bind_of_ok (ofExcept_of_ok given)

/-! ## Succeeding -/

/-- One step after another succeeds if the second does where the first leaves off. -/
theorem Succeeds.after {step : Step α} {next : α → Step β} {s' : Store} {a : α}
    (first : step s = .ok a s') (second : (next a).Succeeds s') : (step >>= next).Succeeds s := by
  obtain ⟨b, s'', ends⟩ := second
  exact ⟨b, s'', (bind_of_ok first).trans ends⟩

/-! ## Reading items -/

theorem methodOrUndefined_succeeds (name : Text) : (methodOrUndefined v name).Succeeds s := by
  unfold methodOrUndefined
  split
  · exact ⟨_, _, rfl⟩
  · exact ⟨_, _, rfl⟩

variable {items : List Value} {i : Nat}

/-- Under an index there is the item, if there is one. -/
theorem getItem_of_index (h : key.index? = .ok (some i)) :
    getItem v items key s = .ok (Value.ofOption items[i]?) s :=
  bind_of_ok (ofExcept_of_ok h)

/-- Under a name there is the length or a method. -/
theorem getItem_of_name (h : key.index? = .ok none) {name : Text} (named : s.keyOf key = .ok name) :
    getItem v items key s =
      if name == "length" then .ok (.int items.length) s else methodOrUndefined v name s := by
  unfold getItem
  rw [bind_of_ok (ofExcept_of_ok h)]
  refine (bind_of_ok (read_of_ok named)).trans ?_
  split
  · rfl
  · rfl

/-! ## Writing items -/

/-- The items with others cut off or undefined ones added, up to a length. -/
def resized (items : List Value) (n : Nat) : List Value :=
  items.take n ++ List.replicate (n - items.length) Value.undefined

/-- **What becomes of a write to a list**: an item is written or the length, or the store stays
as it is, but for a warning in the log. -/
inductive WritesItem (ref : ListRef) (key v : Value) (s : Store) :
    EStateM.Result Interrupt Store Value → Prop
  | item {index : Nat} (found : key.index? = .ok (some index)) :
    WritesItem ref key v s (.ok v (s.setItems ref (putItem (s.items ref) index v)))
  | length {n : Nat} (noIndex : key.index? = .ok none) (named : s.keyOf key = .ok "length")
    (isLength : lengthOf v s = .ok n s) :
    WritesItem ref key v s (.ok v (s.setItems ref (resized (s.items ref) n)))
  | fails (text : Text) :
    WritesItem ref key v s (.ok .failure (s.note ⟨.warning, .property, text⟩))
  | stops (interrupt : Interrupt) : WritesItem ref key v s (.error interrupt s)

/-- A step that only looks goes on in the same store, or the write stops. -/
theorem WritesItem.after {step : Step α} {next : α → Step Value} (looks : step.OnlyLooks)
    (goesOn : ∀ a, step s = .ok a s → WritesItem ref key v s (next a s)) :
    WritesItem ref key v s ((step >>= next) s) := by
  cases h : step s with
  | ok a s' =>
    obtain rfl := looks.of_ok h
    rw [bind_of_ok h]
    exact goesOn a h
  | error interrupt s' =>
    obtain rfl := looks.of_error h
    rw [bind_of_error h]
    exact .stops interrupt

theorem setLength_writesItem (noIndex : key.index? = .ok none)
    (named : s.keyOf key = .ok "length") :
    WritesItem ref key v s ((setLength ref v >>= fun _ => pure v) s) := by
  unfold setLength
  rw [bind_assoc]
  refine .after (lengthOf_onlyLooks v) fun n isLength => ?_
  rw [bind_assoc]
  refine .after (fun _ => rfl) fun s' here => ?_
  cases here
  rw [bind_assoc]
  exact .after (room_onlyLooks _) fun _ _ => .length noIndex named isLength

theorem setItem_writesItem (s : Store) (ref : ListRef) (key v : Value) :
    WritesItem ref key v s (setItem ref key v s) := by
  refine .after (ofExcept_onlyLooks _) fun index? reads => ?_
  have index := (ofExcept_eq_ok.mp reads).1
  cases index? with
  | some i =>
    refine .after (fun _ => rfl) fun s' here => ?_
    cases here
    exact .after (room_onlyLooks _) fun _ _ => .item index
  | none =>
    refine .after (read_onlyLooks _) fun name reads => ?_
    have named : s.keyOf key = .ok name := (ofExcept_eq_ok.mp reads).1
    split
    · rename_i isLength
      rw [beq_iff_eq.mp isLength] at named
      exact setLength_writesItem index named
    · exact .after (read_onlyLooks _) fun shown _ => .fails _

end Step

end Scriptlet
