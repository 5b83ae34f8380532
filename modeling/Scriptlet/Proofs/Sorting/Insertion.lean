import Mathlib.Data.List.Sort
import Mathlib.Order.Basic
import Scriptlet.Method.List
import Scriptlet.Proofs.Unwinding.Mark

/-!
# Insertion by questions

A list is sorted by asking which of two items comes first, and the answers may be anything: they
come from a step that may change the store, may be interrupted, and may say one thing now and
another later. Whatever they are, the items are put in some order and none is lost or made up. If
they go by a rank of the items, then the order is that of the ranks, and items of one rank stay in
the order in which they were.

Both are proved at once. The answers are assumed to be right only under a condition; where it is
never met nothing is assumed of them, and what is left is that the items are kept.
-/

namespace Scriptlet

/-! ## Stable sorting -/

section Stable

variable {κ : Type} [LinearOrder κ]

/-- Items are **stably sorted** by a rank: the same items stand in the order of their ranks, and
those of one rank in the order in which they stood before. -/
structure StablySorted (rank : Value → κ) (items sorted : List Value) : Prop where
  perm : sorted.Perm items
  ordered : sorted.Pairwise fun a b => rank a ≤ rank b
  stable : ∀ k, sorted.filter (rank · = k) = items.filter (rank · = k)

variable {rank : Value → κ} {items sorted : List Value} {item : Value}

/-- Items that stand in the order of their ranks are sorted already. -/
theorem StablySorted.of_ordered (h : items.Pairwise fun a b => rank a ≤ rank b) :
    StablySorted rank items items :=
  ⟨.refl items, h, fun _ => rfl⟩

/-- Of items whose ranks decrease at most one has a given rank. -/
theorem filter_rank_reverse (h : items.Pairwise fun a b => rank b < rank a) (k : κ) :
    items.reverse.filter (rank · = k) = items.filter (rank · = k) := by
  rw [List.filter_reverse]
  match same : items.filter (rank · = k) with
  | [] | [_] => rfl
  | a :: b :: rest =>
    have among {v : Value} (hv : v ∈ a :: b :: rest) : rank v = k := by
      rw [← same] at hv
      exact of_decide_eq_true (List.mem_filter.mp hv).2
    have decreasing := h.filter (rank · = k)
    rw [same] at decreasing
    have less := List.rel_of_pairwise_cons decreasing (List.mem_cons_self (a := b) (l := rest))
    rw [among List.mem_cons_self, among (List.mem_cons_of_mem _ List.mem_cons_self)] at less
    exact absurd less (lt_irrefl k)

/-- Items whose ranks decrease are sorted when they are turned round. -/
theorem StablySorted.reverse (h : items.Pairwise fun a b => rank b < rank a) :
    StablySorted rank items items.reverse where
  perm := items.reverse_perm
  ordered := (List.pairwise_reverse.mpr h).imp le_of_lt
  stable := filter_rank_reverse h

omit [LinearOrder κ] in
/-- Wherever an item is inserted, it is added. -/
theorem perm_insert (h : sorted.Perm items) (place : Nat) :
    (sorted.take place ++ item :: sorted.drop place).Perm (items ++ [item]) := by
  have moved : (sorted.take place ++ item :: sorted.drop place).Perm
      (item :: (sorted.take place ++ sorted.drop place)) := List.perm_middle
  rw [List.take_append_drop] at moved
  exact moved.trans ((h.cons item).trans (List.perm_append_singleton item items).symm)

/-- **An item is inserted** behind those of its rank and of lower ones. -/
theorem StablySorted.insert {place : Nat} (h : StablySorted rank items sorted)
    (front : ∀ v ∈ sorted.take place, rank v ≤ rank item)
    (back : ∀ v ∈ sorted.drop place, rank item < rank v) :
    StablySorted rank (items ++ [item]) (sorted.take place ++ item :: sorted.drop place) where
  perm := perm_insert h.perm place
  ordered := by
    have both := h.ordered
    rw [← List.take_append_drop place sorted] at both
    obtain ⟨first, second, across⟩ := List.pairwise_append.mp both
    refine List.pairwise_append.mpr ⟨first, List.pairwise_cons.mpr
      ⟨fun v hv => le_of_lt (back v hv), second⟩, fun v hv w hw => ?_⟩
    rcases List.mem_cons.mp hw with rfl | hw
    · exact front v hv
    · exact across v hv w hw
  stable k := by
    rw [List.filter_append, List.filter_append, ← h.stable]
    by_cases same : rank item = k
    · -- Behind the item there is none of its rank.
      have none : (sorted.drop place).filter (rank · = k) = [] := by
        refine List.filter_eq_nil_iff.mpr fun v hv equal => ?_
        exact absurd (back v hv) (by rw [of_decide_eq_true equal, same]; exact lt_irrefl k)
      have whole : sorted.filter (rank · = k) = (sorted.take place).filter (rank · = k) := by
        conv_lhs => rw [← List.take_append_drop place sorted, List.filter_append, none]
        exact List.append_nil _
      rw [List.filter_cons_of_pos (by simpa using same), none, whole,
        List.filter_cons_of_pos (by simpa using same)]
      rfl
    · rw [List.filter_cons_of_neg (by simpa using same), List.filter_cons_of_neg (by simpa using same),
        ← List.filter_append, List.take_append_drop]
      exact (List.append_nil _).symm

end Stable

/-! ## What a step ensures -/

/-- A step **ensures** something of its result from any store that meets a condition, and the
condition is met afterwards. It is interrupted only as it may be. -/
def Step.Ensures (step : Step α) (I : Store → Prop) (may : Interrupt → Store → Prop)
    (P : α → Prop) : Prop :=
  ∀ s, I s → match step s with
    | .ok a s' => I s' ∧ P a
    | .error i s' => may i s'

namespace Step.Ensures

variable {I : Store → Prop} {may : Interrupt → Store → Prop} {P : α → Prop} {Q : β → Prop}

theorem pure {a : α} (h : P a) : Ensures (Pure.pure a : Step α) I may P :=
  fun _ hs => ⟨hs, h⟩

/-- One step after another. -/
theorem bind {step : Step α} {next : α → Step β} (first : step.Ensures I may P)
    (second : ∀ a, P a → (next a).Ensures I may Q) : (step >>= next).Ensures I may Q := by
  intro s hs
  have here := first s hs
  cases ends : step s with
  | ok a s' =>
    rw [ends] at here
    rw [bind_of_ok ends]
    exact second a here.2 s' here.1
  | error i s' =>
    rw [ends] at here
    rw [bind_of_error ends]
    exact here

theorem mono {P' : α → Prop} {step : Step α} (h : step.Ensures I may P) (weaker : ∀ a, P a → P' a) :
    step.Ensures I may P' := by
  intro s hs
  have here := h s hs
  cases ends : step s with
  | ok a s' =>
    rw [ends] at here
    exact ⟨here.1, weaker a here.2⟩
  | error i s' =>
    rw [ends] at here
    exact here

theorem of_ok {step : Step α} (h : step.Ensures I may P) {s s' : Store} {a : α} (hs : I s)
    (ends : step s = .ok a s') : I s' ∧ P a := by
  have here := h s hs
  rwa [ends] at here

theorem of_error {step : Step α} (h : step.Ensures I may P) {s s' : Store} {i : Interrupt} (hs : I s)
    (ends : step s = .error i s') : may i s' := by
  have here := h s hs
  rwa [ends] at here

end Step.Ensures

/-! ## Runs -/

section Questions

open Step

variable {κ : Type} [LinearOrder κ] {precedes : Precedes} {I : Store → Prop}
  {may : Interrupt → Store → Prop} {right : Prop} {rank : Value → κ} {items : List Value}

/-- Ranks that fall, or do not fall, do so throughout. -/
theorem decide_rank_trans {a b c : Value} {falls : Bool} (first : decide (rank a < rank b) = falls)
    (second : decide (rank b < rank c) = falls) : decide (rank a < rank c) = falls := by
  cases falls with
  | true =>
    exact decide_eq_true ((of_decide_eq_true first).trans (of_decide_eq_true second))
  | false =>
    have ge := not_lt.mp (of_decide_eq_false first)
    have ge' := not_lt.mp (of_decide_eq_false second)
    exact decide_eq_false (not_lt.mpr (ge'.trans ge))

variable (asks : ∀ a ∈ items, ∀ b ∈ items,
  (precedes a b).Ensures I may fun answer => right → answer = decide (rank a < rank b))
include asks

/-- A run is what the items begin with, backwards; where the answers are right its ranks all fall,
or none of them does. -/
theorem takeRun_ensures (descending : Bool) {last : Value} (taken : List Value) {rest : List Value}
    (whole : taken.reverse ++ rest = items) (head : taken.head? = some last)
    (falls : right → taken.Pairwise fun a b => decide (rank a < rank b) = descending) :
    (takeRun precedes descending last taken rest).Ensures I may fun run =>
      run.1.reverse ++ run.2 = items
      ∧ (right → run.1.Pairwise fun a b => decide (rank a < rank b) = descending) := by
  induction rest generalizing last taken with
  | nil => exact .pure ⟨whole, falls⟩
  | cons item rest ih =>
    have last_mem : last ∈ taken := List.mem_of_mem_head? head
    have next : item ∈ items := by
      rw [← whole]
      exact List.mem_append_right _ List.mem_cons_self
    have before : last ∈ items := by
      rw [← whole]
      exact List.mem_append_left _ (List.mem_reverse.mpr last_mem)
    refine (asks item next last before).bind fun answer isRight => ?_
    split
    · rename_i goesOn
      refine ih _ (by rw [List.reverse_cons, List.append_assoc]; exact whole) rfl fun hr => ?_
      have first : decide (rank item < rank last) = descending :=
        (isRight hr).symm.trans (beq_iff_eq.mp goesOn)
      refine List.pairwise_cons.mpr ⟨fun v hv => ?_, falls hr⟩
      obtain ⟨tail, rfl⟩ : ∃ tail, taken = last :: tail := List.head?_eq_some_iff.mp head
      rcases List.mem_cons.mp hv with rfl | hv
      · exact first
      · exact decide_rank_trans first (List.rel_of_pairwise_cons (falls hr) hv)
    · exact .pure ⟨whole, falls⟩

/-- The run with which the items begin is kept, and it is sorted if the answers are right. -/
theorem firstRun_ensures :
    (firstRun precedes items).Ensures I may fun run =>
      ∃ front, front ++ run.2 = items ∧ run.1.Perm front
        ∧ (right → StablySorted rank front run.1) := by
  match items with
  | [] => exact .pure ⟨[], rfl, .refl _, fun _ => .of_ordered .nil⟩
  | [item] => exact .pure ⟨[item], rfl, .refl _, fun _ => .of_ordered (List.pairwise_singleton _ _)⟩
  | first :: second :: rest =>
    refine (asks second (by simp) first (by simp)).bind fun descending isRight => ?_
    refine (takeRun_ensures asks descending [second, first] rfl rfl fun hr => ?_).bind
      fun run ⟨whole, falls⟩ => .pure ⟨_, whole, ?_, fun hr => ?_⟩
    · refine List.pairwise_cons.mpr ⟨fun v hv => ?_, List.pairwise_singleton _ _⟩
      rw [List.mem_singleton.mp hv, isRight hr]
    · cases descending with
      | true => exact (List.reverse_perm _).symm
      | false => exact .refl _
    · have ranks := falls hr
      cases descending with
      | true =>
        have sorted : StablySorted rank run.1.reverse run.1.reverse.reverse :=
          .reverse (List.pairwise_reverse.mpr (ranks.imp of_decide_eq_true))
        rwa [List.reverse_reverse] at sorted
      | false =>
        refine .of_ordered (List.pairwise_reverse.mpr (ranks.imp fun notLess => ?_))
        exact not_lt.mp (of_decide_eq_false notLess)

/-! ## Places -/

/-- A place among sorted items **suits** an item if none before it has a higher rank and all from it
on do. -/
structure Suits (rank : Value → κ) (sorted : List Value) (item : Value) (low high : Nat) : Prop where
  front : ∀ v ∈ sorted.take low, rank v ≤ rank item
  back : ∀ v ∈ sorted.drop high, rank item < rank v

omit asks in
/-- What stands before an item in a sorted row has no higher rank, and what stands from it on no
lower one. -/
theorem ordered_around {sorted : List Value} (ordered : sorted.Pairwise fun a b => rank a ≤ rank b)
    {middle : Nat} {v : Value} (found : sorted[middle]? = some v) :
    (∀ w ∈ sorted.take (middle + 1), rank w ≤ rank v) ∧ ∀ w ∈ sorted.drop middle, rank v ≤ rank w := by
  obtain ⟨below, rfl⟩ := List.getElem?_eq_some_iff.mp found
  rw [← List.take_append_drop middle sorted] at ordered
  obtain ⟨first, second, across⟩ := List.pairwise_append.mp ordered
  rw [List.drop_eq_getElem_cons below] at second across
  refine ⟨fun w hw => ?_, fun w hw => ?_⟩
  · rw [List.take_add_one, found, Option.toList_some] at hw
    rcases List.mem_append.mp hw with hw | hw
    · exact across w hw _ List.mem_cons_self
    · exact le_of_eq (congrArg rank (List.mem_singleton.mp hw))
  · rw [List.drop_eq_getElem_cons below] at hw
    rcases List.mem_cons.mp hw with rfl | hw
    · exact le_refl _
    · exact List.rel_of_pairwise_cons second hw

/-- The place that is found by halving suits the item, if the answers are right. -/
theorem placeOf_ensures {sorted : List Value} (among : ∀ v ∈ sorted, v ∈ items) {item : Value}
    (asked : item ∈ items) {low high : Nat} (low_le : low ≤ high) (high_le : high ≤ sorted.length)
    (ordered : right → sorted.Pairwise fun a b => rank a ≤ rank b)
    (around : right → Suits rank sorted item low high) :
    (placeOf precedes sorted item low high).Ensures I may fun place =>
      right → Suits rank sorted item place place := by
  induction distance : high - low using Nat.strong_induction_on generalizing low high with
  | _ distance ih =>
    unfold placeOf
    split
    · rename_i apart
      have below : low + (high - low) / 2 < sorted.length := by omega
      have found := List.getElem?_eq_getElem below
      generalize middle_eq : low + (high - low) / 2 = middle at below found
      have within : low ≤ middle ∧ middle < high := by omega
      show (precedes item (Value.ofOption sorted[middle]?) >>= _).Ensures I may _
      rw [found]
      refine (asks item asked _ (among _ (List.getElem_mem below))).bind fun answer isRight => ?_
      cases answer with
      | true =>
        refine ih (middle - low) (by omega) within.1 (by omega) (fun hr => ⟨(around hr).front, ?_⟩) rfl
        have less := of_decide_eq_true (isRight hr).symm
        exact fun v hv => lt_of_lt_of_le less ((ordered_around (ordered hr) found).2 v hv)
      | false =>
        refine ih (high - (middle + 1)) (by omega) (by omega) high_le
          (fun hr => ⟨?_, (around hr).back⟩) rfl
        have notLess := not_lt.mp (of_decide_eq_false (isRight hr).symm)
        exact fun v hv => le_trans ((ordered_around (ordered hr) found).1 v hv) notLess
    · rename_i together
      obtain rfl : low = high := by omega
      exact .pure around

/-! ## Insertions -/

/-- Items that are inserted one by one are all there, and sorted, if the answers are right. -/
theorem insertAll_ensures (front : List Value) {sorted rest : List Value}
    (whole : front ++ rest = items)
    (perm : sorted.Perm front) (isSorted : right → StablySorted rank front sorted) :
    (insertAll precedes sorted rest).Ensures I may fun sorted =>
      sorted.Perm items ∧ (right → StablySorted rank items sorted) := by
  induction rest generalizing front sorted with
  | nil =>
    rw [List.append_nil] at whole
    subst whole
    exact .pure ⟨perm, isSorted⟩
  | cons item rest ih =>
    have among (v : Value) (hv : v ∈ sorted) : v ∈ items := by
      rw [← whole]
      exact List.mem_append_left _ (perm.mem_iff.mp hv)
    have asked : item ∈ items := by
      rw [← whole]
      exact List.mem_append_right _ List.mem_cons_self
    refine (placeOf_ensures asks among asked (Nat.zero_le _) (Nat.le_refl sorted.length)
      (fun hr => (isSorted hr).ordered) fun _ => ⟨?_, ?_⟩).bind fun place suits => ?_
    · rw [List.take_zero]
      exact nofun
    · rw [List.drop_length]
      exact nofun
    · exact ih (front ++ [item]) (by rw [List.append_assoc]; exact whole)
        (perm_insert perm place) fun hr => (isSorted hr).insert (suits hr).front (suits hr).back

/-- **Sorting by questions** keeps the items, whatever the answers are, and if they go by a rank it
sorts stably. -/
theorem sortBy_ensures :
    (sortBy precedes items).Ensures I may fun sorted =>
      sorted.Perm items ∧ (right → StablySorted rank items sorted) :=
  (firstRun_ensures asks).bind fun _ ⟨_, whole, perm, isSorted⟩ =>
    insertAll_ensures asks _ whole perm isSorted

end Questions

end Scriptlet
