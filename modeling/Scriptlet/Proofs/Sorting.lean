import Mathlib.Data.List.Lex
import Scriptlet.Method.List
import Scriptlet.Proofs.Callback
import Scriptlet.Proofs.Sorting.Insertion
import Scriptlet.Proofs.Unwinding.Activation
import Scriptlet.Proofs.Writing

/-!
# Sorting a list

Sorting puts the items of a list in an order, undefined ones last. The order is that of the texts
of the items, or it is left to a comparator, which is asked about two items at a time and answers
by a number. A comparator can answer as it pleases and do what it likes to the list meanwhile;
still the list has exactly the items in the end that it had at the start, for they are put in order
beside it and written when that is done. If the numbers go by an order of the items, a strict weak
one, the items are sorted by it, and items that it does not tell apart keep their places among one
another. Nothing is written if the comparator is interrupted.
-/

namespace Scriptlet

/-! ## Orders -/

/-- Which of two items comes first goes by a **strict weak order** on some items: not both come
before each other, and what comes before another comes before a third or the third before that
other. -/
structure IsStrictWeakOrder (before : Value → Value → Bool) (items : List Value) : Prop where
  asymm : ∀ a ∈ items, ∀ b ∈ items, before a b = true → before b a = false
  splits : ∀ a ∈ items, ∀ b ∈ items, ∀ c ∈ items, before a c = true →
    before a b = true ∨ before b c = true

/-- Items are **sorted by an order**: none stands behind one that it comes before, and those that the
order does not tell from one of them stand as they stood. -/
structure SortedBy (before : Value → Value → Bool) (items sorted : List Value) : Prop where
  perm : sorted.Perm items
  ordered : sorted.Pairwise fun a b => before b a = false
  stable : ∀ a ∈ items, sorted.filter (fun b => !before a b && !before b a) =
    items.filter (fun b => !before a b && !before b a)

section Orders

variable {before : Value → Value → Bool} {items sorted : List Value}

/-- More items come before what comes later. -/
theorem countP_lt_of_before (order : IsStrictWeakOrder before items) {a b : Value} (ha : a ∈ items)
    (hb : b ∈ items) (less : before a b = true) :
    items.countP (before · a) < items.countP (before · b) := by
  have notItself : before a a ≠ true := fun itself => by
    rw [order.asymm a ha a ha itself] at itself
    cases itself
  have more (c : Value) (hc : c ∈ items) (first : before c a = true) : before c b = true := by
    refine (order.splits c hc b hb a ha first).resolve_right fun back => ?_
    rw [order.asymm a ha b hb less] at back
    cases back
  obtain ⟨front, back, rfl⟩ := List.append_of_mem ha
  have moreFront := List.countP_mono_left (l := front) fun c hc =>
    more c (List.mem_append_left _ hc)
  have moreBack := List.countP_mono_left (l := back) fun c hc =>
    more c (List.mem_append_right _ (List.mem_cons_of_mem _ hc))
  rw [List.countP_append, List.countP_append,
    List.countP_cons_of_neg (p := (before · a)) notItself,
    List.countP_cons_of_pos (p := (before · b)) less]
  omega

/-- **A strict weak order goes by a rank**: by how many items come before one. -/
theorem IsStrictWeakOrder.eq_decide (order : IsStrictWeakOrder before items) {a b : Value}
    (ha : a ∈ items) (hb : b ∈ items) :
    before a b = decide (items.countP (before · a) < items.countP (before · b)) := by
  cases less : before a b with
  | true => exact (decide_eq_true (countP_lt_of_before order ha hb less)).symm
  | false =>
    refine (decide_eq_false (Nat.not_lt.mpr (List.countP_mono_left fun c hc first => ?_))).symm
    refine (order.splits c hc a ha b hb first).resolve_right fun forth => ?_
    rw [less] at forth
    cases forth

/-- What is stably sorted by the rank of an order is sorted by the order. -/
theorem StablySorted.sortedBy {rank : Value → Nat}
    (ranks : ∀ a ∈ items, ∀ b ∈ items, before a b = decide (rank a < rank b))
    (h : StablySorted rank items sorted) : SortedBy before items sorted where
  perm := h.perm
  ordered := h.ordered.imp_of_mem fun ha hb le => by
    rw [ranks _ (h.perm.mem_iff.mp hb) _ (h.perm.mem_iff.mp ha)]
    exact decide_eq_false (Nat.not_lt.mpr le)
  stable a ha := by
    have same {b : Value} (hb : b ∈ items) :
        (!before a b && !before b a) = decide (rank b = rank a) := by
      rw [ranks a ha b hb, ranks b hb a ha]
      by_cases equal : rank b = rank a
      · simp [equal]
      · rcases Nat.lt_or_gt_of_ne equal with less | more
        · simp [equal, less]
        · simp [equal, more]
    rw [List.filter_congr fun b hb => same (h.perm.mem_iff.mp hb), h.stable,
      List.filter_congr fun b hb => same hb]

end Orders

/-! ## Texts -/

/-- The order of texts is that of their code points. -/
theorem Text.order_eq_gt_iff (s t : Text) : s.order t = .gt ↔ t < s := by
  induction s, t using Text.order.induct with
  | case1 => exact iff_of_false nofun (lt_irrefl _)
  | case2 b t => exact iff_of_false nofun (List.not_lt_nil _)
  | case3 a s => exact iff_of_true rfl (List.nil_lt_cons a s)
  | case4 a s b t less =>
    rw [order, if_pos less]
    refine iff_of_false nofun fun more => ?_
    rcases List.cons_lt_cons_iff.mp more with more | ⟨rfl, -⟩
    · exact lt_asymm less more
    · exact lt_irrefl _ less
  | case5 a s b t notLess more =>
    rw [order, if_neg notLess, if_pos more]
    exact iff_of_true rfl (List.cons_lt_cons_iff.mpr (.inl more))
  | case6 a s b t notLess notMore ih =>
    obtain rfl : a = b := le_antisymm (not_lt.mp notMore) (not_lt.mp notLess)
    rw [order, if_neg notLess, if_neg notMore, ih, List.cons_lt_cons_iff]
    exact ⟨fun less => .inr ⟨rfl, less⟩, fun less => (less.resolve_left notMore).2⟩

section Keys

variable {κ : Type} [LinearOrder κ]

/-- What has one key comes **no later by its key** than what has another. -/
def keyLE (a b : κ × Value) : Bool :=
  decide (a.1 ≤ b.1)

theorem keyLE_trans (a b c : κ × Value) (first : keyLE a b = true) (second : keyLE b c = true) :
    keyLE a c = true :=
  decide_eq_true (le_trans (of_decide_eq_true first) (of_decide_eq_true second))

theorem keyLE_total (a b : κ × Value) : (keyLE a b || keyLE b a) = true := by
  simpa [keyLE] using le_total a.1 b.1

/-- Those of one key stand after the sort as they stood, and there are no others of that key. -/
theorem filter_mergeSort_keyLE (k : κ) (keyed : List (κ × Value)) :
    ((keyed.mergeSort keyLE).filter fun p => p.1 = k) = keyed.filter fun p => p.1 = k := by
  have alike : (keyed.filter fun p => p.1 = k).Pairwise fun a b => keyLE a b = true :=
    List.pairwise_of_forall_mem_list fun a ha b hb => by
      rw [keyLE, of_decide_eq_true (List.mem_filter.mp ha).2,
        of_decide_eq_true (List.mem_filter.mp hb).2]
      exact decide_eq_true (le_refl k)
  have kept := (List.sublist_mergeSort keyLE_trans keyLE_total alike List.filter_sublist).filter
    fun p => p.1 = k
  rw [List.filter_filter, List.filter_congr fun _ _ => Bool.and_self _] at kept
  exact (kept.eq_of_length ((List.mergeSort_perm keyed keyLE).symm.filter _).length_eq).symm

/-- Of items that stand with their keys, those of one key are found by the key or by the item. -/
theorem filter_map_snd {key : Value → κ} {keyed : List (κ × Value)}
    (keys : ∀ p ∈ keyed, p.1 = key p.2) (k : κ) :
    (keyed.map Prod.snd).filter (key · = k) = (keyed.filter fun p => p.1 = k).map Prod.snd := by
  rw [List.filter_map]
  exact congrArg _ (List.filter_congr fun p hp => by rw [keys p hp]; rfl)

/-- A stable sort by the keys that items stand with is one of the items. -/
theorem stablySorted_mergeSort {key : Value → κ} {keyed : List (κ × Value)}
    (keys : ∀ p ∈ keyed, p.1 = key p.2) :
    StablySorted key (keyed.map Prod.snd) ((keyed.mergeSort keyLE).map Prod.snd) := by
  have perm := List.mergeSort_perm keyed keyLE
  have keysSorted : ∀ p ∈ keyed.mergeSort keyLE, p.1 = key p.2 := fun p hp =>
    keys p (perm.mem_iff.mp hp)
  refine ⟨perm.map Prod.snd, ?_, fun k => ?_⟩
  · refine List.pairwise_map.mpr
      ((List.pairwise_mergeSort keyLE_trans keyLE_total keyed).imp_of_mem fun ha hb le => ?_)
    rw [← keysSorted _ ha, ← keysSorted _ hb]
    exact of_decide_eq_true le
  · rw [filter_map_snd keysSorted, filter_map_snd keys, filter_mergeSort_keyLE]

end Keys

/-- To sort by texts is to sort stably and to forget the texts. -/
theorem sortByKey_eq (keyed : List (Text × Value)) :
    sortByKey keyed = (keyed.mergeSort keyLE).map Prod.snd := by
  have same : (fun a b : Text × Value => a.1.order b.1 != .gt) = keyLE := by
    funext a b
    rw [keyLE, Bool.eq_iff_iff, bne_iff_ne, Ne, Text.order_eq_gt_iff, not_lt, decide_eq_true_iff]
  rw [sortByKey, same]

/-- Sorting by texts is **stable**. -/
theorem stablySorted_sortByKey (key : Value → Text) (items : List Value) :
    StablySorted key items (sortByKey (items.map fun v => (key v, v))) := by
  have keys : ∀ p ∈ items.map fun v => (key v, v), p.1 = key p.2 :=
    List.forall_mem_map.mpr fun _ _ => rfl
  have values : (items.map fun v => (key v, v)).map Prod.snd = items := by
    rw [List.map_map]
    exact List.map_id items
  have sorted := stablySorted_mergeSort keys
  rwa [← sortByKey_eq, values] at sorted

/-- A step that only looks ensures nothing but that the condition stays met. -/
theorem Step.OnlyLooks.ensures {step : Step α} (h : step.OnlyLooks) {I : Store → Prop}
    {may : Interrupt → Store → Prop} (stops : ∀ i s, I s → may i s) :
    step.Ensures I may fun _ => True := by
  intro s hs
  cases ends : step s with
  | ok a s' =>
    obtain rfl := h.of_ok ends
    exact ⟨hs, trivial⟩
  | error i s' =>
    obtain rfl := h.of_error ends
    exact stops i _ hs

/-- **Items with their texts** for keys. -/
def keyedByText (items : List Value) : Step (List (Text × Value)) :=
  items.mapM fun item => do return (← Step.textOf item, item)

/-- To get the keys of items the store is only looked at, and there is no other reason to stop than
that an item has no text. -/
theorem keyed_ensures {s : Store} {key : Value → Text}
    (keys : ∀ v t, s.textOf v = .ok t → key v = t) (items : List Value) :
    (keyedByText items).Ensures (· = s)
      (fun _ t => t = s ∧ ∃ v ∈ items, ∃ u, s.textOf v = .error u)
      fun keyed => keyed = items.map (fun v => (key v, v)) ∧ ∀ v ∈ items, s.textOf v = .ok (key v) := by
  induction items with
  | nil => exact .pure ⟨rfl, nofun⟩
  | cons item rest ih =>
    rintro s' rfl
    have eq : keyedByText (item :: rest) = Step.textOf item >>= fun t =>
        keyedByText rest >>= fun keyed => pure ((t, item) :: keyed) := by
      rw [keyedByText, List.mapM_cons, bind_assoc]
      rfl
    rw [eq]
    cases text : s'.textOf item with
    | error u =>
      have fails : Step.textOf item s' = .error (.fault (.unmet u)) s' := Step.read_of_error text
      rw [Step.bind_of_error fails]
      exact ⟨rfl, item, List.mem_cons_self, u, text⟩
    | ok t =>
      obtain rfl := keys item t text
      have reads : Step.textOf item s' = .ok (key item) s' := Step.read_of_ok text
      rw [Step.bind_of_ok reads]
      have later := ih s' rfl
      cases ends : keyedByText rest s' with
      | error i t =>
        rw [ends] at later
        rw [Step.bind_of_error ends]
        obtain ⟨same, v, hv, u, unavailable⟩ := later
        exact ⟨same, v, List.mem_cons_of_mem _ hv, u, unavailable⟩
      | ok keyed t =>
        rw [ends] at later
        rw [Step.bind_of_ok ends]
        obtain ⟨same, rfl, texts⟩ := later
        exact ⟨same, rfl, List.forall_mem_cons.mpr ⟨text, texts⟩⟩

/-! ## Questions -/

/-- The **questions that are put to a comparator**: it is called back with two items, and the first
comes before the second if the number of the answer is below zero. -/
def Precedes.ofComparator (run : Runner) (comparator : Value) : Precedes := fun a b => do
  let n ← Step.numberOf (← Step.invoke run comparator [a, b])
  if ← Step.ofExcept n.isNaN then return false else return n.isNegative

section Comparator

variable {run : Runner} {comparator : Value} {s t : Store} {i : Interrupt}

/-- Being called back is all that happens for a callback. -/
theorem invoke_ensures (run : Runner) (callee : Value) (s : Store) (row : List Value) :
    (Step.invoke run callee row).Ensures (fun u => ∃ calls, CalledBack run callee s calls u)
      (ComesAmongCalls run callee s) fun _ => True := by
  have stops (i : Interrupt) (u : Store) : (∃ calls, CalledBack run callee s calls u) →
      ComesAmongCalls run callee s i u := fun ⟨calls, called⟩ => ⟨calls, u, called, .inl rfl⟩
  cases callable : callee.isCallable with
  | false => exact (Step.invoke_onlyLooks callable row).ensures stops
  | true =>
    rintro u ⟨calls, called⟩
    cases done : run (callee.callbackTask row) u with
    | ok v t =>
      rw [Step.invoke_of_ok callable done]
      exact ⟨⟨_, called.append (.cons done (.nil t))⟩, trivial⟩
    | error i t =>
      rw [Step.invoke_of_error callable done]
      exact ⟨calls, u, called, .inr ⟨row, done⟩⟩

/-- To put a question to a comparator is to call it back. -/
theorem ofComparator_ensures (run : Runner) (comparator : Value) (s : Store) (a b : Value) :
    (Precedes.ofComparator run comparator a b).Ensures
      (fun u => ∃ calls, CalledBack run comparator s calls u) (ComesAmongCalls run comparator s)
      fun _ => True := by
  have stops (i : Interrupt) (u : Store) : (∃ calls, CalledBack run comparator s calls u) →
      ComesAmongCalls run comparator s i u := fun ⟨calls, called⟩ => ⟨calls, u, called, .inl rfl⟩
  refine (invoke_ensures run comparator s [a, b]).bind fun v _ => ?_
  refine ((Step.read_onlyLooks _).ensures stops).bind fun n _ => ?_
  refine ((Step.ofExcept_onlyLooks _).ensures stops).bind fun isNaN _ => ?_
  cases isNaN with
  | true => exact .pure trivial
  | false => exact .pure trivial

end Comparator

/-! ## Lists -/

/-- The items that are **present**: those that are not undefined. -/
def present (items : List Value) : List Value :=
  items.filter (!·.isUndefined)

/-- Undefined items are all the same. -/
theorem filter_isUndefined (items : List Value) :
    items.filter (·.isUndefined) = List.replicate (items.countP (·.isUndefined)) .undefined := by
  refine List.eq_replicate_iff.mpr ⟨List.countP_eq_length_filter.symm, fun v hv => ?_⟩
  cases v with
  | undefined => rfl
  | _ => cases (List.mem_filter.mp hv).2

/-- Of present items with undefined ones behind them the present ones are present. -/
theorem present_append_replicate {items sorted : List Value} (h : sorted.Perm (present items))
    (n : Nat) : present (sorted ++ List.replicate n .undefined) = sorted := by
  rw [present, List.filter_append, List.filter_replicate_of_neg (by exact nofun), List.append_nil]
  exact List.filter_eq_self.mpr fun v hv => (List.mem_filter.mp (h.mem_iff.mp hv)).2

namespace ListMethod

variable {run : Runner} {ref : ListRef} {args : List Value} {s t : Store} {comparator : Value}

/-- A list **has been sorted**, and nothing else has happened but that the comparator was called back:
it has the items that it had, those that are present first and the undefined ones last. If there was
no comparator, the present items are stably sorted by their texts. If the numbers that it gives go by
a strict weak order, the present items are sorted by that order. -/
structure HasSorted (run : Runner) (comparator : Value) (ref : ListRef) (s t : Store) : Prop where
  called : ∃ calls u, CalledBack run comparator s calls u ∧ t = u.setItems ref (t.items ref)
  perm : (t.items ref).Perm (s.items ref)
  undefinedLast : t.items ref = present (t.items ref) ++
    List.replicate ((s.items ref).countP (·.isUndefined)) .undefined
  byTexts : comparator = .undefined → ∃ key : Value → Text,
    (∀ v ∈ present (s.items ref), s.textOf v = .ok (key v))
      ∧ StablySorted key (present (s.items ref)) (present (t.items ref))
  byNumbers : comparator ≠ .undefined → ∀ (before : Value → Value → Bool) (I : Store → Prop)
    (may : Interrupt → Store → Prop), IsStrictWeakOrder before (present (s.items ref)) → I s →
    (∀ a ∈ present (s.items ref), ∀ b ∈ present (s.items ref),
      (Precedes.ofComparator run comparator a b).Ensures I may (· = before a b)) →
    SortedBy before (present (s.items ref)) (present (t.items ref))

/-- Without a comparator the items are ordered by keys, -/
theorem ordered_undefined (run : Runner) (items : List Value) :
    ordered run .undefined items = keyedByText items >>= fun keyed => pure (sortByKey keyed) :=
  rfl

/-- and with one by questions. -/
theorem ordered_comparator (given : comparator ≠ .undefined) (items : List Value) :
    ordered run comparator items = sortBy (Precedes.ofComparator run comparator) items := by
  cases comparator with
  | undefined => exact absurd rfl given
  | _ => rfl

/-- The texts of items in a store, as far as there are any. -/
theorem keys_of_textOf {v : Value} {text : Text} (h : s.textOf v = .ok text) :
    (s.textOf v).toOption.getD [] = text := by
  rw [h]
  rfl

/-- Ordering without a comparator **only looks**, and sorts stably by the texts. -/
theorem ordered_undefined_ensures (run : Runner) (s : Store) (items : List Value) :
    (ordered run .undefined items).Ensures (· = s)
      (fun _ t => t = s ∧ ∃ v ∈ items, ∃ u, s.textOf v = .error u) fun new =>
      ∃ key : Value → Text, (∀ v ∈ items, s.textOf v = .ok (key v)) ∧ StablySorted key items new := by
  rw [ordered_undefined]
  refine (keyed_ensures (fun _ _ => keys_of_textOf) items).bind fun keyed ⟨eq, texts⟩ => ?_
  rw [eq]
  exact .pure ⟨_, texts, stablySorted_sortByKey _ items⟩

/-- Ordering by numbers that go by an order **sorts by the order**. -/
theorem ordered_comparator_ensures (given : comparator ≠ .undefined) {items : List Value}
    {before : Value → Value → Bool} {I : Store → Prop} {may : Interrupt → Store → Prop}
    (order : IsStrictWeakOrder before items)
    (asks : ∀ a ∈ items, ∀ b ∈ items,
      (Precedes.ofComparator run comparator a b).Ensures I may (· = before a b)) :
    (ordered run comparator items).Ensures I may (SortedBy before items ·) := by
  rw [ordered_comparator given]
  have ranked : ∀ a ∈ items, ∀ b ∈ items, (Precedes.ofComparator run comparator a b).Ensures I may
      fun answer => True → answer = decide (items.countP (before · a) < items.countP (before · b)) :=
    fun a ha b hb => (asks a ha b hb).mono fun _ same _ => same.trans (order.eq_decide ha hb)
  exact (sortBy_ensures ranked).mono fun _ sorts =>
    (sorts.2 trivial).sortedBy fun _ ha _ hb => order.eq_decide ha hb

/-- **Ordering keeps the items**, and nothing happens but that the comparator is called back. -/
theorem ordered_ensures (run : Runner) (comparator : Value) (s : Store) (items : List Value) :
    (ordered run comparator items).Ensures (fun u => ∃ calls, CalledBack run comparator s calls u)
      (ComesAmongCalls run comparator s) fun new => new.Perm items := by
  by_cases given : comparator = .undefined
  · subst given
    rintro u ⟨calls, called⟩
    have here := ordered_undefined_ensures run u items u rfl
    cases ends : ordered run .undefined items u with
    | ok new t =>
      rw [ends] at here
      obtain ⟨rfl, _, -, sorted⟩ := here
      exact ⟨⟨calls, called⟩, sorted.perm⟩
    | error i t =>
      rw [ends] at here
      exact ⟨calls, u, called, .inl here.1⟩
  · rw [ordered_comparator given]
    -- Nothing is known of the answers, so that no rank is right.
    have asks : ∀ a ∈ items, ∀ b ∈ items, (Precedes.ofComparator run comparator a b).Ensures
        (fun u => ∃ calls, CalledBack run comparator s calls u) (ComesAmongCalls run comparator s)
        fun answer => False → answer = decide ((fun _ => 0 : Value → Nat) a < (fun _ => 0) b) :=
      fun a _ b _ => (ofComparator_ensures run comparator s a b).mono fun _ _ => False.elim
    exact (sortBy_ensures asks).mono fun _ kept => kept.1

theorem call_sort (run : Runner) (ref : ListRef) (args : List Value) (s : Store) :
    call run ref args .sort s = (sorted run (argument args 0) (s.items ref) >>= fun new =>
      modify (fun u => u.setItems ref new) >>= fun _ => pure (.list ref)) s :=
  rfl

/-- The list is written when its items have been ordered, -/
theorem call_sort_of_ok {new : List Value} {u : Store}
    (ends : ordered run (argument args 0) (present (s.items ref)) s = .ok new u) :
    call run ref args .sort s = .ok (.list ref) (u.setItems ref
      (new ++ List.replicate ((s.items ref).countP (·.isUndefined)) .undefined)) := by
  have whole : sorted run (argument args 0) (s.items ref) s =
      .ok (new ++ List.replicate ((s.items ref).countP (·.isUndefined)) .undefined) u := by
    rw [← filter_isUndefined]
    exact Step.bind_of_ok ends
  rw [call_sort, Step.bind_of_ok whole]
  rfl

/-- and not before. -/
theorem call_sort_of_error {i : Interrupt}
    (ends : ordered run (argument args 0) (present (s.items ref)) s = .error i t) :
    call run ref args .sort s = .error i t := by
  have whole : sorted run (argument args 0) (s.items ref) s = .error i t := Step.bind_of_error ends
  rw [call_sort, Step.bind_of_error whole]

/-- No call of a callback takes a list back. -/
theorem lists_le_of_calledBack {host : Host} (keeps : host.KeepsLists) {depth : Nat}
    {calls : List (List Value × Value)}
    (called : CalledBack (Task.runTo host depth) comparator s calls t) :
    s.lists.size ≤ t.lists.size := by
  induction called with
  | nil => exact Nat.le_refl _
  | cons done _ ih => exact Nat.le_trans ((Task.runTo_keepsLists keeps depth _).of_ok done) ih

/-- A list **has been sorted** when its items have been ordered and the undefined ones have been put
behind them. -/
theorem hasSorted_of_ordered {new : List Value} {u : Store}
    (ends : ordered run comparator (present (s.items ref)) s = .ok new u)
    (there : ref < u.lists.size) :
    HasSorted run comparator ref s (u.setItems ref
      (new ++ List.replicate ((s.items ref).countP (·.isUndefined)) .undefined)) := by
  obtain ⟨⟨calls, called⟩, perm⟩ := (ordered_ensures run comparator s _).of_ok ⟨[], .nil s⟩ ends
  have written := Store.items_setItems there
    (new ++ List.replicate ((s.items ref).countP (·.isUndefined)) .undefined)
  have first := present_append_replicate perm ((s.items ref).countP (·.isUndefined))
  refine ⟨⟨calls, u, called, by rw [written]⟩, ?_, ?_, fun missing => ?_,
    fun given before I may order here asks => ?_⟩
  · rw [written, ← filter_isUndefined]
    have whole := (perm.append_right ((s.items ref).filter (·.isUndefined))).trans
      List.perm_append_comm
    exact whole.trans (List.filter_append_perm (·.isUndefined) (s.items ref))
  · rw [written, first]
  · rw [written, first]
    rw [missing] at ends
    exact ((ordered_undefined_ensures run s _).of_ok rfl ends).2
  · rw [written, first]
    exact ((ordered_comparator_ensures given order asks).of_ok here ends).2

/-- **Sorting is a stable permutation with undefined items last**, whatever a comparator answers or
does; and if the sort is interrupted, by the comparator or by what it has answered, nothing has been
written. Without a comparator there is no reason for that but an item that has no text. -/
theorem sort_sorts {host : Host} (keeps : host.KeepsLists) (depth : Nat)
    (there : ref < s.lists.size) (args : List Value) :
    (∀ v t, call (Task.runTo host depth) ref args .sort s = .ok v t →
      v = .list ref ∧ HasSorted (Task.runTo host depth) (argument args 0) ref s t)
    ∧ ∀ i t, call (Task.runTo host depth) ref args .sort s = .error i t →
      ComesAmongCalls (Task.runTo host depth) (argument args 0) s i t
        ∧ (argument args 0 = .undefined →
            t = s ∧ ∃ v ∈ present (s.items ref), ∃ u, s.textOf v = .error u) := by
  have always := ordered_ensures (Task.runTo host depth) (argument args 0) s
    (present (s.items ref))
  cases ends : ordered (Task.runTo host depth) (argument args 0) (present (s.items ref)) s with
  | ok new u =>
    obtain ⟨⟨_, called⟩, -⟩ := always.of_ok ⟨[], .nil s⟩ ends
    rw [call_sort_of_ok ends]
    refine ⟨fun v t given => ?_, nofun⟩
    cases given
    exact ⟨rfl, hasSorted_of_ordered ends
      (Nat.lt_of_lt_of_le there (lists_le_of_calledBack keeps called))⟩
  | error i t =>
    rw [call_sort_of_error ends]
    refine ⟨nofun, fun i' t' failed => ?_⟩
    cases failed
    refine ⟨always.of_error ⟨[], .nil s⟩ ends, fun missing => ?_⟩
    rw [missing] at ends
    exact (ordered_undefined_ensures _ s _).of_error rfl ends

/-- A host whose functions give the difference of two integers. -/
def subtractingHost : Host := fun _ _ args =>
  match args with
  | [.int a, .int b] => return .int (a - b)
  | _ => Step.fault .wrongType

theorem subtractingHost_keepsLists : subtractingHost.KeepsLists := by
  intro f run args _ s
  unfold subtractingHost
  split <;> exact Nat.le_refl s.lists.size

/-- Two numbers are sorted by their difference, and what is undefined between them goes to the end. -/
theorem sort_sorts_of_difference :
    let difference : Value := .native ⟨"difference", "difference", "function", some 2, 0⟩
    let s := (Store.empty.newList [.int 3, .undefined, .int 1]).2
    subtractingHost.KeepsLists ∧ 0 < s.lists.size
      ∧ ∃ t, call (Task.runTo subtractingHost 1) 0 [difference] .sort s = .ok (.list 0) t
        ∧ t.items 0 = [.int 1, .int 3, .undefined]
        ∧ HasSorted (Task.runTo subtractingHost 1) difference 0 s t := by
  intro difference s
  have keeps := subtractingHost_keepsLists
  have there : 0 < s.lists.size := by decide
  have ends : ∃ t, call (Task.runTo subtractingHost 1) 0 [difference] .sort s = .ok (.list 0) t
      ∧ t.items 0 = [.int 1, .int 3, .undefined] := ⟨_, rfl, rfl⟩
  obtain ⟨t, ends, sorted⟩ := ends
  exact ⟨keeps, there, t, ends, sorted, ((sort_sorts keeps 1 there [difference]).1 _ t ends).2⟩

end ListMethod

end Scriptlet
