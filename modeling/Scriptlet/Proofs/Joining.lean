import Mathlib.Data.List.Forall2
import Mathlib.Logic.Relation
import Scriptlet.Proofs.Replacing
import Scriptlet.Walk.Literal

/-!
# Joining the items of a list

A list is written as the texts of its items with commas between them, and that is what joining the
items gives too, by another traversal. Writing knows which list it is in from the start; joining
begins anew with each item, so that where it comes back to the list it writes it once more.

That makes a difference exactly if the list contains itself and has more than one item: the text
that is written once more has a comma in it then, and everything else is written as before. Where
one of the two fails, the other one does, since whatever is in the list is come to in both.
-/

namespace Scriptlet

/-! ## Lengths -/

theorem Text.length_join_comma (ts : List Text) :
    (Text.join "," ts).length = ts.flatten.length + (ts.length - 1) := by
  induction ts with
  | nil => rfl
  | cons t ts ih =>
    cases ts with
    | nil =>
      rw [join_singleton, List.flatten_singleton]
      rfl
    | cons u ts =>
      have comma : (ofString ",").length = 1 := rfl
      rw [join_cons_cons, List.length_append, List.length_append, ih, comma]
      simp only [List.flatten_cons, List.length_append, List.length_cons]
      omega

/-- A text that is joined is there if its parts are. -/
theorem join_mapM_eq_ok_iff {f : α → Except Unmet Text} {xs : List α} {t : Text} :
    Text.join "," <$> xs.mapM f = .ok t
      ↔ ∃ ts, List.Forall₂ (f · = .ok ·) xs ts ∧ t = Text.join "," ts := by
  have parts {ts : List Text} : xs.mapM f = .ok ts ↔ List.Forall₂ (f · = .ok ·) xs ts := by
    induction xs generalizing ts with
    | nil =>
      rw [List.forall₂_nil_left_iff]
      exact ⟨fun h => (Except.ok.inj h).symm, fun h => h ▸ rfl⟩
    | cons x xs ih =>
      rw [List.mapM_cons, List.forall₂_cons_left_iff]
      constructor
      · intro ok
        obtain ⟨t, first, rest⟩ := Except.of_bind_eq_ok ok
        obtain ⟨ts, more, done⟩ := Except.of_bind_eq_ok rest
        exact ⟨t, ts, first, ih.mp more, (Except.ok.inj done).symm⟩
      · rintro ⟨t, ts, first, more, rfl⟩
        rw [first, ih.mpr more]
        rfl
  constructor
  · intro ok
    rw [map_eq_pure_bind] at ok
    obtain ⟨ts, all, done⟩ := Except.of_bind_eq_ok ok
    exact ⟨ts, parts.mp all, (Except.ok.inj done).symm⟩
  · rintro ⟨ts, all, rfl⟩
    rw [parts.mpr all]
    rfl

theorem join_mapM_isOk_iff {f : α → Except Unmet Text} {xs : List α} :
    (Text.join "," <$> xs.mapM f).isOk ↔ ∀ x ∈ xs, (f x).isOk := by
  induction xs with
  | nil => exact iff_of_true rfl nofun
  | cons x xs ih =>
    rw [List.forall_mem_cons, ← ih, List.mapM_cons]
    cases f x with
    | error e => exact iff_of_false nofun fun both => nomatch both.1
    | ok t =>
      cases xs.mapM f with
      | error e => exact iff_of_false nofun fun both => nomatch both.2
      | ok ts => exact iff_of_true rfl ⟨rfl, rfl⟩

/-- One result is there if another is, and is **no longer**; under a condition it is shorter. -/
def Shortens (strictly : Prop) (a b : Except Unmet Text) : Prop :=
  ∀ t, a = .ok t → ∃ u, b = .ok u ∧ u.length ≤ t.length ∧ (strictly → u.length < t.length)

namespace Shortens

variable {strictly weaker : Prop} {a b : Except Unmet Text}

theorem refl (a : Except Unmet Text) : Shortens False a a :=
  fun t h => ⟨t, h, Nat.le_refl _, False.elim⟩

theorem imp (h : Shortens strictly a b) (weaken : weaker → strictly) : Shortens weaker a b := by
  intro t ok
  obtain ⟨u, ok', le, lt⟩ := h t ok
  exact ⟨u, ok', le, lt ∘ weaken⟩

theorem isOk (h : Shortens strictly a b) (ok : a.isOk) : b.isOk := by
  cases a with
  | error e => cases ok
  | ok t =>
    obtain ⟨u, ok', -⟩ := h t rfl
    rw [ok']
    rfl

/-- Texts that are shortened one by one, and one of them strictly. -/
theorem forall₂ {P : α → Prop} {f g : α → Except Unmet Text} {xs : List α} {ts : List Text}
    (h : ∀ x ∈ xs, Shortens (P x) (f x) (g x)) (ok : List.Forall₂ (f · = .ok ·) xs ts) :
    ∃ us, List.Forall₂ (g · = .ok ·) xs us
      ∧ us.flatten.length ≤ ts.flatten.length
      ∧ ((∃ x ∈ xs, P x) → us.flatten.length < ts.flatten.length) := by
  induction ok with
  | nil => exact ⟨[], .nil, Nat.le_refl _, nofun⟩
  | @cons x t xs ts fx _ ih =>
    obtain ⟨first, more⟩ := List.forall_mem_cons.mp h
    obtain ⟨u, gx, le, lt⟩ := first t fx
    obtain ⟨us, gxs, les, lts⟩ := ih more
    refine ⟨u :: us, .cons gx gxs, ?_⟩
    rw [List.flatten_cons, List.flatten_cons, List.length_append, List.length_append]
    refine ⟨Nat.add_le_add le les, ?_⟩
    rintro ⟨y, mem, hy⟩
    rcases List.mem_cons.mp mem with rfl | mem
    · exact Nat.add_lt_add_of_lt_of_le (lt hy) les
    · exact Nat.add_lt_add_of_le_of_lt le (lts ⟨y, mem, hy⟩)

/-- They make a shorter text when they are joined. -/
theorem join {P : α → Prop} {f g : α → Except Unmet Text} {xs : List α}
    (h : ∀ x ∈ xs, Shortens (P x) (f x) (g x)) :
    Shortens (∃ x ∈ xs, P x) (Text.join "," <$> xs.mapM f) (Text.join "," <$> xs.mapM g) := by
  intro t ok
  obtain ⟨ts, fxs, rfl⟩ := join_mapM_eq_ok_iff.mp ok
  obtain ⟨us, gxs, les, lts⟩ := forall₂ h fxs
  have same : us.length = ts.length := gxs.length_eq.symm.trans fxs.length_eq
  refine ⟨Text.join "," us, join_mapM_eq_ok_iff.mpr ⟨us, gxs, rfl⟩, ?_, fun one => ?_⟩
  · rw [Text.length_join_comma, Text.length_join_comma, same]
    exact Nat.add_le_add_right les _
  · rw [Text.length_join_comma, Text.length_join_comma, same]
    exact Nat.add_lt_add_right (lts one) _

end Shortens

/-! ## Lists in lists -/

namespace Store

/-- Whether a list is an **item** of another. -/
def Nests (s : Store) (outer inner : ListRef) : Prop :=
  .list inner ∈ s.items outer

/-- A list **contains itself**, as an item or as an item of lists in it. -/
def ContainsItself (s : Store) (ref : ListRef) : Prop :=
  Relation.TransGen s.Nests ref ref

/-- Whether one **comes to a list** from a value, through lists that may be entered. -/
inductive ComesTo (s : Store) (u : List ListRef) (x : ListRef) : Value → Prop where
  | here : ComesTo s u x (.list x)
  | through {ref : ListRef} {item : Value} (there : ref ∈ u) (held : item ∈ s.items ref)
      (rest : ComesTo s u x item) : ComesTo s u x (.list ref)

variable {s : Store} {u : List ListRef} {x ref : ListRef} {v : Value}

theorem ComesTo.mono {u' : List ListRef} (sub : u ⊆ u') (h : s.ComesTo u x v) :
    s.ComesTo u' x v := by
  induction h with
  | here => exact .here
  | through there held _ ih => exact .through (sub there) held ih

/-- A way can be cut off **where it leaves a list for the last time**. -/
theorem ComesTo.avoid (h : s.ComesTo u x v) (ref : ListRef) :
    s.ComesTo (u.erase ref) x v ∨ ∃ item ∈ s.items ref, s.ComesTo (u.erase ref) x item := by
  induction h with
  | here => exact .inl .here
  | @through outer item there held _ ih =>
    rcases ih with avoided | later
    · by_cases same : outer = ref
      · exact .inr ⟨item, same ▸ held, avoided⟩
      · exact .inl (.through ((List.mem_erase_of_ne same).mpr there) held avoided)
    · exact .inr later

/-- From a list one comes to another without coming back. -/
theorem ComesTo.next (h : s.ComesTo u x (.list ref)) (other : ref ≠ x) :
    ref ∈ u ∧ ∃ item ∈ s.items ref, s.ComesTo (u.erase ref) x item := by
  cases h with
  | here => exact absurd rfl other
  | @through _ item there held rest =>
    refine ⟨there, ?_⟩
    rcases rest.avoid ref with avoided | later
    · exact ⟨item, held, avoided⟩
    · exact later

theorem mem_range_of_mem_items (h : v ∈ s.items ref) : ref ∈ List.range s.lists.size := by
  by_contra outside
  rw [List.mem_range, not_lt] at outside
  rw [items, Array.getD_eq_getD_getElem?, Array.getElem?_eq_none outside] at h
  cases h

theorem containsItself_iff :
    s.ContainsItself x ↔ ∃ item ∈ s.items x, s.ComesTo (List.range s.lists.size) x item := by
  constructor
  · intro h
    obtain ⟨inner, nests, way⟩ := Relation.TransGen.head'_iff.mp h
    refine ⟨.list inner, nests, ?_⟩
    clear nests
    induction way using Relation.ReflTransGen.head_induction_on with
    | refl => exact .here
    | head first _ ih => exact .through (mem_range_of_mem_items first) first ih
  · rintro ⟨item, held, way⟩
    have reaches : ∀ inner, item = .list inner → Relation.ReflTransGen s.Nests inner x := by
      clear held
      induction way with
      | here =>
        rintro inner ⟨⟩
        exact .refl
      | @through ref item _ held rest ih =>
        rintro inner ⟨⟩
        cases rest with
        | here => exact .single held
        | through => exact .head held (ih _ rfl)
    cases way with
    | here => exact .single held
    | through => exact .head' held (reaches _ rfl)

/-! ## Writing the items -/

/-- What an **item** leaves in the text of a list. -/
def itemFrom (s : Store) (u : List ListRef) (item : Value) : Except Unmet Text :=
  if item.isNullish then .ok [] else s.textFrom u item

theorem textFrom_list (there : ref ∈ u) :
    s.textFrom u (.list ref) = Text.join "," <$> (s.items ref).mapM (s.itemFrom (u.erase ref)) := by
  rw [textFrom, dif_pos there, bind_pure_comp]
  rfl

theorem textFrom_list_of_not_mem (gone : ref ∉ u) : s.textFrom u (.list ref) = .ok [] := by
  rw [textFrom, dif_neg gone]

/-- **Induction on what is written**, which is a list that is entered, one that is not, or no
list. -/
theorem textFrom_induction {motive : List ListRef → Value → Prop}
    (enter : ∀ u ref, ref ∈ u → (∀ item ∈ s.items ref, motive (u.erase ref) item) →
      motive u (.list ref))
    (leave : ∀ u ref, ref ∉ u → motive u (.list ref))
    (other : ∀ u v, (∀ ref, v ≠ .list ref) → motive u v) (u : List ListRef) (v : Value) :
    motive u v := by
  induction size : u.length using Nat.strong_induction_on generalizing u v with
  | h n ih =>
    by_cases list : ∃ ref, v = .list ref
    · obtain ⟨ref, rfl⟩ := list
      by_cases there : ref ∈ u
      · have shorter : (u.erase ref).length < n := by
          rw [List.length_erase_of_mem there, size]
          exact Nat.sub_one_lt (size ▸ List.ne_nil_of_mem there ∘ List.length_eq_zero_iff.mp)
        exact enter u ref there fun item _ => ih _ shorter _ item rfl
      · exact leave u ref there
    · exact other u v (not_exists.mp list)

theorem textFrom_of_ne_list (other : ∀ ref, v ≠ .list ref) (u u' : List ListRef) :
    s.textFrom u v = s.textFrom u' v := by
  cases v with
  | list ref => exact absurd rfl (other ref)
  | _ => simp only [textFrom]

theorem not_comesTo_of_ne_list (other : ∀ ref, v ≠ .list ref) : ¬ s.ComesTo u x v := by
  intro way
  cases way <;> exact other _ rfl

theorem itemFrom_shortens {item : Value} {u' : List ListRef} {many : Prop}
    (h : Shortens (many ∧ x ∈ u ∧ s.ComesTo u x item) (s.textFrom u item) (s.textFrom u' item)) :
    Shortens (many ∧ x ∈ u ∧ s.ComesTo u x item) (s.itemFrom u item) (s.itemFrom u' item) := by
  rw [itemFrom, itemFrom]
  split
  · rename_i nullish
    refine (Shortens.refl _).imp fun way => not_comesTo_of_ne_list (fun ref list => ?_) way.2.2
    subst list
    cases nullish
  · exact h

/-- **With a list left out, less is written**: at most what is written otherwise, and less if one
comes to the list and it has more than one item. -/
theorem textFrom_erase_shortens (u : List ListRef) (v : Value) (once : u.Nodup) (x : ListRef) :
    Shortens (2 ≤ (s.items x).length ∧ x ∈ u ∧ s.ComesTo u x v)
      (s.textFrom u v) (s.textFrom (u.erase x) v) := by
  induction u, v using s.textFrom_induction with
  | other u v other =>
    rw [textFrom_of_ne_list other (u.erase x) u]
    exact (Shortens.refl _).imp fun way => not_comesTo_of_ne_list other way.2.2
  | leave u ref gone =>
    rw [textFrom_list_of_not_mem gone, textFrom_list_of_not_mem (mt List.mem_of_mem_erase gone)]
    refine (Shortens.refl _).imp fun ⟨_, there, way⟩ => ?_
    by_cases same : ref = x
    · exact gone (same ▸ there)
    · exact gone (way.next same).1
  | enter u ref there ih =>
    by_cases same : ref = x
    · subst same
      rw [textFrom_list there, textFrom_list_of_not_mem once.not_mem_erase]
      intro t ok
      refine ⟨[], rfl, Nat.zero_le _, fun ⟨many, _⟩ => ?_⟩
      obtain ⟨ts, written, rfl⟩ := join_mapM_eq_ok_iff.mp ok
      rw [Text.length_join_comma, ← written.length_eq]
      exact Nat.lt_of_lt_of_le (Nat.sub_pos_of_lt many) (Nat.le_add_left _ _)
    · rw [textFrom_list there, textFrom_list ((List.mem_erase_of_ne same).mpr there),
        List.erase_comm]
      have items := Shortens.join fun item mem => itemFrom_shortens (ih item mem (once.erase ref))
      refine items.imp ?_
      rintro ⟨many, mem, way⟩
      obtain ⟨-, item, held, rest⟩ := way.next same
      exact ⟨item, held, many, (List.mem_erase_of_ne (Ne.symm same)).mpr mem, rest⟩

/-- What can be written without a list can be written with it, if the list can be. -/
theorem textFrom_isOk_of_erase (u : List ListRef) (v : Value) (once : u.Nodup)
    (list : (s.textFrom u (.list x)).isOk) (without : (s.textFrom (u.erase x) v).isOk) :
    (s.textFrom u v).isOk := by
  induction u, v using s.textFrom_induction with
  | other u v other => rwa [textFrom_of_ne_list other u (u.erase x)]
  | leave u ref gone =>
    rw [textFrom_list_of_not_mem gone]
    rfl
  | enter u ref there ih =>
    by_cases same : ref = x
    · exact same ▸ list
    · rw [textFrom_list ((List.mem_erase_of_ne same).mpr there), List.erase_comm,
        join_mapM_isOk_iff] at without
      rw [textFrom_list there, join_mapM_isOk_iff]
      intro item mem
      have later := (textFrom_erase_shortens u (.list x) once ref).isOk list
      rw [itemFrom]
      split <;> rename_i nullish
      · rfl
      · have without := without item mem
        rw [itemFrom, if_neg nullish] at without
        exact ih item mem (once.erase ref) later without

/-- **Nothing else is lost**: a list can be left out if one does not come to it, or if nothing is
written for it. -/
theorem textFrom_erase (u : List ListRef) (v : Value)
    (silent : s.ComesTo u x v → ∀ u' ⊆ u, s.textFrom u' (.list x) = .ok []) :
    s.textFrom (u.erase x) v = s.textFrom u v := by
  induction u, v using s.textFrom_induction with
  | other u v other => exact textFrom_of_ne_list other (u.erase x) u
  | leave u ref gone =>
    rw [textFrom_list_of_not_mem gone, textFrom_list_of_not_mem (mt List.mem_of_mem_erase gone)]
  | enter u ref there ih =>
    by_cases same : ref = x
    · subst same
      rw [silent .here _ List.erase_subset, silent .here u fun _ => id]
    · rw [textFrom_list there, textFrom_list ((List.mem_erase_of_ne same).mpr there),
        List.erase_comm]
      refine congrArg _ (mapM_congr_of_mem fun item mem => ?_)
      rw [itemFrom, itemFrom, ih item mem fun way u' sub =>
        silent (.through there mem (way.mono List.erase_subset)) u' fun r hr =>
          List.mem_of_mem_erase (sub hr)]

/-! ## Joining is writing, but for recurring lists -/

/-- A list is written as its items are without it. -/
theorem textOf_list (s : Store) (ref : ListRef) :
    s.textOf (.list ref) = Text.join ","
      <$> (s.items ref).mapM (s.itemFrom ((List.range s.lists.size).erase ref)) := by
  rw [textOf]
  by_cases there : ref ∈ List.range s.lists.size
  · exact textFrom_list there
  · have none : s.items ref = [] :=
      List.eq_nil_iff_forall_not_mem.mpr fun _ => mt mem_range_of_mem_items there
    rw [textFrom_list_of_not_mem there, none]
    rfl

theorem joined_comma (s : Store) (ref : ListRef) :
    ListMethod.joined s .undefined (s.items ref) = Text.join ","
      <$> (s.items ref).mapM (s.itemFrom (List.range s.lists.size)) := by
  rw [map_eq_pure_bind]
  rfl

/-- If joining gives a text, then **writing gives a shorter one**, or at least no longer one. -/
theorem joined_shortens (s : Store) (x : ListRef) :
    Shortens (2 ≤ (s.items x).length ∧ s.ContainsItself x)
      (ListMethod.joined s .undefined (s.items x)) (s.textOf (.list x)) := by
  rw [joined_comma, textOf_list]
  have item (v : Value) := itemFrom_shortens
    (textFrom_erase_shortens (s := s) (List.range s.lists.size) v List.nodup_range x)
  refine (Shortens.join fun v _ => item v).imp fun ⟨many, recurs⟩ => ?_
  obtain ⟨v, held, way⟩ := containsItself_iff.mp recurs
  exact ⟨v, held, many, mem_range_of_mem_items held, way⟩

/-- If writing gives a text, then joining does. -/
theorem joined_isOk (h : (s.textOf (.list x)).isOk) :
    (ListMethod.joined s .undefined (s.items x)).isOk := by
  have items := h
  rw [textOf_list, join_mapM_isOk_iff] at items
  rw [joined_comma, join_mapM_isOk_iff]
  intro item mem
  have without := items item mem
  rw [itemFrom] at without ⊢
  split <;> rename_i nullish
  · rfl
  · rw [if_neg nullish] at without
    exact textFrom_isOk_of_erase _ item List.nodup_range h without

theorem textFrom_of_single (there : x ∈ u) (single : s.items x = [.list ref]) :
    s.textFrom u (.list x) = s.textFrom (u.erase x) (.list ref) := by
  rw [textFrom_list there, single, List.mapM_cons, itemFrom, if_neg nofun]
  cases s.textFrom (u.erase x) (.list ref) <;> rfl

/-- A list with a single item is joined to what is written for it, also if it contains itself: its
item leaves nothing when it comes up again. -/
theorem textFrom_erase_of_single {item : Value} (once : u.Nodup) (single : s.items x = [item]) :
    s.textFrom (u.erase x) item = s.textFrom u item := by
  by_cases list : ∃ ref, item = .list ref
  · obtain ⟨ref, rfl⟩ := list
    -- without its item, nothing is left of the list
    have silent (u' : List ListRef) (gone : ref ∉ u') : s.textFrom u' (.list x) = .ok [] := by
      by_cases there : x ∈ u'
      · rw [textFrom_of_single there single,
          textFrom_list_of_not_mem (mt List.mem_of_mem_erase gone)]
      · exact textFrom_list_of_not_mem there
    by_cases there : ref ∈ u
    · by_cases same : ref = x
      · subst same
        rw [textFrom_of_single there single]
      · rw [textFrom_list there, textFrom_list ((List.mem_erase_of_ne same).mpr there),
          List.erase_comm]
        refine congrArg _ (mapM_congr_of_mem fun inner mem => ?_)
        rw [itemFrom, itemFrom, textFrom_erase _ inner fun _ u' sub =>
          silent u' fun mem => once.not_mem_erase (sub mem)]
    · rw [textFrom_list_of_not_mem there,
        textFrom_list_of_not_mem (mt List.mem_of_mem_erase there)]
  · exact textFrom_of_ne_list (not_exists.mp list) ..

/-- **Joining is writing** for a list that does not contain itself or has at most one item. -/
theorem joined_eq_textOf (h : ¬ (2 ≤ (s.items x).length ∧ s.ContainsItself x)) :
    ListMethod.joined s .undefined (s.items x) = s.textOf (.list x) := by
  rw [joined_comma, textOf_list]
  refine congrArg _ (mapM_congr_of_mem fun item mem => ?_)
  rw [itemFrom, itemFrom]
  by_cases recurs : s.ContainsItself x
  · have few : (s.items x).length = 1 := by
      have some := List.length_pos_of_mem mem
      have few : ¬ 2 ≤ (s.items x).length := fun many => h ⟨many, recurs⟩
      omega
    obtain ⟨single, items⟩ := List.length_eq_one_iff.mp few
    obtain rfl : item = single := List.mem_singleton.mp (items ▸ mem)
    rw [textFrom_erase_of_single List.nodup_range items]
  · rw [textFrom_erase _ item fun way => absurd (containsItself_iff.mpr ⟨item, mem, way⟩) recurs]

/-! ## Where the text of a list is used -/

theorem primitive_list (s : Store) (ref : ListRef) :
    s.primitive (.list ref) = Value.text <$> s.textOf (.list ref) :=
  rfl

theorem primitive_text (s : Store) (t : Text) : s.primitive (.text t) = .ok (.text t) :=
  rfl

theorem add_list_text (s : Store) (ref : ListRef) (t : Text) :
    s.add (.list ref) (.text t) = (Value.text <| · ++ t) <$> s.textOf (.list ref) := by
  rw [add, primitive_list, primitive_text]
  cases s.textOf (.list ref) with
  | ok u =>
    show (s.textOf (.text t) >>= fun t => pure (Value.text (u ++ t))) = _
    rw [textOf_text]
    rfl
  | error e => rfl

theorem add_text_list (s : Store) (ref : ListRef) (t : Text) :
    s.add (.text t) (.list ref) = (Value.text <| t ++ ·) <$> s.textOf (.list ref) := by
  rw [add, primitive_list, primitive_text]
  cases s.textOf (.list ref) with
  | ok u =>
    show (s.textOf (.text u) >>= fun u => pure (Value.text (t ++ u))) = _
    rw [textOf_text]
    rfl
  | error e => rfl

end Store

theorem Walk.template_list (s : Store) (ref : ListRef) (part : Node) (frame : FrameRef) :
    template (fun _ => pure (.list ref)) [part] frame s
      = (Value.text <$> Step.textOf (.list ref) : Step Value) s := by
  show EStateM.bind (templateTexts _ frame [part]) (fun ts => pure (.text ts.flatten)) s
    = EStateM.map Value.text (Step.textOf (.list ref)) s
  rw [EStateM.bind, EStateM.map]
  cases written : s.textOf (.list ref) with
  | ok u =>
    have read : Step.textOf (.list ref) s = .ok u s := Step.read_of_ok written
    have texts : templateTexts (fun _ => pure (.list ref)) frame [part] s = .ok [u] s :=
      Step.bind_of_ok read
    rw [texts, read]
    show EStateM.Result.ok (Value.text [u].flatten) s = .ok (.text u) s
    rw [List.flatten_singleton]
  | error e =>
    have read : Step.textOf (.list ref) s = .error (.fault (.unmet e)) s :=
      Step.read_of_error written
    have texts : templateTexts (fun _ => pure (.list ref)) frame [part] s
        = .error (.fault (.unmet e)) s := by
      show (Step.textOf (.list ref) >>= _) s = _
      exact Step.bind_of_error read
    rw [texts, read]

namespace ListMethod

/-- What the method that joins gives, called without a separator. -/
theorem call_join_comma (run : Runner) (ref : ListRef) (s : Store) :
    Step.callMethod run (.list ref) "join" [] s
      = (Value.text <$> Step.ofExcept (joined s .undefined (s.items ref)) : Step Value) s :=
  rfl

/-- **Joining without a separator gives the text of a list**, unless the list contains itself and
has more than one item; and if there is no text, it fails. The text is what stands for the list as a
key, in a sum with a text and in a template. -/
theorem join_is_text (run : Runner) (ref : ListRef) (s : Store) :
    (match s.textOf (.list ref) with
      | .ok u => ∃ t, Step.callMethod run (.list ref) "join" [] s = .ok (.text t) s
          ∧ (t = u ↔ ¬ (2 ≤ (s.items ref).length ∧ s.ContainsItself ref))
      | .error _ => ∃ e, Step.callMethod run (.list ref) "join" [] s = .error (.fault (.unmet e)) s)
    ∧ s.keyOf (.list ref) = s.textOf (.list ref)
    ∧ (∀ t, s.add (.list ref) (.text t) = (Value.text <| · ++ t) <$> s.textOf (.list ref))
    ∧ (∀ t, s.add (.text t) (.list ref) = (Value.text <| t ++ ·) <$> s.textOf (.list ref))
    ∧ ∀ part frame, Walk.template (fun _ => pure (.list ref)) [part] frame s
        = (Value.text <$> Step.textOf (.list ref) : Step Value) s := by
  refine ⟨?_, rfl, s.add_list_text ref, s.add_text_list ref, Walk.template_list s ref⟩
  have shorter := Store.joined_shortens s ref
  rw [call_join_comma]
  cases joined : joined s .undefined (s.items ref) with
  | ok t =>
    obtain ⟨u, written, -, less⟩ := shorter t joined
    rw [written]
    refine ⟨t, rfl, fun same recurs => ?_, fun plain => ?_⟩
    · exact (less recurs).ne (congrArg List.length same.symm)
    · rw [Store.joined_eq_textOf plain, written] at joined
      exact (Except.ok.inj joined).symm
  | error e =>
    cases written : s.textOf (.list ref) with
    | ok u =>
      have ok := Store.joined_isOk (s := s) (x := ref) (written ▸ rfl)
      rw [joined] at ok
      cases ok
    | error w => exact ⟨e, rfl⟩

/-- A list whose second item is the list. -/
def ouroboros : Store :=
  { Store.empty with lists := #[[.int 1, .list 0]] }

/-- It is joined to another text than it has. -/
theorem join_is_not_text_of_ouroboros :
    ouroboros.textOf (.list 0) = .ok (Text.ofString "1,")
    ∧ Step.callMethod (fun _ => pure .undefined) (.list 0) "join" [] ouroboros
      = .ok (.text (Text.ofString "1,1,")) ouroboros
    ∧ Text.ofString "1,1," ≠ Text.ofString "1," := by
  have written : ouroboros.textOf (.list 0) = .ok (Text.ofString "1,") := by decide +kernel
  have joined : joined ouroboros .undefined (ouroboros.items 0) = .ok (Text.ofString "1,1,") := by
    decide +kernel
  refine ⟨written, ?_, by decide⟩
  rw [call_join_comma, joined]
  rfl

end ListMethod

end Scriptlet
