import Scriptlet.Proofs.Contract.Expression

/-!
# Literals, templates and collections obey

A literal of a list or of an object never fails, and neither does a template without
a tag. A part of one that fails is undefined, is spelled so, or is left out, so that
what is made holds no failure.
-/

namespace Scriptlet.Walk

variable {R : Regime} {may : Prop} {s : Store} {run : Runner} {children : List Node}
  {frame : FrameRef}

/-! ## Literals -/

theorem newRegexp_obeys {source flags : Text} :
    (newRegexp source flags).Obeys R may s R.Fitting := by
  refine .get_bind fun _ => ?_
  split
  · exact Step.newIdentity_obeys fun i => Value.fits_regexp i _
  · exact .throw fun _ => ⟨_, rfl⟩
  · exact .error (by decide)

/-- A text with a code point in it has a last place where it stands. -/
theorem lastIndexOf?_isSome {t : Text} {c : CodePoint} (h : t.contains c = true) :
    (t.lastIndexOf? c).isSome = true := by
  simp only [Text.lastIndexOf?, Option.isSome_map, List.findIdx?_isSome, List.any_reverse]
  exact List.any_eq_true.mpr ⟨c, List.contains_iff_mem.mp h, by simp⟩

theorem regexpValue_obeys {t : Text} (h : R.shaped → t.contains '/' = true) :
    (regexpValue t).Obeys R may s R.Fitting := by
  unfold regexpValue
  split
  · exact newRegexp_obeys
  · rename_i hnone
    refine Step.misshapen_obeys fun hs => ?_
    have := lastIndexOf?_isSome (h hs)
    rw [hnone] at this
    cases this

/-- A literal's leaf. -/
theorem literalLeaf (h : Kind.literal.admits children = true) :
    ∃ n, children.head? = some n ∧ n.isLiteral = true := by
  match children, h with
  | [n], h => exact ⟨n, rfl, h⟩

theorem literal_obeys (h : R.Admits .literal children) :
    (literal children).Obeys R may s R.Yields := by
  refine (Step.leafChild_obeys fun hs => ?_).bind fun leaf _ _ hleaf => ?_
  · obtain ⟨n, hn, hliteral⟩ := literalLeaf (h hs).1
    refine ⟨n, hn, ?_⟩
    cases n with
    | leaf => rfl
    | _ => cases hliteral
  obtain ⟨position, hleaf⟩ := hleaf
  obtain ⟨label, t⟩ := leaf
  have isLiteral : R.shaped → (Node.leaf label t position).isLiteral = true := fun hs => by
    obtain ⟨n, hn, hliteral⟩ := literalLeaf (h hs).1
    exact Option.some.inj (hn.symm.trans hleaf) ▸ hliteral
  have conforms : R.shaped → (Node.leaf label t position).Conforms := fun hs =>
    (h hs).2 _ (List.mem_of_mem_head? hleaf)
  dsimp only
  split
  · exact Step.Obeys.map (Q := fun _ _ => True) (.ofExcept fun _ _ _ => trivial)
      fun n _ _ _ => .inl (Value.fits_number n)
  · exact .pure fun _ => .inl (Value.fits_text _)
  · exact (regexpValue_obeys fun hs => (conforms hs).slash).mono id fun _ _ _ hv => .inl hv
  · exact .pure fun _ => .inl (Value.fits_bool _)
  · exact .pure fun _ => .inl (Value.fits_bool _)
  · exact .pure fun _ => .inl Value.fits_null
  · refine Step.failWith_obeys fun hs => ?_
    have := isLiteral hs
    cases label <;> simp_all [Node.isLiteral]

/-! ## Templates -/

theorem chunk_obeys (h : R.Admits .templateChunk children) :
    (chunk children).Obeys R may s fun _ _ => True := by
  refine (Step.leafChild_obeys fun hs => ?_).bind fun leaf _ _ _ => .pure fun _ => trivial
  match children, (h hs).1 with
  | [n], admitted =>
    obtain ⟨t, position, rfl⟩ := Node.isLeafOf_iff.mp admitted
    exact ⟨_, rfl, rfl⟩

/-- A part of a template: a chunk or an expression. -/
def isPart (n : Node) : Bool :=
  n.isOf .templateChunk || n.isExpression

theorem isPart_of_admits {parts : List Node} (h : Kind.template.admits parts = true) :
    ∀ n ∈ parts, isPart n = true := fun n hn =>
  Bool.or_eq_true_iff.mpr (isOf_or_isExpression_of_alternates h n hn)

theorem part_obeys (hrun : run.Keeps R) (reached : .frame frame ∉ R.garbage) {n : Node}
    (h : R.Has isPart n) : (run (.eval n frame)).Obeys R (¬ R.shaped) s R.Yields := by
  refine hrun.quiet reached (h.mono fun hpart => ?_) fun hs => ?_
  · rcases Bool.or_eq_true_iff.mp hpart with hc | he
    · obtain ⟨position, children, rfl⟩ := Node.isOf_iff.mp hc
      rfl
    · exact Node.isWalked_of_isExpression he
  · rcases Bool.or_eq_true_iff.mp (h hs).2 with hc | he
    · exact Node.mayReturn_eq_false (.inr (.inr hc))
    · exact Node.mayReturn_eq_false (.inl he)

theorem templateTexts_obeys (hrun : run.Keeps R) (reached : .frame frame ∉ R.garbage)
    {parts : List Node} (h : ∀ n ∈ parts, R.Has isPart n) :
    (templateTexts run frame parts).Obeys R (¬ R.shaped) s fun _ _ => True := by
  induction parts generalizing s with
  | nil => exact .pure fun _ => trivial
  | cons part rest ih =>
    rw [templateTexts]
    refine (part_obeys hrun reached (h part List.mem_cons_self)).bind fun v _ _ _ => ?_
    refine Step.textOf_obeys.bind fun t _ _ _ => ?_
    exact (ih fun n hn => h n (List.mem_cons_of_mem _ hn)).bind fun _ _ _ _ =>
      .pure fun _ => trivial

theorem template_obeys (hrun : run.Keeps R) (reached : .frame frame ∉ R.garbage)
    (h : R.Admits .template children) :
    (template run children frame).Obeys R (¬ R.shaped) s R.Yields :=
  (templateTexts_obeys hrun reached (h.hasAll isPart_of_admits)).bind
    fun _ _ _ _ => .pure fun _ => .inl (Value.fits_text _)

/-- Chunks are texts, and a value that fails is undefined. -/
theorem templateValues_obeys (hrun : run.Keeps R) (reached : .frame frame ∉ R.garbage)
    {parts : List Node} (h : ∀ n ∈ parts, R.Has isPart n) :
    (templateValues run frame parts).Obeys R (¬ R.shaped) s fun split _ =>
      (∀ v ∈ split.1, v.Fits R) ∧ ∀ v ∈ split.2, v.Fits R := by
  induction parts generalizing s with
  | nil => exact .pure fun _ => by simp
  | cons part rest ih =>
    have hrest : ∀ n ∈ rest, R.Has isPart n := fun n hn => h n (List.mem_cons_of_mem _ hn)
    unfold templateValues
    split
    · exact .pure fun _ => by simp
    · rename_i position children others same
      obtain ⟨rfl, rfl⟩ := List.cons.inj same
      refine (chunk_obeys (h _ List.mem_cons_self).branch).bind fun t _ _ _ => ?_
      refine (ih hrest).bind fun split _ _ hsplit => .pure fun _ => ?_
      exact ⟨List.forall_mem_cons.mpr ⟨Value.fits_text t, hsplit.1⟩, hsplit.2⟩
    · rename_i n others _ same
      obtain ⟨rfl, rfl⟩ := List.cons.inj same
      refine (part_obeys hrun reached (h _ List.mem_cons_self)).bind fun v _ _ hv => ?_
      refine (ih hrest).bind fun split _ _ hsplit => .pure fun _ => ?_
      exact ⟨hsplit.1, List.forall_mem_cons.mpr ⟨hv.fits_orUndefined, hsplit.2⟩⟩

theorem taggedTemplate_obeys (hrun : run.Keeps R) (reached : .frame frame ∉ R.garbage)
    (h : R.Admits .taggedTemplate children) :
    (taggedTemplate run children frame).Obeys R (¬ R.shaped) s R.Yields := by
  refine (Step.pair_obeys h (by simp [Kind.pairs])).bind fun parts _ _ hparts => ?_
  obtain ⟨tag, quoted⟩ := parts
  obtain rfl : children = [tag, quoted] := hparts
  have hquoted : R.Has (·.isOf .template) quoted := h.has (by simp) (by simp_all [Kind.admits])
  refine (hrun.expression reached (h.has (by simp) (by simp_all [Kind.admits]))).bind
    fun f _ _ hf => ?_
  split
  · exact .pure fun _ => hf
  · rename_i notFailed
    split
    · exact Step.display_obeys.bind fun _ _ _ _ => Step.failWith_obeys fun _ => rfl
    rename_i callable
    refine (templateValues_obeys hrun reached
      (hquoted.admits.hasAll isPart_of_admits)).bind fun split _ _ hsplit => ?_
    refine (Step.newList_obeys hsplit.1).bind fun chunks _ _ hchunks => ?_
    exact Step.callValue_obeys hrun (hf.fits notFailed) (by simpa using callable)
      (List.forall_mem_cons.mpr ⟨hchunks, hsplit.2⟩) (by simp)

/-! ## Lists -/

/-- What an element gives fits: one that fails is undefined or left out. -/
theorem elementItems_obeys (hrun : run.Keeps R) (reached : .frame frame ∉ R.garbage) {n : Node}
    (h : R.Has Node.isElement n) :
    (elementItems run frame n).Obeys R (¬ R.shaped) s R.FittingAll := by
  unfold elementItems
  split
  · exact .pure fun _ => by simp [Regime.FittingAll]
  · refine (Step.first_obeys h.branch (Kind.exists_first (by simp [Kind.headed]))).bind
      fun n _ _ hn => ?_
    refine (hrun.expression reached hn).bind fun v _ _ hv => ?_
    refine (Step.spread?_obeys hv.failure_or_fits).bind fun o _ _ ho => ?_
    split
    · exact .pure fun _ => ho _ rfl
    · exact Step.display_obeys.bind fun _ _ _ _ =>
        (Step.warn_obeys fun _ => rfl).bind fun _ _ _ _ =>
          .pure fun _ => by simp [Regime.FittingAll]
  · rename_i noHole noSpread
    have expression : R.Has Node.isExpression n := h.mono fun hsort => by
      simp only [Node.isElement, Node.isArgument, Bool.or_eq_true] at hsort
      rcases hsort with (he | hspread) | hhole
      · exact he
      · obtain ⟨position, children, rfl⟩ := Node.isOf_iff.mp hspread
        exact absurd rfl (noSpread position children)
      · obtain ⟨position, children, rfl⟩ := Node.isOf_iff.mp hhole
        exact absurd rfl (noHole position children)
    exact (hrun.expression reached expression).bind fun v _ _ hv => .pure fun _ => by
      simpa [Regime.FittingAll] using hv.fits_orUndefined

theorem listItems_obeys (hrun : run.Keeps R) (reached : .frame frame ∉ R.garbage)
    {elements : List Node} (h : ∀ n ∈ elements, R.Has Node.isElement n) :
    (listItems run frame elements).Obeys R (¬ R.shaped) s R.FittingAll := by
  induction elements generalizing s with
  | nil => exact .pure fun _ => by simp [Regime.FittingAll]
  | cons n rest ih =>
    rw [listItems]
    refine (elementItems_obeys hrun reached (h n List.mem_cons_self)).bind
      fun items _ _ hitems => ?_
    refine (ih fun n hn => h n (List.mem_cons_of_mem _ hn)).bind fun others _ _ hothers => ?_
    exact .pure fun _ v hv => (List.mem_append.mp hv).elim (hitems v) (hothers v)

theorem list_obeys (hrun : run.Keeps R) (reached : .frame frame ∉ R.garbage)
    (h : R.Admits .array children) :
    (list run children frame).Obeys R (¬ R.shaped) s R.Yields :=
  (listItems_obeys hrun reached (h.hasAll fun ha => by simpa [Kind.admits] using ha)).bind
    fun _ _ _ hitems => (Step.newList_obeys hitems).mono id fun _ _ _ hv => .inl hv

/-! ## Objects -/

theorem propertyKey_obeys (hrun : run.Keeps R) (reached : .frame frame ∉ R.garbage) {n : Node}
    (h : R.Has Node.isKey n) :
    (propertyKey run n frame).Obeys R (¬ R.shaped) s fun _ _ => True := by
  unfold propertyKey
  split
  · exact .pure fun _ => trivial
  · exact Step.Obeys.ofExcept_bind fun _ _ => Step.Obeys.read_bind fun _ _ =>
      .pure fun _ => trivial
  · exact .pure fun _ => trivial
  · rename_i _ _ noLeaf
    have computed : R.Has (·.isOf .computedKey) n := h.mono fun hsort => by
      cases n with
      | leaf label t position => exact absurd rfl (noLeaf label t position)
      | branch | stray => simpa [Node.isKey, Node.isLeafOf] using hsort
    refine (Step.branchChildren_obeys fun hs => ⟨_, (computed hs).2⟩).bind
      fun children _ _ hchildren => ?_
    obtain rfl : children = n.children := hchildren
    refine (Step.first_obeys computed.admits (Kind.exists_first (by simp [Kind.headed]))).bind
      fun e _ _ he => ?_
    refine (hrun.expression reached he).bind fun v _ _ _ => ?_
    split
    · exact .pure fun _ => trivial
    · exact Step.Obeys.read_bind fun _ _ => .pure fun _ => trivial

/-- Naming a function changes neither its body nor its frame. -/
theorem nameFunction_obeys {f : FunctionRef} {name : Text} (h : (Value.function f).Fits R) :
    (nameFunction f name).Obeys R may s fun _ _ => True := by
  refine .get_bind fun hs => ?_
  split
  · rename_i cell hcell
    split
    · have fits : R.FitsFunction cell := hs.functions f cell ((Value.fits_function f).mp h) hcell
      exact .change fun hs => ⟨hs.setFunction fits, trivial⟩
    · exact .pure fun _ => trivial
  · exact .pure fun _ => trivial

theorem propertyValue_obeys (hrun : run.Keeps R) (reached : .frame frame ∉ R.garbage)
    {key : Text} {n : Node} (h : R.Has Node.isExpression n) :
    (propertyValue run key n frame).Obeys R (¬ R.shaped) s R.Fitting := by
  refine (hrun.expression reached h).bind fun v _ _ hv => ?_
  split
  · have hf : (Value.function _).Fits R := hv.fits (by simp)
    split
    · exact (nameFunction_obeys hf).bind fun _ _ _ _ => .pure fun _ => hf
    · exact .pure fun _ => hf
  · exact .pure fun _ => hv.fits_orUndefined

theorem objectEntries_obeys (hrun : run.Keeps R) (reached : .frame frame ∉ R.garbage)
    {entries : Entries} {properties : List Node} (hentries : ∀ e ∈ entries, e.2.Fits R)
    (h : ∀ n ∈ properties, R.Has (·.isOf .property) n) :
    (objectEntries run frame entries properties).Obeys R (¬ R.shaped) s
      fun entries _ => ∀ e ∈ entries, e.2.Fits R := by
  induction properties generalizing entries s with
  | nil => exact .pure fun _ => hentries
  | cons property rest ih =>
    have hproperty : R.Has (·.isOf .property) property := h property List.mem_cons_self
    have hrest : ∀ n ∈ rest, R.Has (·.isOf .property) n :=
      fun n hn => h n (List.mem_cons_of_mem _ hn)
    rw [objectEntries]
    refine (Step.branchChildren_obeys fun hs => ⟨_, (hproperty hs).2⟩).bind
      fun children _ _ hchildren => ?_
    have admits : R.Admits .property children := hchildren ▸ hproperty.admits
    refine (Step.pair_obeys admits (by simp [Kind.pairs])).bind fun parts _ _ hparts => ?_
    obtain ⟨keyNode, value⟩ := parts
    obtain rfl : children = [keyNode, value] := hparts
    refine (propertyKey_obeys hrun reached (admits.has (by simp) (by simp_all [Kind.admits]))).bind
      fun o _ _ _ => ?_
    split
    · exact (Step.warn_obeys fun _ => rfl).bind fun _ _ _ _ => ih hentries hrest
    · refine (propertyValue_obeys hrun reached
        (admits.has (by simp) (by simp_all [Kind.admits]))).bind fun v _ _ hv => ?_
      exact ih (Entries.put_fits hentries hv) hrest

theorem object_obeys (hrun : run.Keeps R) (reached : .frame frame ∉ R.garbage)
    (h : R.Admits .object children) :
    (object run children frame).Obeys R (¬ R.shaped) s R.Yields := by
  refine (objectEntries_obeys hrun reached (by simp)
    (h.hasAll fun ha => by simpa [Kind.admits] using ha)).bind fun entries _ _ hentries => ?_
  exact .map_make fun hs => ⟨hs.newObject hentries,
    .inl ((Value.fits_object _).mpr (hs.newObject_not_mem entries))⟩

end Scriptlet.Walk
