import Scriptlet.Proofs.Contract.Collection
import Scriptlet.Proofs.Unaware.Expression
import Scriptlet.Walk.Literal
import Scriptlet.Walk.Statement

/-!
# Literals, functions and statements are unaware

Functions and variables are bound to names of the tree, and a function that is made keeps the
names of its parameters and of its body, which are names of the tree as well. So the names that
are used while a function runs were in the text in which it was written.
-/

namespace Scriptlet.Walk

variable {V : Veil} {s : Store} {run : Runner} {children : List Node} {frame : FrameRef}

/-! ## Literals and templates -/

theorem newRegexp_unaware {source flags : Text} :
    (newRegexp source flags).Unaware V s V.Fits := by
  refine .get_bind (fun _ => rfl) fun _ => ?_
  split
  · exact Step.newIdentity_unaware fun i => Value.fits_regexp i _
  · exact .fault
  · exact .error

theorem regexpValue_unaware {t : Text} : (regexpValue t).Unaware V s V.Fits := by
  unfold regexpValue
  split
  · exact newRegexp_unaware
  · exact .misshapen

theorem literal_unaware : (literal children).Unaware V s V.Fits := by
  refine Step.leafChild_unaware.bind fun leaf _ _ _ => ?_
  obtain ⟨label, t⟩ := leaf
  dsimp only
  split
  · exact Step.Unaware.map (Q := fun _ => True) (.ofExcept fun _ _ => trivial)
      fun n _ => Value.fits_number n
  · exact .pure fun _ => Value.fits_text _
  · exact regexpValue_unaware
  · exact .pure fun _ => Value.fits_bool _
  · exact .pure fun _ => Value.fits_bool _
  · exact .pure fun _ => Value.fits_null
  · exact Step.failWith_unaware

theorem chunk_unaware : (chunk children).Unaware V s fun _ => True :=
  Step.leafChild_unaware.bind fun _ _ _ _ => .pure fun _ => trivial

theorem templateTexts_unaware (hrun : run.Unaware V) (reached : .frame frame ∉ V.garbage)
    {parts : List Node} (h : ∀ n ∈ parts, V.Speaks n) :
    (templateTexts run frame parts).Unaware V s fun _ => True := by
  induction parts generalizing s with
  | nil => exact .pure fun _ => trivial
  | cons part rest ih =>
    rw [templateTexts]
    refine (hrun.eval reached (h part List.mem_cons_self)).bind fun v _ _ hv => ?_
    refine (Step.textOf_unaware (Value.fits_orUndefined (.inr hv))).bind fun t _ _ _ => ?_
    exact (ih fun n hn => h n (List.mem_cons_of_mem _ hn)).bind fun _ _ _ _ =>
      .pure fun _ => trivial

theorem template_unaware (hrun : run.Unaware V) (reached : .frame frame ∉ V.garbage)
    (h : ∀ n ∈ children, V.Speaks n) : (template run children frame).Unaware V s V.Fits :=
  (templateTexts_unaware hrun reached h).bind fun _ _ _ _ => .pure fun _ => Value.fits_text _

theorem templateValues_unaware (hrun : run.Unaware V) (reached : .frame frame ∉ V.garbage)
    {parts : List Node} (h : ∀ n ∈ parts, V.Speaks n) :
    (templateValues run frame parts).Unaware V s fun split =>
      (∀ v ∈ split.1, V.Fits v) ∧ ∀ v ∈ split.2, V.Fits v := by
  induction parts generalizing s with
  | nil => exact .pure fun _ => by simp
  | cons part rest ih =>
    have hrest : ∀ n ∈ rest, V.Speaks n := fun n hn => h n (List.mem_cons_of_mem _ hn)
    unfold templateValues
    split
    · exact .pure fun _ => by simp
    · rename_i position children others same
      obtain ⟨rfl, rfl⟩ := List.cons.inj same
      refine chunk_unaware.bind fun t _ _ _ => ?_
      refine (ih hrest).bind fun split _ _ hsplit => .pure fun _ => ?_
      exact ⟨List.forall_mem_cons.mpr ⟨Value.fits_text t, hsplit.1⟩, hsplit.2⟩
    · rename_i n others _ same
      obtain ⟨rfl, rfl⟩ := List.cons.inj same
      refine (hrun.eval reached (h _ List.mem_cons_self)).bind fun v _ _ hv => ?_
      refine (ih hrest).bind fun split _ _ hsplit => .pure fun _ => ?_
      exact ⟨hsplit.1, List.forall_mem_cons.mpr ⟨Value.fits_orUndefined (.inr hv), hsplit.2⟩⟩

theorem taggedTemplate_unaware (hrun : run.Unaware V) (reached : .frame frame ∉ V.garbage)
    (h : ∀ n ∈ children, V.Speaks n) : (taggedTemplate run children frame).Unaware V s V.Fits := by
  refine Step.pair_unaware.bind fun parts _ _ hparts => ?_
  obtain ⟨tag, quoted⟩ := parts
  obtain rfl : children = [tag, quoted] := hparts
  refine (hrun.eval reached (h tag (by simp))).bind fun f _ _ hf => ?_
  split
  · exact .pure fun _ => hf
  split
  · exact (Step.display_unaware hf).bind fun _ _ _ _ => Step.failWith_unaware
  refine (templateValues_unaware hrun reached (h quoted (by simp)).children).bind
    fun split _ _ hsplit => ?_
  refine (Step.newList_unaware hsplit.1).bind fun chunks _ _ hchunks => ?_
  exact Step.callValue_unaware hrun hf (List.forall_mem_cons.mpr ⟨hchunks, hsplit.2⟩) (by simp)

/-! ## Lists and objects -/

theorem elementItems_unaware (hrun : run.Unaware V) (reached : .frame frame ∉ V.garbage)
    {n : Node} (h : V.Speaks n) :
    (elementItems run frame n).Unaware V s fun vs => ∀ v ∈ vs, V.Fits v := by
  unfold elementItems
  split
  · exact .pure fun _ => by simp
  · refine Step.child_unaware.bind fun n _ _ hn => ?_
    refine (hrun.eval reached (h.child n (List.mem_of_getElem? hn))).bind fun v _ _ hv => ?_
    refine (Step.spread?_unaware hv).bind fun o _ _ ho => ?_
    split
    · exact .pure fun _ => ho _ rfl
    · exact (Step.display_unaware hv).bind fun _ _ _ _ => Step.warn_unaware.bind fun _ _ _ _ =>
        .pure fun _ => by simp
  · exact (hrun.eval reached h).bind fun v _ _ hv => .pure fun _ => by
      simpa using Value.fits_orUndefined (.inr hv)

theorem listItems_unaware (hrun : run.Unaware V) (reached : .frame frame ∉ V.garbage)
    {elements : List Node} (h : ∀ n ∈ elements, V.Speaks n) :
    (listItems run frame elements).Unaware V s fun vs => ∀ v ∈ vs, V.Fits v := by
  induction elements generalizing s with
  | nil => exact .pure fun _ => by simp
  | cons n rest ih =>
    rw [listItems]
    refine (elementItems_unaware hrun reached (h n List.mem_cons_self)).bind
      fun items _ _ hitems => ?_
    refine (ih fun n hn => h n (List.mem_cons_of_mem _ hn)).bind fun others _ _ hothers => ?_
    exact .pure fun _ v hv => (List.mem_append.mp hv).elim (hitems v) (hothers v)

theorem list_unaware (hrun : run.Unaware V) (reached : .frame frame ∉ V.garbage)
    (h : ∀ n ∈ children, V.Speaks n) : (list run children frame).Unaware V s V.Fits :=
  (listItems_unaware hrun reached h).bind fun _ _ _ hitems => Step.newList_unaware hitems

theorem propertyKey_unaware (hrun : run.Unaware V) (reached : .frame frame ∉ V.garbage)
    {n : Node} (h : V.Speaks n) : (propertyKey run n frame).Unaware V s fun _ => True := by
  unfold propertyKey
  split
  · exact .pure fun _ => trivial
  · exact .ofExcept_bind fun n _ => .key_bind (Value.fits_number n) fun _ => .pure fun _ => trivial
  · exact .pure fun _ => trivial
  · refine Step.branchChildren_unaware.bind fun children _ _ hchildren => ?_
    obtain rfl : children = n.children := hchildren
    refine Step.child_unaware.bind fun e _ _ he => ?_
    refine (hrun.eval reached (h.children e (List.mem_of_getElem? he))).bind fun v _ _ hv => ?_
    split
    · exact .pure fun _ => trivial
    · exact .key_bind hv fun _ => .pure fun _ => trivial

/-- Naming a function changes nothing else of it. -/
theorem nameFunction_unaware {f : FunctionRef} {name : Text} (h : V.Fits (.function f)) :
    (nameFunction f name).Unaware V s fun _ => True := by
  refine .get_bind (fun _ => rfl) fun hs => ?_
  split
  · rename_i cell hcell
    split
    · have fits := hs.functions f cell (Veil.fits_function.mp h) hcell
      exact .change (fun _ => rfl) (fun hs => hs.nameFunction hcell fits _) trivial
    · exact .pure fun _ => trivial
  · exact .pure fun _ => trivial

theorem propertyValue_unaware (hrun : run.Unaware V) (reached : .frame frame ∉ V.garbage)
    {key : Text} {n : Node} (h : V.Speaks n) :
    (propertyValue run key n frame).Unaware V s V.Fits := by
  refine (hrun.eval reached h).bind fun v _ _ hv => ?_
  split
  · split
    · exact (nameFunction_unaware hv).bind fun _ _ _ _ => .pure fun _ => hv
    · exact .pure fun _ => hv
  · exact .pure fun _ => Value.fits_orUndefined (.inr hv)

theorem objectEntries_unaware (hrun : run.Unaware V) (reached : .frame frame ∉ V.garbage)
    {entries : Entries} {properties : List Node} (hentries : ∀ e ∈ entries, V.Fits e.2)
    (h : ∀ n ∈ properties, V.Speaks n) :
    (objectEntries run frame entries properties).Unaware V s
      fun entries => ∀ e ∈ entries, V.Fits e.2 := by
  induction properties generalizing entries s with
  | nil => exact .pure fun _ => hentries
  | cons property rest ih =>
    have hproperty : V.Speaks property := h property List.mem_cons_self
    have hrest : ∀ n ∈ rest, V.Speaks n := fun n hn => h n (List.mem_cons_of_mem _ hn)
    rw [objectEntries]
    refine Step.branchChildren_unaware.bind fun children _ _ hchildren => ?_
    refine Step.pair_unaware.bind fun parts _ _ hparts => ?_
    obtain ⟨keyNode, value⟩ := parts
    have speaks : ∀ n ∈ [keyNode, value], V.Speaks n := by
      rw [← hparts, hchildren]
      exact hproperty.children
    refine (propertyKey_unaware hrun reached (speaks keyNode (by simp))).bind fun o _ _ _ => ?_
    split
    · exact Step.warn_unaware.bind fun _ _ _ _ => ih hentries hrest
    · refine (propertyValue_unaware hrun reached (speaks value (by simp))).bind fun v _ _ hv => ?_
      exact ih (Entries.put_fits hentries hv) hrest

theorem object_unaware (hrun : run.Unaware V) (reached : .frame frame ∉ V.garbage)
    (h : ∀ n ∈ children, V.Speaks n) : (object run children frame).Unaware V s V.Fits := by
  refine (objectEntries_unaware hrun reached (by simp) h).bind fun entries _ _ hentries => ?_
  exact (Step.newObject_unaware hentries).map fun _ h => h

/-! ## Functions -/

/-- The names of parameters are names of the nodes. -/
theorem parameterNames_unaware {names : List Node} :
    (parameterNames names).Unaware V s fun params => params = names.filterMap Node.identifier? := by
  induction names generalizing s with
  | nil => exact .pure fun _ => rfl
  | cons n rest ih =>
    unfold parameterNames
    split
    · rename_i name hname
      exact ih.bind fun params _ _ hparams => .pure fun _ => by
        rw [List.filterMap_cons_some hname, hparams]
    · exact .error

theorem newFunction_unaware {params : List Text} {body : Node} {name : Option Text}
    {kind : FunctionKind} (reached : .frame frame ∉ V.garbage)
    (hparams : ∀ name ∈ params, V.used name = true) (hbody : V.Speaks body) :
    (newFunction params body frame name kind).Unaware V s fun f => V.Fits (.function f) :=
  .get_bind (fun _ => rfl) fun _ => .make (fun _ => rfl) fun hs =>
    ⟨hs.newFunction ⟨reached, hparams, hbody⟩,
      Veil.fits_function.mpr (Veil.not_mem_garbage (hs.fresh (Nat.lt_irrefl _)))⟩

theorem function_unaware (reached : .frame frame ∉ V.garbage) {position : Option Position}
    (h : V.Speaks (.branch .function position children)) :
    (function children frame).Unaware V s V.Fits := by
  refine Step.child_unaware.bind fun names _ _ hnames => ?_
  refine Step.child_unaware.bind fun body _ _ hbody => ?_
  have speaks : V.Speaks body := h.child body (List.mem_of_getElem? hbody)
  refine parameterNames_unaware.bind fun params _ _ hparams => ?_
  obtain rfl : params = names.parameters := hparams
  have used : ∀ name ∈ names.parameters, V.used name = true := fun name hname => h.own name (by
    simp only [Kind.ownNames, hnames, Option.map_some, Option.getD_some, List.mem_append]
    exact .inl hname)
  split
  · exact (newFunction_unaware reached used speaks).map fun f hf => hf
  · rename_i name hname
    have own : V.used name = true := h.own name (by simp [Kind.ownNames, hname])
    refine (Step.openInner_unaware reached).bind fun inner _ _ hinner => ?_
    refine (newFunction_unaware hinner used speaks).bind fun f _ _ hf => ?_
    exact (Step.define_unaware hinner own hf).bind fun _ _ _ _ => .pure fun _ => hf

theorem arrow_unaware (reached : .frame frame ∉ V.garbage) {position : Option Position}
    (h : V.Speaks (.branch .arrow position children)) :
    (arrow children frame).Unaware V s V.Fits := by
  refine Step.pair_unaware.bind fun parts _ _ hparts => ?_
  obtain ⟨names, body⟩ := parts
  obtain rfl : children = [names, body] := hparts
  refine parameterNames_unaware.bind fun params _ _ hparams => ?_
  obtain rfl : params = names.parameters := hparams
  exact (newFunction_unaware reached (fun name hname => h.own name (by
    simpa [Kind.ownNames] using hname)) (h.child body (by simp))).map fun f hf => hf

/-- **A declaration of a function** looks at the binding of its own name. -/
theorem functionDeclaration_unaware (reached : .frame frame ∉ V.garbage)
    {position : Option Position} (h : V.Speaks (.branch .functionDeclaration position children)) :
    (functionDeclaration children frame).Unaware V s V.Fits := by
  refine Step.triple_unaware.bind fun parts _ _ hparts => ?_
  obtain ⟨nameNode, names, body⟩ := parts
  obtain rfl : children = [nameNode, names, body] := hparts
  refine Step.identifier_unaware.bind fun name _ _ hname => ?_
  have used : V.used name = true := h.own name (by simp [Kind.ownNames, hname])
  have looked {s : Store} : isDeclared (V.conceal s) = isDeclared s := rfl
  refine .get_bind (fun _ => by simp only [Veil.get?_bindings_conceal used, looked]) fun _ => ?_
  dsimp only
  split
  · exact .pure fun _ => Value.fits_undefined
  · refine parameterNames_unaware.bind fun params _ _ hparams => ?_
    obtain rfl : params = names.parameters := hparams
    have params : ∀ name ∈ names.parameters, V.used name = true := fun name hname =>
      h.own name (by simpa [Kind.ownNames] using .inr hname)
    refine (newFunction_unaware reached params (h.child body (by simp))).bind fun f _ _ hf => ?_
    exact (Step.define_unaware reached used hf).bind fun _ _ _ _ =>
      .pure fun _ => Value.fits_undefined

theorem hoist_unaware (reached : .frame frame ∉ V.garbage) {nodes : List Node}
    (h : ∀ n ∈ nodes, V.Speaks n) : (hoist frame nodes).Unaware V s fun _ => True := by
  induction nodes generalizing s with
  | nil => exact .pure fun _ => trivial
  | cons n rest ih =>
    have hrest : ∀ n ∈ rest, V.Speaks n := fun n hn => h n (List.mem_cons_of_mem _ hn)
    unfold hoist
    split
    · exact .pure fun _ => trivial
    · rename_i position children others same
      obtain ⟨rfl, rfl⟩ := List.cons.inj same
      refine (functionDeclaration_unaware reached (h _ List.mem_cons_self)).bind fun _ _ _ _ => ?_
      exact Step.remark_unaware.bind fun _ _ _ _ => ih hrest
    · rename_i n others _ same
      obtain ⟨rfl, rfl⟩ := List.cons.inj same
      exact ih hrest

/-! ## Statements -/

theorem inTurn_unaware (hrun : run.Unaware V) (reached : .frame frame ∉ V.garbage)
    {last : Value} {nodes : List Node} (hlast : V.Fits last) (h : ∀ n ∈ nodes, V.Speaks n) :
    (inTurn run frame last nodes).Unaware V s V.Fits := by
  induction nodes generalizing last s with
  | nil => exact .pure fun _ => hlast
  | cons n rest ih =>
    rw [inTurn]
    exact (hrun.eval reached (h n List.mem_cons_self)).bind fun v _ _ hv =>
      ih hv fun n hn => h n (List.mem_cons_of_mem _ hn)

theorem statements_unaware (hrun : run.Unaware V) (reached : .frame frame ∉ V.garbage)
    (h : ∀ n ∈ children, V.Speaks n) : (statements run children frame).Unaware V s V.Fits :=
  (hoist_unaware reached h).bind fun _ _ _ _ =>
    inTurn_unaware hrun reached Value.fits_undefined h

theorem declaration_unaware (hrun : run.Unaware V) (reached : .frame frame ∉ V.garbage)
    {declarators : List Node} (h : ∀ n ∈ declarators, V.Speaks n) :
    (declaration run frame declarators).Unaware V s V.Fits := by
  induction declarators generalizing s with
  | nil => exact .pure fun _ => Value.fits_undefined
  | cons n rest ih =>
    rw [declaration]
    exact (hrun.eval reached (h n List.mem_cons_self)).bind fun _ _ _ _ =>
      ih fun n hn => h n (List.mem_cons_of_mem _ hn)

theorem declarator_unaware (hrun : run.Unaware V) (reached : .frame frame ∉ V.garbage)
    {position : Option Position} (h : V.Speaks (.branch .declarator position children)) :
    (declarator run children frame).Unaware V s V.Fits := by
  refine Step.child_unaware.bind fun nameNode _ _ hnode => ?_
  refine Step.identifier_unaware.bind fun name _ _ hname => ?_
  have used : V.used name = true := h.own name (by
    simp [Kind.ownNames, List.head?_eq_getElem?, hnode, hname])
  refine (optional_unaware hrun reached fun n hn => h.child n (List.mem_of_getElem? hn)).bind
    fun v _ _ hv => ?_
  have fits : V.Fits v.orUndefined := Value.fits_orUndefined (.inr hv)
  exact (Step.define_unaware reached used fits).bind fun _ _ _ _ => .pure fun _ => fits

theorem returning_unaware (hrun : run.Unaware V) (reached : .frame frame ∉ V.garbage)
    (h : ∀ n ∈ children, V.Speaks n) : (returning run children frame).Unaware V s V.Fits := by
  refine (optional_unaware hrun reached fun n hn => h n (List.mem_of_head? hn)).bind
    fun v _ _ hv => ?_
  split
  · exact .pure fun _ => hv
  · refine .get_bind (fun _ => by simp only [Veil.functionFrame?_conceal]) fun _ => ?_
    split
    · exact .pure fun _ => hv
    · exact .throw hv

end Scriptlet.Walk
