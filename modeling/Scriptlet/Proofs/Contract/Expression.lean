import Scriptlet.Proofs.Contract.Part

/-!
# Expressions obey

Each kind of expression has its own rule for a part that fails: the whole fails, or
undefined takes the place of the part, or the part is left out. Whichever it is, a
failure only ever goes straight up, and no failure is stored.
-/

namespace Scriptlet

/-- A result with a property **or none**, of which a warning has been given. -/
def Regime.Offers (R : Regime) (H : α → Prop) (o : Option α) (s : Store) : Prop :=
  match o with
  | some a => H a
  | none => R.Warned s

namespace Walk

variable {R : Regime} {may : Prop} {s : Store} {run : Runner} {children : List Node}
  {frame : FrameRef}

/-! ## Members -/

theorem memberKey_obeys (hrun : run.Keeps R) (reached : .frame frame ∉ R.garbage)
    {object : Value} {property : Node}
    (h : R.Has (fun n => n.isLeafOf .identifier || n.isExpression) property) :
    (memberKey run object property frame).Obeys R (¬ R.shaped) s R.Yields := by
  unfold memberKey
  split
  · exact Step.failWith_obeys fun _ => rfl
  split
  · split
    · exact Step.display_obeys.bind fun _ _ _ _ => Step.failWith_obeys fun _ => rfl
    · exact .pure fun _ => .inl (Value.fits_text _)
  · rename_i noLeaf
    have expression : R.Has Node.isExpression property := h.mono fun hsort => by
      cases property with
      | leaf label text position => exact absurd rfl (noLeaf label text position)
      | branch | stray => simpa [Node.isLeafOf] using hsort
    refine (hrun.expression reached expression).bind fun key _ _ hkey => ?_
    split
    · exact .pure fun _ => hkey
    · refine Step.Obeys.ofExcept_bind fun truth _ => ?_
      split
      · exact .pure fun _ => hkey
      · exact Step.display_obeys.bind fun _ _ _ _ => Step.failWith_obeys fun _ => rfl

theorem memberParts_obeys (hrun : run.Keeps R) (reached : .frame frame ∉ R.garbage)
    (h : R.Admits .member children) :
    (memberParts run children frame).Obeys R (¬ R.shaped) s
      (R.Offers fun parts => parts.1.Fits R ∧ parts.2.Fits R) := by
  refine (Step.pair_obeys h (by simp [Kind.pairs])).bind fun parts _ _ hparts => ?_
  obtain ⟨owner, property⟩ := parts
  obtain rfl : children = [owner, property] := hparts
  have howner : R.Has Node.isExpression owner := h.has (by simp) (by simp_all [Kind.admits])
  refine (hrun.expression reached howner).bind fun object _ _ hobject => ?_
  split
  · exact .pure fun _ => hobject.warned
  · rename_i notFailed
    refine (memberKey_obeys hrun reached (h.has (by simp) (by simp_all [Kind.admits]))).bind
      fun key _ _ hkey => ?_
    split
    · exact .pure fun _ => hkey.warned
    · rename_i keyNotFailed
      exact .pure fun _ => ⟨hobject.fits notFailed, hkey.fits keyNotFailed⟩

theorem member_obeys (hrun : run.Keeps R) (reached : .frame frame ∉ R.garbage)
    (h : R.Admits .member children) :
    (member run children frame).Obeys R (¬ R.shaped) s R.Yields := by
  refine (memberParts_obeys hrun reached h).bind fun parts _ _ hparts => ?_
  split
  · exact .pure fun _ => .inr ⟨rfl, hparts⟩
  · exact Step.getProperty_obeys hparts.1

/-! ## Arguments -/

theorem spreadArgument_obeys (hrun : run.Keeps R) (reached : .frame frame ∉ R.garbage)
    (h : R.Admits .spread children) :
    (spreadArgument run children frame).Obeys R (¬ R.shaped) s
      (R.Offers fun values => ∀ v ∈ values, v.Fits R) := by
  refine (Step.first_obeys h (Kind.exists_first (by simp [Kind.headed]))).bind fun n _ _ hn => ?_
  refine (hrun.expression reached hn).bind fun v s' _ hv => ?_
  refine (Step.spread?_obeys hv.failure_or_fits).bind fun o _ _ ho => ?_
  split
  · exact .pure fun _ => ho _ rfl
  · exact Step.display_obeys.bind fun _ _ _ _ =>
      (Step.warn_obeys fun _ => rfl).bind fun _ _ _ hw => .pure fun _ => hw

theorem argumentValues_obeys (hrun : run.Keeps R) (reached : .frame frame ∉ R.garbage)
    {n : Node} (h : R.Has Node.isArgument n) :
    (argumentValues run frame n).Obeys R (¬ R.shaped) s
      (R.Offers fun values => ∀ v ∈ values, v.Fits R) := by
  unfold argumentValues
  split
  · exact spreadArgument_obeys hrun reached h.branch
  · rename_i noSpread
    have expression : R.Has Node.isExpression n := h.mono fun hsort => by
      rcases Bool.or_eq_true_iff.mp hsort with he | hspread
      · exact he
      · obtain ⟨position, children, rfl⟩ := Node.isOf_iff.mp hspread
        exact absurd rfl (noSpread position children)
    refine (hrun.expression reached expression).bind fun v _ _ hv => ?_
    split
    · exact .pure fun _ => hv.warned
    · rename_i notFailed
      exact .pure fun _ => by simpa [Regime.Offers] using hv.fits notFailed

/-- **The arguments of a call** fit, or a warning has been given. -/
theorem callArguments_obeys (hrun : run.Keeps R) (reached : .frame frame ∉ R.garbage)
    {args : List Node} (h : ∀ n ∈ args, R.Has Node.isArgument n) :
    (callArguments run frame args).Obeys R (¬ R.shaped) s
      (R.Offers fun values => ∀ v ∈ values, v.Fits R) := by
  induction args generalizing s with
  | nil => exact .pure fun _ => by simp [Regime.Offers]
  | cons n rest ih =>
    rw [callArguments]
    refine (argumentValues_obeys hrun reached (h n List.mem_cons_self)).bind fun o _ _ ho => ?_
    split
    · exact .pure fun _ => ho
    refine (ih fun n hn => h n (List.mem_cons_of_mem _ hn)).bind fun others _ _ hothers => ?_
    split
    · exact .pure fun _ => hothers
    · exact .pure fun _ v hv => (List.mem_append.mp hv).elim (ho v) (hothers v)

/-- **The arguments of a construction** fit. -/
theorem constructArguments_obeys (hrun : run.Keeps R) (reached : .frame frame ∉ R.garbage)
    {args : List Node} (h : ∀ n ∈ args, R.Has Node.isArgument n) :
    (constructArguments run frame args).Obeys R (¬ R.shaped) s R.FittingAll := by
  induction args generalizing s with
  | nil => exact .pure fun _ => by simp [Regime.FittingAll]
  | cons n rest ih =>
    rw [constructArguments]
    refine (argumentValues_obeys hrun reached (h n List.mem_cons_self)).bind fun o _ _ ho => ?_
    refine (ih fun n hn => h n (List.mem_cons_of_mem _ hn)).bind fun others _ _ hothers => ?_
    refine .pure fun _ v hv => (List.mem_append.mp hv).elim (fun hv => ?_) (hothers v)
    cases o with
    | some values => exact ho v hv
    | none =>
      -- What takes the place of an argument that fails is undefined, or nothing.
      simp only [Option.getD_none] at hv
      split at hv
      · cases hv
      · obtain rfl := List.mem_singleton.mp hv
        exact Value.fits_undefined

/-! ## Calls -/

/-- What is called is not yet known to be callable, and may be a failure. -/
theorem callee_obeys (hrun : run.Keeps R) (reached : .frame frame ∉ R.garbage) {n : Node}
    (h : R.Has Node.isExpression n) :
    (callee run n frame).Obeys R (¬ R.shaped) s fun o s' =>
      R.Offers (fun parts => R.Yields parts.1 s' ∧ ∀ v, parts.2 = some v → v.Fits R) o s' := by
  unfold callee
  split
  · refine (memberParts_obeys hrun reached h.branch).bind fun parts _ _ hparts => ?_
    split
    · exact .pure fun _ => hparts
    · refine (Step.getProperty_obeys hparts.1).bind fun f _ _ hf => .pure fun _ => ?_
      exact ⟨hf, by simpa using hparts.1⟩
  · exact (hrun.expression reached h).bind fun f _ _ hf => .pure fun _ => ⟨hf, by simp⟩

/-- **A call** gives what fits, or a failure with a warning. -/
theorem call_obeys (hrun : run.Keeps R) (reached : .frame frame ∉ R.garbage)
    (h : R.Admits .call children) :
    (call run children frame).Obeys R (¬ R.shaped) s R.Yields := by
  refine (Step.pair_obeys h (by simp [Kind.pairs])).bind fun parts _ _ hparts => ?_
  obtain ⟨calleeNode, args⟩ := parts
  obtain rfl : children = [calleeNode, args] := hparts
  have hcallee : R.Has Node.isExpression calleeNode := h.has (by simp) (by simp_all [Kind.admits])
  have hargs : R.Has (·.isOf .arguments) args := h.has (by simp) (by simp_all [Kind.admits])
  refine (callee_obeys hrun reached hcallee).bind fun o _ _ ho => ?_
  split
  · exact .pure fun _ => .inr ⟨rfl, ho⟩
  · exact Step.failWith_obeys fun _ => rfl
  · rename_i f receiver notFailed
    split
    · exact Step.display_obeys.bind fun _ _ _ _ => Step.failWith_obeys fun _ => rfl
    rename_i callable
    refine (callArguments_obeys hrun reached
      (hargs.admits.hasAll fun ha => by simpa [Kind.admits] using ha)).bind fun args _ _ hargs => ?_
    split
    · exact .pure fun _ => .inr ⟨rfl, hargs⟩
    · exact Step.callValue_obeys hrun (ho.1.fits notFailed) (by simpa using callable) hargs ho.2

theorem construct_obeys (hrun : run.Keeps R) (reached : .frame frame ∉ R.garbage)
    (h : R.Admits .construct children) :
    (construct run children frame).Obeys R (¬ R.shaped) s R.Yields := by
  refine (Step.pair_obeys h (by simp [Kind.pairs])).bind fun parts _ _ hparts => ?_
  obtain ⟨constructor, args⟩ := parts
  obtain rfl : children = [constructor, args] := hparts
  have hcallee : R.Has Node.isExpression constructor := h.has (by simp) (by simp_all [Kind.admits])
  have hargs : R.Has (·.isOf .arguments) args := h.has (by simp) (by simp_all [Kind.admits])
  refine (hrun.expression reached hcallee).bind fun f _ _ hf => ?_
  split
  · exact .pure fun _ => hf
  · rename_i notFailed
    refine (constructArguments_obeys hrun reached
      (hargs.admits.hasAll fun ha => by simpa [Kind.admits] using ha)).bind fun args _ _ hargs => ?_
    exact (Step.construct_obeys hrun (hf.fits notFailed) hargs).mono id fun _ _ _ hv => .inl hv

/-! ## Assignments -/

/-- A target that **fits**: a frame within reach, or an object and a key that fit. -/
def Target.Fits (R : Regime) : Target → Prop
  | .name frame _ => .frame frame ∉ R.garbage
  | .member object key => object.Fits R ∧ key.Fits R

theorem Target.read_obeys {target : Target} (h : target.Fits R) :
    target.read.Obeys R may s R.Yields := by
  cases target with
  | name frame n => exact (Step.lookup_obeys h).mono id fun _ _ _ hv => .inl hv
  | member object key => exact Step.getProperty_obeys h.1

theorem Target.write_obeys {target : Target} {v : Value} (h : target.Fits R) (hv : v.Fits R) :
    (target.write v).Obeys R may s R.Yields := by
  cases target with
  | name frame n => exact .change_bind (fun hs => hs.assign h hv) (.pure fun _ => .inl hv)
  | member object key => exact Step.setProperty_obeys h.1 hv

/-- A target is found wherever the table has one, unless a part of it fails. -/
theorem target?_obeys (hrun : run.Keeps R) (reached : .frame frame ∉ R.garbage) {n : Node}
    (h : R.Has Node.isTarget n) :
    (target? run n frame).Obeys R (¬ R.shaped) s (R.Offers (Target.Fits R)) := by
  unfold target?
  split
  · refine (Step.first_obeys h.branch (Kind.exists_name (.inl rfl))).bind fun name _ _ hname => ?_
    exact (Step.identifier_obeys hname).bind fun _ _ _ _ => .pure fun _ => reached
  · refine (memberParts_obeys hrun reached h.branch).bind fun parts _ _ hparts => ?_
    split
    · exact .pure fun _ => hparts
    · exact .pure fun _ => hparts
  · rename_i noName noMember
    refine (Step.warn_obeys fun hs => ?_).bind fun _ _ _ hw => .pure fun _ => hw
    rcases Node.isTarget_iff.mp (h hs).2 with hk | hk
    · obtain ⟨position, children, rfl⟩ := Node.isOf_iff.mp hk
      exact absurd rfl (noName position children)
    · obtain ⟨position, children, rfl⟩ := Node.isOf_iff.mp hk
      exact absurd rfl (noMember position children)

theorem assignTo_obeys {target : Target} {how : Assigning} {v : Value} (h : target.Fits R)
    (hv : v.Fits R) : (assignTo target how v).Obeys R may s R.Yields := by
  unfold assignTo
  split
  · exact Target.write_obeys h hv
  · refine (Target.read_obeys h).bind fun current _ _ _ => ?_
    refine (Step.applyBinary_obeys hv).bind fun result _ _ hresult => ?_
    split
    · exact .pure fun _ => hresult
    · rename_i notFailed
      exact Target.write_obeys h (hresult.fits notFailed)

/-- **An assignment** writes only what fits. -/
theorem assign_obeys (hrun : run.Keeps R) (reached : .frame frame ∉ R.garbage)
    (h : R.Admits .assign children) :
    (assign run children frame).Obeys R (¬ R.shaped) s R.Yields := by
  refine (Step.triple_obeys h (by simp [Kind.triples])).bind fun parts _ _ hparts => ?_
  obtain ⟨targetNode, sign, value⟩ := parts
  obtain rfl : children = [targetNode, sign, value] := hparts
  have htarget : R.Has Node.isTarget targetNode := h.has (by simp) (by simp_all [Kind.admits])
  have hvalue : R.Has Node.isExpression value := h.has (by simp) (by simp_all [Kind.admits])
  refine (hrun.expression reached hvalue).bind fun v _ _ hv => ?_
  split
  · exact .pure fun _ => hv
  · rename_i notFailed
    split
    · exact Step.failWith_obeys fun _ => rfl
    refine (target?_obeys hrun reached htarget).bind fun o _ _ ho => ?_
    split
    · exact .pure fun _ => .inr ⟨rfl, ho⟩
    · exact assignTo_obeys ho (hv.fits notFailed)

/-- A step by one is a number. -/
theorem stepped?_fits {sign : Text} {v w : Value} (h : stepped? s sign v = .ok (some w)) :
    w.Fits R := by
  unfold stepped? at h
  split at h
  · obtain ⟨n, -, h⟩ := Except.of_bind_eq_ok h
    obtain ⟨m, -, h⟩ := Except.of_bind_eq_ok h
    cases h
    exact Value.fits_number m
  split at h
  · obtain ⟨n, -, h⟩ := Except.of_bind_eq_ok h
    obtain ⟨m, -, h⟩ := Except.of_bind_eq_ok h
    cases h
    exact Value.fits_number m
  · cases h

/-- The signs that the table has are steps. -/
theorem stepped?_ne_none {sign : Text} {v : Value} (h : sign ∈ stepSigns) :
    stepped? s sign v ≠ .ok none := by
  have steps : sign = "++" ∨ sign = "--" := by simpa [stepSigns] using h
  intro hnone
  unfold stepped? at hnone
  rcases steps with rfl | rfl
  · obtain ⟨n, -, hnone⟩ := Except.of_bind_eq_ok hnone
    obtain ⟨m, -, hnone⟩ := Except.of_bind_eq_ok hnone
    cases hnone
  · obtain ⟨n, -, hnone⟩ := Except.of_bind_eq_ok hnone
    obtain ⟨m, -, hnone⟩ := Except.of_bind_eq_ok hnone
    cases hnone

theorem update_obeys (hrun : run.Keeps R) (reached : .frame frame ∉ R.garbage)
    (h : R.Admits .update children) :
    (update run children frame).Obeys R (¬ R.shaped) s R.Yields := by
  refine (Step.pair_obeys h (by simp [Kind.pairs])).bind fun parts _ _ hparts => ?_
  obtain ⟨sign, targetNode⟩ := parts
  obtain rfl : children = [sign, targetNode] := hparts
  have htarget : R.Has Node.isTarget targetNode := h.has (by simp) (by simp_all [Kind.admits])
  refine (target?_obeys hrun reached htarget).bind fun o _ _ ho => ?_
  split
  · exact .pure fun _ => .inr ⟨rfl, ho⟩
  refine (Target.read_obeys ho).bind fun current _ _ hcurrent => ?_
  split
  · exact .pure fun _ => hcurrent
  refine Step.Obeys.read_bind fun o' ho' => ?_
  split
  · exact Target.write_obeys ho (stepped?_fits ho')
  · refine Step.failWith_obeys fun hs => ?_
    have known : sign.asText ∈ stepSigns := by
      have admitted := (h hs).1
      simp only [Kind.admits, two, Node.isLeafAmong, Bool.and_eq_true, List.contains_iff_mem] at admitted
      exact admitted.1.2
    exact absurd ho' (stepped?_ne_none known)

/-! ## Operations -/

theorem unary_obeys (hrun : run.Keeps R) (reached : .frame frame ∉ R.garbage)
    (h : R.Admits .unary children) :
    (unary run children frame).Obeys R (¬ R.shaped) s R.Yields := by
  refine (Step.pair_obeys h (by simp [Kind.pairs])).bind fun parts _ _ hparts => ?_
  obtain ⟨operator, operand⟩ := parts
  obtain rfl : children = [operator, operand] := hparts
  dsimp only
  split
  · exact Step.failWith_obeys fun _ => rfl
  refine (hrun.expression reached (h.has (by simp) (by simp_all [Kind.admits]))).bind
    fun v _ _ hv => ?_
  split
  · exact .pure fun _ => hv
  · exact .read fun _ w hw => .inl (Store.applyUnary_fits hw)

/-- What a logical operator is decided on is the left operand, or false. -/
theorem decided?_obeys {spelling : Text} {left : Value} (h : left.Fits R) :
    (decided? spelling left).Obeys R may s fun o _ => ∀ v, o = some v → v.Fits R := by
  unfold decided?
  split
  · refine Step.Obeys.ofExcept_bind fun truth _ => .pure fun _ => ?_
    split <;> simp
  split
  · refine Step.Obeys.ofExcept_bind fun truth _ => .pure fun _ => ?_
    split <;> simp [h]
  · exact .pure fun _ => by simp

theorem binary_obeys (hrun : run.Keeps R) (reached : .frame frame ∉ R.garbage) {kind : Kind}
    (h : R.Admits kind children) (hk : kind = .binary ∨ kind = .logical) :
    (binary run children frame).Obeys R (¬ R.shaped) s R.Yields := by
  refine (Step.triple_obeys h (by rcases hk with rfl | rfl <;> simp [Kind.triples])).bind
    fun parts _ _ hparts => ?_
  obtain ⟨left, operator, right⟩ := parts
  obtain rfl : children = [left, operator, right] := hparts
  have hleft : R.Has Node.isExpression left :=
    h.has (by simp) (by rcases hk with rfl | rfl <;> simp_all [Kind.admits])
  have hright : R.Has Node.isExpression right :=
    h.has (by simp) (by rcases hk with rfl | rfl <;> simp_all [Kind.admits])
  refine (hrun.expression reached hleft).bind fun a _ _ ha => ?_
  split
  · exact .pure fun _ => ha
  · rename_i notFailed
    refine (decided?_obeys (ha.fits notFailed)).bind fun o _ _ ho => ?_
    split
    · exact .pure fun _ => .inl (ho _ rfl)
    refine (hrun.expression reached hright).bind fun b _ _ hb => ?_
    split
    · exact .pure fun _ => hb
    · rename_i notFailed'
      exact Step.applyBinary_obeys (hb.fits notFailed')

end Walk

end Scriptlet
