import Scriptlet.Operator
import Scriptlet.Property
import Scriptlet.Proofs.Contract

/-!
# Names, properties and operators obey

What a name or a property gives was stored before or is made on the spot, and what is
written is what was handed in. Neither depends on how tasks are run.
-/

namespace Scriptlet

/-! ## Entries -/

/-- What is found under a key is the value of one of the entries. -/
theorem Entries.mem_of_get? {entries : Entries} {key : Key} {v : Value}
    (h : entries.get? key = some v) : ∃ e ∈ entries, e.2 = v := by
  obtain ⟨e, he, rfl⟩ := Option.map_eq_some_iff.mp h
  exact ⟨e, List.mem_of_find?_eq_some he, rfl⟩

/-- After an entry has been put its value is new or was there before. -/
theorem Entries.mem_put {entries : Entries} {key : Key} {v : Value} {e : Key × Value}
    (h : e ∈ entries.put key v) : e.2 = v ∨ ∃ e' ∈ entries, e'.2 = e.2 := by
  induction entries with
  | nil =>
    obtain rfl : e = (key, v) := by simpa [Entries.put] using h
    exact .inl rfl
  | cons first rest ih =>
    rw [Entries.put] at h
    split at h
    · rcases List.mem_cons.mp h with rfl | h
      · exact .inl rfl
      · exact .inr ⟨e, List.mem_cons_of_mem _ h, rfl⟩
    · rcases List.mem_cons.mp h with rfl | h
      · exact .inr ⟨e, List.mem_cons_self, rfl⟩
      · refine (ih h).imp id ?_
        rintro ⟨e', he', same⟩
        exact ⟨e', List.mem_cons_of_mem _ he', same⟩

theorem Entries.put_fits {R : Regime} {entries : Entries} {key : Key} {v : Value}
    (h : ∀ e ∈ entries, e.2.Fits R) (hv : v.Fits R) : ∀ e ∈ entries.put key v, e.2.Fits R := by
  intro e he
  rcases Entries.mem_put he with same | ⟨e', he', same⟩
  · exact same ▸ hv
  · exact same ▸ h e' he'

theorem putAttribute_fits {R : Regime} {attributes : List (Text × Value)} {name : Text}
    {v : Value} (h : ∀ a ∈ attributes, a.2.Fits R) (hv : v.Fits R) :
    ∀ a ∈ putAttribute attributes name v, a.2.Fits R := by
  induction attributes with
  | nil => simpa [putAttribute] using hv
  | cons first rest ih =>
    rw [putAttribute]
    split
    · intro a ha
      rcases List.mem_cons.mp ha with rfl | ha
      · exact hv
      · exact h a (List.mem_cons_of_mem _ ha)
    · intro a ha
      rcases List.mem_cons.mp ha with rfl | ha
      · exact h _ List.mem_cons_self
      · exact ih (fun a ha => h a (List.mem_cons_of_mem _ ha)) a ha

/-! ## Names -/

namespace Regime.Sound

variable {R : Regime} {s : Store}

/-- The frame around a frame within reach is within reach. -/
theorem parent? (hs : R.Sound s) {frame parent : FrameRef} (h : .frame frame ∉ R.garbage)
    (hp : s.parent? frame = some parent) : .frame parent ∉ R.garbage := by
  unfold Store.parent? at hp
  cases hf : s.frames[frame]? with
  | none => simp [hf] at hp
  | some cell =>
    rw [hf] at hp
    exact (hs.frames frame cell h hf).2 parent ((Option.filter_eq_some_iff.mp hp).1)

/-- Looking outward stays within reach. -/
theorem firstFrame? (hs : R.Sound s) {p : FrameRef → Bool} {frame found : FrameRef}
    (h : .frame frame ∉ R.garbage) (hf : s.firstFrame? p frame = some found) :
    .frame found ∉ R.garbage := by
  fun_induction Store.firstFrame? s p frame with
  | case1 frame _ =>
    obtain rfl : frame = found := by simpa using hf
    exact h
  | case2 => cases hf
  | case3 frame _ parent hparent ih => exact ih (hs.parent? h hparent) hf

theorem outermost (hs : R.Sound s) {frame : FrameRef} (h : .frame frame ∉ R.garbage) :
    .frame (s.outermost frame) ∉ R.garbage := by
  fun_induction Store.outermost s frame with
  | case1 => exact h
  | case2 frame parent hparent ih => exact ih (hs.parent? h hparent)

/-- The value of a name fits. -/
theorem lookup (hs : R.Sound s) {frame : FrameRef} {name : Text} (h : .frame frame ∉ R.garbage) :
    (s.lookup frame name).Fits R := by
  unfold Store.lookup
  split
  · exact Value.fits_undefined
  · rename_i binder hb
    refine Value.fits_ofOption fun v hv => ?_
    obtain ⟨e, he, rfl⟩ := Entries.mem_of_get? hv
    exact hs.bindings (hs.firstFrame? h hb) e he

theorem define (hs : R.Sound s) {frame : FrameRef} {name : Text} {v : Value}
    (h : .frame frame ∉ R.garbage) (hv : v.Fits R) : R.Sound (s.define frame name v) := by
  unfold Store.define
  split
  · exact hs
  · rename_i cell hf
    exact hs.setEntries (Entries.put_fits (hs.entries (hs.frames frame cell h hf).1) hv)

theorem assign (hs : R.Sound s) {frame : FrameRef} {name : Text} {v : Value}
    (h : .frame frame ∉ R.garbage) (hv : v.Fits R) : R.Sound (s.assign frame name v) := by
  refine hs.define ?_ hv
  cases hb : s.binder? frame name with
  | none => exact hs.outermost h
  | some binder => exact hs.firstFrame? h hb

/-- A frame opened inside another is within reach, is none of those outside of calls,
and leaves the store sound. -/
theorem openInner (hs : R.Sound s) {parent : FrameRef} (h : .frame parent ∉ R.garbage) :
    R.Sound (s.openInner parent).2 ∧ .frame (s.openInner parent).1 ∉ R.garbage ∧
      (s.openInner parent).1 ∉ R.outside := by
  have hs' : R.Sound (s.newObject []).2 := hs.newObject (by simp)
  have fits : R.FitsFrame ⟨(s.newObject []).1, some parent, false,
      none.or ((some parent).bind (s.newObject []).2.sourceOf)⟩ :=
    ⟨hs.newObject_not_mem [], by simpa using h⟩
  exact ⟨hs'.newFrame fits, hs'.newFrame_not_mem _, hs'.newFrame_not_outside _⟩

/-- A frame that is none of those outside of calls may belong to one. -/
theorem markFunction (hs : R.Sound s) {frame : FrameRef} (h : .frame frame ∉ R.garbage)
    (ho : frame ∉ R.outside) : R.Sound (s.markFunction frame) := by
  unfold Store.markFunction
  split
  · exact hs
  · rename_i cell hf
    exact hs.setFrame (hs.frames frame cell h hf) fun hmem => absurd hmem ho

/-- Frames outside of calls are in none. -/
theorem functionFrame?_eq_none (hs : R.Sound s) {frame : FrameRef} (h : frame ∈ R.outside) :
    s.functionFrame? frame = none := by
  unfold Store.functionFrame?
  obtain ⟨cell, found, out, around⟩ := hs.outside frame h
  induction frame using Nat.strongRecOn generalizing cell with
  | ind frame ih =>
    rw [Store.firstFrame?, if_neg (by simp [Store.isFunctionFrame, found, out])]
    split
    · rfl
    · rename_i parent hparent
      have inside : cell.parent = some parent := by
        rw [Store.parent?, found] at hparent
        exact (Option.filter_eq_some_iff.mp hparent).1
      obtain ⟨outer, found', out', around'⟩ := hs.outside parent (around parent inside)
      exact ih parent (Store.parent?_lt hparent) (around parent inside) outer found' out' around'

end Regime.Sound

namespace Step

variable {R : Regime} {may : Prop} {s : Store}

theorem lookup_obeys {frame : FrameRef} {name : Text} (h : .frame frame ∉ R.garbage) :
    (Step.lookup frame name).Obeys R may s R.Fitting :=
  .get_bind fun hs => .pure fun _ => hs.lookup h

theorem define_obeys {frame : FrameRef} {name : Text} {v : Value} (h : .frame frame ∉ R.garbage)
    (hv : v.Fits R) : (Step.define frame name v).Obeys R may s fun _ _ => True :=
  .change fun hs => ⟨hs.define h hv, trivial⟩

/-! ## Reading properties -/

theorem methodOrUndefined_obeys {v : Value} {name : Text} (h : v.Fits R) :
    (Step.methodOrUndefined v name).Obeys R may s R.Fitting := by
  unfold Step.methodOrUndefined
  split
  · exact newMethod_obeys h
  · exact .pure fun _ => Value.fits_undefined

theorem describeKey_obeys {key : Value} : (Step.describeKey key).Obeys R may s fun _ _ => True :=
  .read fun _ _ _ => trivial

theorem getEntry_obeys {ref : ObjectRef} {key : Value} (h : (Value.object ref).Fits R) :
    (Step.getEntry ref key).Obeys R may s R.Fitting := by
  refine .get_bind fun hs => ?_
  refine Obeys.read_bind fun slot _ => ?_
  split
  · rename_i v hv
    obtain ⟨e, he, rfl⟩ := Entries.mem_of_get? hv
    exact .pure fun _ => hs.entries ((Value.fits_object ref).mp h) e he
  · exact Obeys.read_bind fun name _ => methodOrUndefined_obeys h

theorem getItem_obeys {v : Value} {items : List Value} {key : Value} (h : v.Fits R)
    (hitems : ∀ w ∈ items, w.Fits R) : (Step.getItem v items key).Obeys R may s R.Fitting := by
  refine Obeys.ofExcept_bind fun index _ => ?_
  split
  · exact .pure fun _ => Value.fits_ofOption_getElem? hitems _
  · refine Obeys.read_bind fun name _ => ?_
    split
    · exact .pure fun _ => Value.fits_int _
    · exact methodOrUndefined_obeys h

theorem getRegexpPart_obeys {v : Value} {r : Regexp} {key : Value} (h : v.Fits R) :
    (Step.getRegexpPart v r key).Obeys R may s R.Fitting := by
  refine Obeys.read_bind fun name _ => ?_
  split
  · exact .pure fun _ => Value.fits_text _
  split
  · exact .pure fun _ => Value.fits_text _
  split
  · exact .pure fun _ => Value.fits_bool _
  · exact methodOrUndefined_obeys h

/-- Whether a value fits that is looked up in a list of attributes. -/
theorem fits_of_lookup {attributes : List (Text × Value)} {name : Text} {v : Value}
    (h : ∀ a ∈ attributes, a.2.Fits R) (hv : attributes.lookup name = some v) : v.Fits R := by
  obtain ⟨before, after, rfl, -⟩ := List.lookup_eq_some_iff.mp hv
  exact h (name, v) (by simp)

theorem getAttribute_obeys {ref : HostRef} {name : Text} (h : (Value.host ref).Fits R) :
    (Step.getAttribute ref name).Obeys R may s R.Fitting := by
  obtain ⟨hp, href⟩ := (Value.fits_host ref).mp h
  refine .get_bind fun hs => ?_
  split
  · rename_i v hv
    exact .pure fun _ => fits_of_lookup (hs.attributes href) hv
  split
  · exact newIdentity_obeys fun i => (Value.fits_hostMethod i ref _).mpr ⟨hp, href⟩
  · exact .pure fun _ => Value.fits_undefined

theorem getPart_obeys {v : Value} {name : Text} (h : v.Fits R) :
    (Step.getPart v name).Obeys R may s R.Fitting := by
  unfold Step.getPart
  split
  · exact .pure fun _ => Value.fits_undefined
  split
  · exact getAttribute_obeys h
  · refine .get_bind fun hs => ?_
    split
    · exact .pure fun _ => Value.fits_undefined
    split
    · rename_i cell _ _
      refine .pure fun _ => ?_
      cases cell.name with
      | none => exact Value.fits_null
      | some name => exact Value.fits_text name
    split
    · exact .pure fun _ => Value.fits_text _
    split
    · exact newList_obeys (by simp)
    · exact .pure fun _ => Value.fits_undefined
  · split
    · exact .pure fun _ => Value.fits_text _
    split
    · exact .pure fun _ => (Value.fits_method _ _ _).mp h
    · exact .pure fun _ => Value.fits_undefined
  · exact .pure fun _ => Value.fits_undefined

/-- **Reading a property** gives what fits, or a failure with a warning. -/
theorem getProperty_obeys {v key : Value} (h : v.Fits R) :
    (Step.getProperty v key).Obeys R may s R.Yields := by
  have yields {step : Step Value} {s : Store} (h : step.Obeys R may s R.Fitting) :
      step.Obeys R may s R.Yields := h.mono id fun _ _ _ hv => .inl hv
  unfold Step.getProperty
  split
  · refine describeKey_obeys.bind fun shown _ _ _ => display_obeys.bind fun whose _ _ _ => ?_
    exact failWith_obeys fun _ => rfl
  · refine describeKey_obeys.bind fun shown _ _ _ => display_obeys.bind fun whose _ _ _ => ?_
    exact failWith_obeys fun _ => rfl
  · exact yields (getEntry_obeys h)
  · exact yields (.get_bind fun hs => getItem_obeys h (hs.items h))
  · exact yields (getItem_obeys h (by simp))
  · exact yields (getRegexpPart_obeys h)
  · exact .pure fun _ => .inl Value.fits_undefined
  · exact Obeys.read_bind fun name _ =>
      yields (methodOrUndefined_obeys h)
  · exact Obeys.read_bind fun name _ => yields (getPart_obeys h)

/-! ## Writing properties -/

theorem room_obeys {n : Nat} : (Step.room n).Obeys R may s fun _ _ => True :=
  .ofExcept_bind fun _ _ => .pure fun _ => trivial

theorem lengthOf_obeys {v : Value} : (Step.lengthOf v).Obeys R may s fun _ _ => True := by
  refine numberOf_obeys.bind fun n _ _ _ => ?_
  refine Obeys.ofExcept_bind fun x _ => ?_
  split
  · split
    · exact .pure fun _ => trivial
    · exact .pure fun _ => trivial
  · exact .error (by decide)

theorem setLength_obeys {ref : ListRef} {v : Value} (h : (Value.list ref).Fits R) :
    (Step.setLength ref v).Obeys R may s fun _ _ => True := by
  refine lengthOf_obeys.bind fun length _ _ _ => .get_bind fun hs => ?_
  refine room_obeys.bind fun _ _ _ _ => .change fun hs' => ⟨hs'.setItems ?_, trivial⟩
  intro w hw
  rcases List.mem_append.mp hw with hw | hw
  · exact hs.items h w (List.mem_of_mem_take hw)
  · rw [List.eq_of_mem_replicate hw]
    exact Value.fits_undefined

theorem putItem_fits {items : List Value} {index : Nat} {v : Value}
    (h : ∀ w ∈ items, w.Fits R) (hv : v.Fits R) : ∀ w ∈ Step.putItem items index v, w.Fits R := by
  intro w hw
  rcases List.mem_or_eq_of_mem_set hw with hw | rfl
  · rcases List.mem_append.mp hw with hw | hw
    · exact h w hw
    · rw [List.eq_of_mem_replicate hw]
      exact Value.fits_undefined
  · exact hv

theorem setItem_obeys {ref : ListRef} {key v : Value} (h : (Value.list ref).Fits R)
    (hv : v.Fits R) : (Step.setItem ref key v).Obeys R may s R.Yields := by
  refine Obeys.ofExcept_bind fun index _ => ?_
  split
  · refine .get_bind fun hs => room_obeys.bind fun _ _ _ _ => ?_
    refine Obeys.change_bind (fun hs' => hs'.setItems (putItem_fits (hs.items h) hv)) ?_
    exact .pure fun _ => .inl hv
  · refine Obeys.read_bind fun name _ => ?_
    split
    · exact (setLength_obeys h).bind fun _ _ _ _ => .pure fun _ => .inl hv
    · exact describeKey_obeys.bind fun _ _ _ _ => failWith_obeys fun _ => rfl

theorem setAttribute_obeys {ref : HostRef} {name : Text} {v : Value}
    (h : .host ref ∉ R.garbage) (hv : v.Fits R) :
    (Step.setAttribute ref name v).Obeys R may s fun _ _ => True :=
  .change fun hs => ⟨hs.setAttributes (putAttribute_fits (hs.attributes h) hv), trivial⟩

theorem setPart_obeys {target : Value} {name : Text} {v : Value} (hp : target ≠ .failure → ¬ R.plain)
    (h : target.Fits R) (hv : v.Fits R) :
    (Step.setPart target name v).Obeys R may s R.Yields := by
  unfold Step.setPart
  split
  · exact failWith_obeys fun _ => rfl
  split
  · rename_i ref
    exact (setAttribute_obeys ((Value.fits_host ref).mp h).2 hv).bind
      fun _ _ _ _ => .pure fun _ => .inl hv
  · exact .pure fun _ => .inl hv
  · rename_i hfailure
    exact .fault (hp hfailure)

/-- **Writing a property** gives what was written, or a failure with a warning. -/
theorem setProperty_obeys {target key v : Value} (h : target.Fits R) (hv : v.Fits R) :
    (Step.setProperty target key v).Obeys R may s R.Yields := by
  unfold Step.setProperty
  split
  · rename_i ref
    refine Obeys.read_bind fun slot _ => ?_
    refine Obeys.change_bind (fun hs => hs.setEntries (Entries.put_fits
      (hs.entries ((Value.fits_object ref).mp h)) hv)) ?_
    exact .pure fun _ => .inl hv
  · exact setItem_obeys h hv
  · exact Obeys.read_bind fun name _ =>
      setPart_obeys (fun _ => ((Value.fits_host _).mp h).1) h hv
  · exact Obeys.read_bind fun name _ =>
      setPart_obeys (fun _ => ((Value.fits_tuple _ _).mp h).1) h hv
  · exact Obeys.read_bind fun name _ => setPart_obeys (fun h => absurd rfl h) h hv
  · refine describeKey_obeys.bind fun shown _ _ _ => display_obeys.bind fun whose _ _ _ => ?_
    exact failWith_obeys fun _ => rfl

/-! ## Operators -/

end Step

namespace Store

variable {R : Regime} {s : Store}

/-- What an operator before its operand gives is a number or a truth value. -/
theorem applyUnary_fits {op : UnaryOperator} {v w : Value} (h : s.applyUnary op v = .ok w) :
    w.Fits R := by
  cases op with
  | plus =>
    obtain ⟨n, -, h⟩ := Except.of_bind_eq_ok h
    cases h
    exact Value.fits_number n
  | minus =>
    obtain ⟨n, -, h⟩ := Except.of_bind_eq_ok h
    split at h <;> cases h
    · exact Value.fits_float _
    · exact Value.fits_number _
  | complement =>
    obtain ⟨n, -, h⟩ := Except.of_bind_eq_ok h
    cases h
    exact Value.fits_int _
  | not =>
    obtain ⟨b, -, h⟩ := Except.of_bind_eq_ok h
    cases h
    exact Value.fits_bool _

/-- A sum is a text or a number. -/
theorem add_fits {a b w : Value} (h : s.add a b = .ok w) : w.Fits R := by
  obtain ⟨a, -, h⟩ := Except.of_bind_eq_ok h
  obtain ⟨b, -, h⟩ := Except.of_bind_eq_ok h
  split at h
  · obtain ⟨t, -, h⟩ := Except.of_bind_eq_ok h
    cases h
    exact Value.fits_text _
  · obtain ⟨t, -, h⟩ := Except.of_bind_eq_ok h
    cases h
    exact Value.fits_text _
  · obtain ⟨x, -, h⟩ := Except.of_bind_eq_ok h
    obtain ⟨y, -, h⟩ := Except.of_bind_eq_ok h
    obtain ⟨n, -, h⟩ := Except.of_bind_eq_ok h
    cases h
    exact Value.fits_number _

/-- What an operator between its operands gives is primitive or the second of them. -/
theorem applyBinary_fits {op : BinaryOperator} {a b w : Value} (hb : b.Fits R)
    (h : s.applyBinary op a b = .ok w) : w.Fits R := by
  cases op with
  | looseEquality negated =>
    obtain ⟨x, -, h⟩ := Except.of_bind_eq_ok h
    cases h
    exact Value.fits_bool _
  | strictEquality negated =>
    cases h
    exact Value.fits_bool _
  | add => exact add_fits h
  | arithmetic op =>
    obtain ⟨x, -, h⟩ := Except.of_bind_eq_ok h
    obtain ⟨y, -, h⟩ := Except.of_bind_eq_ok h
    obtain ⟨n, -, h⟩ := Except.of_bind_eq_ok h
    cases h
    exact Value.fits_number _
  | order op =>
    obtain ⟨x, -, h⟩ := Except.of_bind_eq_ok h
    cases h
    exact Value.fits_bool _
  | bits op =>
    obtain ⟨x, -, h⟩ := Except.of_bind_eq_ok h
    obtain ⟨y, -, h⟩ := Except.of_bind_eq_ok h
    cases h
    exact Value.fits_int _
  | conjunction | disjunction =>
    cases h
    exact hb

end Store

theorem Step.applyBinary_obeys {R : Regime} {may : Prop} {s : Store} {spelling : Text}
    {a b : Value} (hb : b.Fits R) :
    (Step.applyBinary spelling a b).Obeys R may s R.Yields := by
  unfold Step.applyBinary
  split
  · exact .read fun _ w hw => .inl (Store.applyBinary_fits hb hw)
  · exact failWith_obeys fun _ => rfl

end Scriptlet
