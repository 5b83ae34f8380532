import Scriptlet.Proofs.Unaware.Reading

/-!
# Names and properties under a veil

A name that may be used is looked up and bound as if nothing were hidden, and so are the
properties of values that fit. An attribute of an object of the host is only looked at after
its name has turned out to be within reach.
-/

namespace Scriptlet

namespace Step

variable {V : Veil} {s : Store}

/-! ## Names -/

theorem lookup_unaware {frame : FrameRef} {name : Text} (h : .frame frame ∉ V.garbage)
    (used : V.used name = true) : (Step.lookup frame name).Unaware V s V.Fits :=
  .get_bind (fun _ => by rw [Veil.lookup_conceal used]) fun hs => .pure fun _ => hs.lookup h

theorem define_unaware {frame : FrameRef} {name : Text} {v : Value} (h : .frame frame ∉ V.garbage)
    (used : V.used name = true) (hv : V.Fits v) :
    (Step.define frame name v).Unaware V s fun _ => True :=
  .change (fun _ => Veil.conceal_define used frame v) (fun hs => hs.define h used hv) trivial

theorem openInner_unaware {frame : FrameRef} (h : .frame frame ∉ V.garbage) :
    (Step.make (·.openInner frame)).Unaware V s fun inner => .frame inner ∉ V.garbage :=
  .make (fun hs => hs.conceal_openInner frame) fun hs => hs.openInner h

/-! ## Reading properties -/

theorem methodOrUndefined_unaware {v : Value} {name : Text} (h : V.Fits v) :
    (Step.methodOrUndefined v name).Unaware V s V.Fits := by
  unfold Step.methodOrUndefined
  split
  · exact newMethod_unaware h
  · exact .pure fun _ => Value.fits_undefined

theorem getEntry_unaware {ref : ObjectRef} {key : Value} (h : V.Fits (.object ref))
    (hk : V.Fits key) : (Step.getEntry ref key).Unaware V s V.Fits := by
  refine .get_bind (fun _ => by simp only [Veil.entries_conceal_of_fits h]) fun hs => ?_
  refine .read_bind (fun hs => hs.entryKey_conceal hk) fun slot _ => ?_
  split
  · rename_i v hv
    obtain ⟨e, he, rfl⟩ := Entries.mem_of_get? hv
    exact .pure fun _ => hs.entries_fit h e he
  · exact .key_bind hk fun name => methodOrUndefined_unaware h

theorem getItem_unaware {v : Value} {items : List Value} {key : Value} (h : V.Fits v)
    (hk : V.Fits key) (hitems : ∀ w ∈ items, V.Fits w) :
    (Step.getItem v items key).Unaware V s V.Fits := by
  refine .ofExcept_bind fun index _ => ?_
  split
  · exact .pure fun _ => Value.fits_ofOption_getElem? hitems _
  · refine .key_bind hk fun name => ?_
    split
    · exact .pure fun _ => Value.fits_int _
    · exact methodOrUndefined_unaware h

theorem getRegexpPart_unaware {v : Value} {r : Regexp} {key : Value} (h : V.Fits v)
    (hk : V.Fits key) : (Step.getRegexpPart v r key).Unaware V s V.Fits := by
  refine .key_bind hk fun name => ?_
  split
  · exact .pure fun _ => Value.fits_text _
  split
  · exact .pure fun _ => Value.fits_text _
  split
  · exact .pure fun _ => Value.fits_bool _
  · exact methodOrUndefined_unaware h

/-- An attribute **within reach** is not hidden. -/
theorem getAttribute_unaware {ref : HostRef} {name : Text} (h : V.Fits (.host ref))
    (isOpen : isOpenAttribute name = true) : (Step.getAttribute ref name).Unaware V s V.Fits := by
  have shown := V.attributes_closed name isOpen
  refine .get_bind (fun _ => by
    simp only [Veil.lookup_attributes_conceal shown, Veil.hostMethods_conceal]) fun hs => ?_
  split
  · rename_i v hv
    exact .pure fun _ => fits_of_lookup (hs.attributes (Veil.fits_host.mp h)) hv
  split
  · exact newIdentity_unaware fun i => Veil.fits_hostMethod.mpr (Veil.fits_host.mp h)
  · exact .pure fun _ => Value.fits_undefined

theorem getPart_unaware {v : Value} {name : Text} (h : V.Fits v) :
    (Step.getPart v name).Unaware V s V.Fits := by
  unfold Step.getPart
  split
  · exact .pure fun _ => Value.fits_undefined
  rename_i isOpen
  split
  · exact getAttribute_unaware h (by simpa using isOpen)
  · refine .get_bind (fun _ => rfl) fun _ => ?_
    split
    · exact .pure fun _ => Value.fits_undefined
    split
    · rename_i cell _ _
      refine .pure fun _ => ?_
      cases cell.name with
      | none => exact Value.fits_null
      | some name => exact Value.fits_text name
    split
    · exact .pure fun _ => Value.fits_text _
    split
    · exact newList_unaware (by simp)
    · exact .pure fun _ => Value.fits_undefined
  · split
    · exact .pure fun _ => Value.fits_text _
    split
    · exact .pure fun _ => (Value.fits_method _ _ _).mp h
    · exact .pure fun _ => Value.fits_undefined
  · exact .pure fun _ => Value.fits_undefined

/-- **Reading a property** of a value that fits. -/
theorem getProperty_unaware {v key : Value} (h : V.Fits v) (hk : V.Fits key) :
    (Step.getProperty v key).Unaware V s V.Fits := by
  unfold Step.getProperty
  split
  · exact (describeKey_unaware hk).bind fun _ _ _ _ => (display_unaware h).bind fun _ _ _ _ =>
      failWith_unaware
  · exact (describeKey_unaware hk).bind fun _ _ _ _ => (display_unaware h).bind fun _ _ _ _ =>
      failWith_unaware
  · exact getEntry_unaware h hk
  · exact .get_bind (fun _ => rfl) fun hs => getItem_unaware h hk (hs.items h)
  · exact getItem_unaware h hk (by simp)
  · exact getRegexpPart_unaware h hk
  · exact .pure fun _ => Value.fits_undefined
  · exact .key_bind hk fun name => methodOrUndefined_unaware h
  · exact .key_bind hk fun name => getPart_unaware h

/-! ## Writing properties -/

theorem room_unaware {n : Nat} : (Step.room n).Unaware V s fun _ => True :=
  .ofExcept_bind fun _ _ => .pure fun _ => trivial

theorem lengthOf_unaware {v : Value} (h : V.Fits v) :
    (Step.lengthOf v).Unaware V s fun _ => True := by
  refine (numberOf_unaware h).bind fun n _ _ _ => .ofExcept_bind fun x _ => ?_
  split
  · split <;> exact .pure fun _ => trivial
  · exact .error

theorem setItems_unaware {ref : ListRef} {items : List Value} (h : ∀ v ∈ items, V.Fits v) :
    Unaware V s (fun _ => True) (modify fun s => s.setItems ref items : Step Unit) :=
  .change (fun _ => rfl) (fun hs => hs.setItems h) trivial

theorem setLength_unaware {ref : ListRef} {v : Value} (h : V.Fits (.list ref)) (hv : V.Fits v) :
    (Step.setLength ref v).Unaware V s fun _ => True := by
  refine (lengthOf_unaware hv).bind fun length _ _ _ => .get_bind (fun _ => rfl) fun hs => ?_
  refine room_unaware.bind fun _ _ _ _ => setItems_unaware fun w hw => ?_
  rcases List.mem_append.mp hw with hw | hw
  · exact hs.items h w (List.mem_of_mem_take hw)
  · rw [List.eq_of_mem_replicate hw]
    exact Value.fits_undefined

theorem setItem_unaware {ref : ListRef} {key v : Value} (h : V.Fits (.list ref))
    (hk : V.Fits key) (hv : V.Fits v) : (Step.setItem ref key v).Unaware V s V.Fits := by
  refine .ofExcept_bind fun index _ => ?_
  split
  · refine .get_bind (fun _ => rfl) fun hs => room_unaware.bind fun _ _ _ _ => ?_
    exact (setItems_unaware (putItem_fits (hs.items h) hv)).bind fun _ _ _ _ => .pure fun _ => hv
  · refine .key_bind hk fun name => ?_
    split
    · exact (setLength_unaware h hv).bind fun _ _ _ _ => .pure fun _ => hv
    · exact (describeKey_unaware hk).bind fun _ _ _ _ => failWith_unaware

theorem setEntries_unaware {ref : ObjectRef} {key : Key} {v : Value} (h : V.Fits (.object ref))
    (hv : V.Fits v) : Unaware V s (fun _ => True)
      (modify fun s => s.setEntries ref ((s.entries ref).put key v) : Step Unit) := by
  have other := Veil.context_ne (Veil.fits_object.mp h)
  refine .change (fun _ => ?_) (fun hs => ?_) trivial
  · rw [Veil.conceal_setEntries, Veil.veiledEntries, if_neg other, Veil.entries_conceal_of_fits h]
  · exact hs.setEntries (Entries.put_fits (hs.entries_fit h) hv) fun same => absurd same other

theorem setAttribute_unaware {ref : HostRef} {name : Text} {v : Value} (h : V.Fits (.host ref))
    (isOpen : isOpenAttribute name = true) (hv : V.Fits v) :
    (Step.setAttribute ref name v).Unaware V s fun _ => True := by
  have shown := V.attributes_closed name isOpen
  refine .change (fun _ => ?_) (fun hs => ?_) trivial
  · rw [Veil.conceal_setAttributes, Veil.attributes_conceal, Veil.veiledAttributes,
      Veil.filter_putAttribute (p := fun name => !V.attributes name) (by simp [shown])]
    rfl
  · exact hs.setAttributes (putAttribute_fits (hs.attributes (Veil.fits_host.mp h)) hv)
      (Veil.filter_putAttribute_of_not (V.spared_closed name isOpen) v)

theorem setPart_unaware {target : Value} {name : Text} {v : Value} (h : V.Fits target)
    (hv : V.Fits v) : (Step.setPart target name v).Unaware V s V.Fits := by
  unfold Step.setPart
  split
  · exact failWith_unaware
  rename_i isOpen
  split
  · exact (setAttribute_unaware h (by simpa using isOpen) hv).bind
      fun _ _ _ _ => .pure fun _ => hv
  · exact .pure fun _ => hv
  · exact .fault

/-- **Writing a property** of a value that fits. -/
theorem setProperty_unaware {target key v : Value} (h : V.Fits target) (hk : V.Fits key)
    (hv : V.Fits v) : (Step.setProperty target key v).Unaware V s V.Fits := by
  unfold Step.setProperty
  split
  · refine .read_bind (fun hs => by
      rw [Veil.entries_conceal_of_fits h, hs.entryKey_conceal hk]) fun slot _ => ?_
    exact (setEntries_unaware h hv).bind fun _ _ _ _ => .pure fun _ => hv
  · exact setItem_unaware h hk hv
  · exact .key_bind hk fun name => setPart_unaware h hv
  · exact .key_bind hk fun name => setPart_unaware h hv
  · exact .key_bind hk fun name => setPart_unaware h hv
  · exact (describeKey_unaware hk).bind fun _ _ _ _ => (display_unaware h).bind fun _ _ _ _ =>
      failWith_unaware

/-! ## Operators -/

theorem applyBinary_unaware {spelling : Text} {a b : Value} (ha : V.Fits a) (hb : V.Fits b) :
    (Step.applyBinary spelling a b).Unaware V s V.Fits := by
  unfold Step.applyBinary
  split
  · exact .read (fun hs => hs.applyBinary_conceal ha hb) fun _ w hw => Store.applyBinary_fits hb hw
  · exact failWith_unaware

end Step

end Scriptlet
