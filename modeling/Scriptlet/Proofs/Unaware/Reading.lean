import Scriptlet.Operator
import Scriptlet.Proofs.Novelty
import Scriptlet.Proofs.Unaware
import Scriptlet.Walk.Assignment

/-!
# What is read is the same

How a value is shown, its text and its number, whether two values are equal and which of them
comes first: none of this depends on what a veil hides, as long as the values fit. From them
one only gets to lists, and to objects whose entries are all in sight.
-/

namespace Scriptlet

/-- What goes on with a result may rely on its being one. -/
theorem Except.bind_congr_of_ok {x : Except ε α} {f g : α → Except ε β}
    (h : ∀ a, x = .ok a → f a = g a) : x >>= f = x >>= g := by
  cases x with
  | ok a => exact h a rfl
  | error e => rfl

/-- A primitive value fits always. -/
theorem Store.primitive_fits {R : Regime} {s : Store} {v w : Value} (h : s.primitive v = .ok w) :
    w.Fits R := by
  have spelled {x : Except Unmet Text} (h : Value.text <$> x = .ok w) : w.Fits R := by
    cases x with
    | ok t =>
      cases h
      exact Value.fits_text t
    | error u => cases h
  cases v with
  | undefined | null | bool | number | text =>
    cases h
    simp
  | _ => exact spelled h

namespace Veil

variable {V : Veil} {s : Store}

/-! ## Showing values -/

@[simp] theorem all_conceal : Unvisited.all (V.conceal s) = Unvisited.all s := by
  simp [Unvisited.all]

/-- An attribute within reach is found in the concealed store as well. -/
theorem lookup_attributes_conceal {ref : HostRef} {name : Text} (h : V.attributes name = false) :
    ((V.conceal s).attributes ref).lookup name = (s.attributes ref).lookup name := by
  rw [attributes_conceal, veiledAttributes]
  exact lookup_filter (p := fun name => !V.attributes name) (by simp [h])

@[simp] theorem kindName_conceal (v : Value) : (V.conceal s).kindName v = s.kindName v := by
  cases v with
  | host ref => simp only [Store.kindName, hostKinds_conceal]
  | number n => cases n <;> rfl
  | _ => rfl

@[simp] theorem hostMethods_conceal (ref : HostRef) :
    (V.conceal s).hostMethods ref = s.hostMethods ref := by
  simp only [Store.hostMethods, hostKinds_conceal]

/-- The entries of an object that a value names are all in sight. -/
theorem entries_conceal_of_fits {ref : ObjectRef} (h : V.Fits (.object ref)) :
    (V.conceal s).entries ref = s.entries ref :=
  entries_conceal_of_ne (context_ne (fits_object.mp h))

theorem fits_boolToNumber {v : Value} (h : V.Fits v) : V.Fits v.boolToNumber := by
  cases v <;> first | exact Value.fits_int _ | exact h

namespace Sound

variable (hs : V.Sound s)
include hs

theorem entries_fit {ref : ObjectRef} (h : V.Fits (.object ref)) :
    ∀ e ∈ s.entries ref, V.Fits e.2 :=
  hs.entries (not_mem_garbage (fits_object.mp h))

theorem describeHost_conceal (ref : HostRef) :
    (V.conceal s).describeHost ref = s.describeHost ref :=
  hostShown_conceal fun kind isIn => (hs.kinds kind isIn).description ref

theorem describeFrom_conceal (unvisited : Unvisited) (entered : List Identity) {v : Value}
    (h : V.Fits v) :
    (V.conceal s).describeFrom unvisited entered v = s.describeFrom unvisited entered v := by
  induction unvisited, entered, v using Store.describeFrom.induct with
  | case7 unvisited entered ref there ih =>
    simp only [Store.describeFrom, dif_pos there, items_conceal]
    rw [mapM_congr_of_mem fun item hitem => ih item (hs.items h item hitem)]
  | case9 unvisited entered ref there ih =>
    simp only [Store.describeFrom, dif_pos there, entries_conceal_of_fits h]
    rw [mapM_congr_of_mem fun e he => by rw [ih e (hs.entries_fit h e he)]]
  | case12 unvisited entered identity items notEntered ih =>
    simp only [Store.describeFrom, if_neg notEntered]
    rw [mapM_congr_of_mem fun item _ => ih item.1 item.2 (fits_tuple.mp h item.1 item.2)]
  | case16 unvisited entered identity name subject notEntered ih =>
    simp only [Store.describeFrom, if_neg notEntered]
    rw [ih ((Value.fits_method _ _ _).mp h)]
  | _ => simp_all [Store.describeFrom, hs.describeHost_conceal]

theorem describe_conceal {v : Value} (h : V.Fits v) : (V.conceal s).describe v = s.describe v := by
  rw [Store.describe, all_conceal, hs.describeFrom_conceal _ _ h, Store.describe]

theorem plain_conceal {v : Value} (h : V.Fits v) : (V.conceal s).plain v = s.plain v := by
  cases v with
  | text t => rfl
  | host ref =>
    exact congrArg Except.ok (hostShown_conceal fun kind isIn => (hs.kinds kind isIn).text ref)
  | _ => exact hs.describe_conceal h

theorem textFrom_conceal (unvisited : List ListRef) {v : Value} (h : V.Fits v) :
    (V.conceal s).textFrom unvisited v = s.textFrom unvisited v := by
  induction unvisited, v using Store.textFrom.induct with
  | case6 unvisited ref there ih =>
    simp only [Store.textFrom, dif_pos there, items_conceal]
    rw [mapM_congr_of_mem fun item hitem => by rw [ih item (hs.items h item hitem)]]
  | case14 unvisited v => cases v <;> simp_all [Store.textFrom, hs.plain_conceal]
  | _ => simp_all [Store.textFrom]

/-- **The text of a value.** -/
theorem textOf_conceal {v : Value} (h : V.Fits v) : (V.conceal s).textOf v = s.textOf v := by
  rw [Store.textOf, lists_conceal, hs.textFrom_conceal _ h, Store.textOf]

theorem keyOf_conceal {v : Value} (h : V.Fits v) : (V.conceal s).keyOf v = s.keyOf v :=
  hs.textOf_conceal h

theorem displayFrom_conceal (unvisited : Unvisited) {v : Value} (h : V.Fits v) :
    (V.conceal s).displayFrom unvisited v = s.displayFrom unvisited v := by
  induction unvisited, v using Store.displayFrom.induct with
  | case3 unvisited ref there ih =>
    simp only [Store.displayFrom, dif_pos there, items_conceal]
    rw [mapM_congr_of_mem fun item hitem => ih item (hs.items h item hitem)]
  | case5 unvisited ref there ih =>
    simp only [Store.displayFrom, dif_pos there, entries_conceal_of_fits h]
    rw [mapM_congr_of_mem fun e he => by rw [ih e (hs.entries_fit h e he)]]
  | case10 unvisited ref => simp only [Store.displayFrom, hs.describeHost_conceal]
  | case11 unvisited v => cases v <;> simp_all [Store.displayFrom, hs.textOf_conceal]
  | _ => simp_all [Store.displayFrom]

theorem display_conceal {v : Value} (h : V.Fits v) : (V.conceal s).display v = s.display v := by
  rw [Store.display, all_conceal, hs.displayFrom_conceal _ h, Store.display]

/-! ## Numbers and offsets -/

/-- **The number of a value.** -/
theorem numberOf_conceal {v : Value} (h : V.Fits v) : (V.conceal s).numberOf v = s.numberOf v := by
  cases v with
  | list ref => simp only [Store.numberOf, hs.textOf_conceal h]
  | _ => rfl

theorem int32Of_conceal {v : Value} (h : V.Fits v) : (V.conceal s).int32Of v = s.int32Of v := by
  simp only [Store.int32Of, hs.numberOf_conceal h]

theorem extentOf_conceal {v : Value} (h : V.Fits v) : (V.conceal s).extentOf v = s.extentOf v := by
  simp only [Store.extentOf, hs.numberOf_conceal h]

theorem relativeOffset_conceal {v : Value} (h : V.Fits v) (length default : Nat) :
    (V.conceal s).relativeOffset v length default = s.relativeOffset v length default := by
  simp only [Store.relativeOffset, hs.extentOf_conceal h]

theorem clampedOffset_conceal {v : Value} (h : V.Fits v) (length default : Nat) :
    (V.conceal s).clampedOffset v length default = s.clampedOffset v length default := by
  simp only [Store.clampedOffset, hs.extentOf_conceal h]

/-! ## Operators -/

theorem primitive_conceal {v : Value} (h : V.Fits v) :
    (V.conceal s).primitive v = s.primitive v := by
  cases v <;> first | rfl | simp only [Store.primitive, hs.textOf_conceal h]

theorem equalPrimitives_conceal {a b : Value} (ha : V.Fits a) (hb : V.Fits b) :
    (V.conceal s).equalPrimitives a b = s.equalPrimitives a b := by
  simp only [Store.equalPrimitives, hs.numberOf_conceal ha, hs.numberOf_conceal hb]

/-- A computation with the primitive values of two values. -/
theorem primitives_conceal {f g : Value → Value → Except Unmet α} {a b : Value} (ha : V.Fits a)
    (hb : V.Fits b) (h : ∀ a b, V.Fits a → V.Fits b → f a b = g a b) :
    (do f (← (V.conceal s).primitive a) (← (V.conceal s).primitive b)) =
      (do g (← s.primitive a) (← s.primitive b)) := by
  rw [hs.primitive_conceal ha, hs.primitive_conceal hb]
  exact Except.bind_congr_of_ok fun a ha => Except.bind_congr_of_ok fun b hb =>
    h a b (Store.primitive_fits ha) (Store.primitive_fits hb)

theorem looselyEquals_conceal {a b : Value} (ha : V.Fits a) (hb : V.Fits b) :
    (V.conceal s).looselyEquals a b = s.looselyEquals a b := by
  have primitives := hs.primitives_conceal (fits_boolToNumber ha) (fits_boolToNumber hb)
    fun a b => hs.equalPrimitives_conceal
  simp only [Store.looselyEquals, primitives]

theorem order?_conceal {a b : Value} (ha : V.Fits a) (hb : V.Fits b) :
    (V.conceal s).order? a b = s.order? a b := by
  unfold Store.order?
  refine hs.primitives_conceal ha hb fun a b ha hb => ?_
  split
  · rfl
  · simp only [hs.numberOf_conceal ha, hs.numberOf_conceal hb]

theorem compare_conceal {op : OrderOperator} {a b : Value} (ha : V.Fits a) (hb : V.Fits b) :
    (V.conceal s).compare op a b = s.compare op a b := by
  simp only [Store.compare, hs.order?_conceal ha hb]

theorem add_conceal {a b : Value} (ha : V.Fits a) (hb : V.Fits b) :
    (V.conceal s).add a b = s.add a b := by
  unfold Store.add
  refine hs.primitives_conceal ha hb fun a b ha hb => ?_
  split
  · simp only [hs.textOf_conceal hb]
  · simp only [hs.textOf_conceal ha]
  · simp only [hs.numberOf_conceal ha, hs.numberOf_conceal hb]

theorem applyUnary_conceal {op : UnaryOperator} {v : Value} (h : V.Fits v) :
    (V.conceal s).applyUnary op v = s.applyUnary op v := by
  cases op <;> simp only [Store.applyUnary, hs.numberOf_conceal h, hs.int32Of_conceal h]

theorem applyBinary_conceal {op : BinaryOperator} {a b : Value} (ha : V.Fits a) (hb : V.Fits b) :
    (V.conceal s).applyBinary op a b = s.applyBinary op a b := by
  cases op <;> simp only [Store.applyBinary, Store.arithmetic, hs.looselyEquals_conceal ha hb,
    hs.add_conceal ha hb, hs.numberOf_conceal ha, hs.numberOf_conceal hb, hs.int32Of_conceal ha,
    hs.int32Of_conceal hb, hs.compare_conceal ha hb]

/-! ## Keys and steps -/

theorem entryKey_conceal {entries : Entries} {key : Value} (h : V.Fits key) :
    (V.conceal s).entryKey entries key = s.entryKey entries key := by
  simp only [Store.entryKey, hs.keyOf_conceal h]

theorem stepped?_conceal {sign : Text} {v : Value} (h : V.Fits v) :
    Walk.stepped? (V.conceal s) sign v = Walk.stepped? s sign v := by
  simp only [Walk.stepped?, hs.numberOf_conceal h]

end Sound

end Veil

/-! ## Reading steps -/

namespace Step

variable {V : Veil} {s : Store} {v : Value}

theorem display_unaware (h : V.Fits v) : (Step.display v).Unaware V s fun _ => True :=
  .read (fun hs => hs.display_conceal h) fun _ _ _ => trivial

theorem textOf_unaware (h : V.Fits v) : (Step.textOf v).Unaware V s fun _ => True :=
  .read (fun hs => hs.textOf_conceal h) fun _ _ _ => trivial

theorem numberOf_unaware (h : V.Fits v) : (Step.numberOf v).Unaware V s fun _ => True :=
  .read (fun hs => hs.numberOf_conceal h) fun _ _ _ => trivial

theorem describeKey_unaware (h : V.Fits v) : (Step.describeKey v).Unaware V s fun _ => True :=
  .read (fun hs => hs.describe_conceal h) fun _ _ _ => trivial

/-- What goes on with the key that a value names. -/
theorem Unaware.key_bind {next : Text → Step β} {P : β → Prop} (h : V.Fits v)
    (hnext : ∀ name, (next name).Unaware V s P) :
    Unaware V s P (Step.read (·.keyOf v) >>= next) :=
  .read_bind (fun hs => hs.keyOf_conceal h) fun name _ => hnext name

end Step

end Scriptlet
