import Scriptlet.Proofs.Index
import Scriptlet.Proofs.Naming.Magnitude

/-!
# Numbers and their texts name the same

A property can be named by a number or by the text of the number. The two go different ways: a
number is an index if it is whole and not below zero, and a text if it is a row of digits; what is
no index is looked up by its text in either case. So it has to be shown that the text of a number
is a row of digits just if the number is an index, and the digits of that index.

For whole floats from 10²¹ on it is not so: they are indices, but are written with an exponent. No
list is that long, and so nothing is found under such an index; and under the text neither, as no
method has a name that looks like a number. Writing would tell them apart.
-/

namespace Scriptlet

/-! ## How floats are written -/

/-- The code points that **floats are written with**, if they are finite. -/
def isFloatMark (c : CodePoint) : Bool :=
  Text.isPlainDigit c || (".e+-" : Text).contains c

/-- A text **writes a float** if it is made of digits and the marks of floats, and there is a mark
in it. -/
structure Text.WritesFloat (t : Text) : Prop where
  made : t.all isFloatMark = true
  marked : t.any (!Text.isDigit ·) = true

namespace Text

variable {digits t : Text}

theorem OfFigures.made (h : t.OfFigures) : t.all isFloatMark = true :=
  List.all_eq_true.mpr fun c hc => Bool.or_eq_true_iff.mpr (.inl (h c hc))

/-- What is left of a text is made of what the text is made of. -/
theorem made_of_sublist {part : Text} (h : t.all isFloatMark = true) (sub : part.Sublist t) :
    part.all isFloatMark = true :=
  List.all_eq_true.mpr fun c hc => List.all_eq_true.mp h c (sub.subset hc)

theorem made_zeros (n : Nat) : (List.replicate n ('0' : CodePoint)).all isFloatMark = true :=
  List.all_eq_true.mpr fun c hc => by
    rw [List.eq_of_mem_replicate hc]
    decide

namespace WritesFloat

/-- Other digits and marks may stand in front, -/
theorem prepend {front : Text} (h : t.WritesFloat) (before : front.all isFloatMark = true) :
    WritesFloat (front ++ t) where
  made := by rw [List.all_append, before, h.made]; rfl
  marked := by rw [List.any_append, h.marked, Bool.or_true]

/-- or behind. -/
theorem append {back : Text} (h : t.WritesFloat) (after : back.all isFloatMark = true) :
    WritesFloat (t ++ back) where
  made := by rw [List.all_append, after, h.made]; rfl
  marked := by rw [List.any_append, h.marked, Bool.true_or]

end WritesFloat

theorem writesFloat_positional (h : digits.OfFigures) (point : Int) :
    WritesFloat (positional digits point) := by
  have dot : WritesFloat "." := ⟨by decide, by decide +kernel⟩
  unfold positional
  split_ifs
  · have front : WritesFloat "0." := dot.prepend (by decide : ("0" : Text).all isFloatMark = true)
    exact (front.append (made_zeros _)).append h.made
  · have back : WritesFloat ".0" := dot.append (by decide : ("0" : Text).all isFloatMark = true)
    exact back.prepend (by rw [List.all_append, h.made, made_zeros]; rfl)
  · exact (dot.prepend (made_of_sublist h.made (List.take_sublist _ _))).append
      (made_of_sublist h.made (List.drop_sublist _ _))

theorem writesFloat_exponential (h : digits.OfFigures) (point : Int) :
    WritesFloat (exponential digits point) := by
  have sign : WritesFloat (ofString (if point - 1 < 0 then "e-" else "e+")) := by
    split
    · exact ⟨by decide, by decide +kernel⟩
    · exact ⟨by decide, by decide +kernel⟩
  have fraction : (if digits.length ≤ 1 then [] else "." ++ digits.drop 1 : Text).all isFloatMark
      = true := by
    split
    · rfl
    · rw [List.all_append, made_of_sublist h.made (List.drop_sublist _ _)]
      decide
  have pad : (ofString (if (ofNat (point - 1).natAbs).length < 2 then "0" else "")).all isFloatMark
      = true := by
    split <;> decide
  unfold exponential
  dsimp only
  refine ((sign.prepend ?_).append pad).append (ofFigures_ofNat _).made
  rw [List.all_append, made_of_sublist h.made (List.take_sublist _ _), fraction]
  rfl

/-- The digits of a decimal are figures. -/
theorem ofFigures_significant (d : Decimal) : OfFigures d.significant.1 := fun c hc =>
  ofFigures_ofNat d.digits c (List.mem_reverse.mp
    ((List.dropWhile_sublist _).subset (List.mem_reverse.mp hc)))

theorem writesFloat_literalOfPositive (b : Binary64) : WritesFloat (literalOfPositive b) := by
  unfold literalOfPositive
  dsimp only
  split
  · exact writesFloat_positional (ofFigures_significant _) _
  · exact writesFloat_exponential (ofFigures_significant _) _

/-- **A finite float is written as one** in the literal style, -/
theorem writesFloat_literalOfFloat {x : Float} {b : Binary64} (h : Binary64.ofFloat? x = some b) :
    WritesFloat (literalOfFloat x) := by
  have magnitude : WritesFloat (if b.mantissa == 0 then "0.0" else literalOfPositive b) := by
    split
    · exact ⟨by decide, by decide +kernel⟩
    · exact writesFloat_literalOfPositive b
  rw [literalOfFloat, h]
  refine magnitude.prepend ?_
  split <;> decide

theorem made_shortenExponent (h : t.all isFloatMark = true) :
    (shortenExponent t).all isFloatMark = true := by
  induction t with
  | nil => rfl
  | cons c rest ih =>
    obtain ⟨here, later⟩ := Bool.and_eq_true_iff.mp (List.all_cons.symm.trans h)
    have kept := made_of_sublist later
      ((List.dropWhile_sublist (· == ('0' : CodePoint))).trans (List.drop_sublist 1 rest))
    rw [shortenExponent]
    split
    · rw [List.cons_append, List.all_cons, List.all_append, here,
        made_of_sublist later (List.take_sublist 1 rest)]
      split
      · decide
      · exact kept
    · rw [List.all_cons, here, ih later]
      rfl

theorem marked_shortenExponent (h : t.any (!isDigit ·) = true) :
    (shortenExponent t).any (!isDigit ·) = true := by
  induction t with
  | nil => exact h
  | cons c rest ih =>
    rw [shortenExponent]
    split
    · rename_i exponent
      have mark : isDigit 'e' = false := by decide +kernel
      rw [List.cons_append, List.any_cons, beq_iff_eq.mp exponent, mark]
      rfl
    · rw [List.any_cons] at h ⊢
      rcases Bool.or_eq_true_iff.mp h with here | later
      · rw [here, Bool.true_or]
      · rw [ih later, Bool.or_true]

/-- and in the display style if it does not look like an integer. -/
theorem writesFloat_displayOfFloat {x : Float} {b : Binary64} (h : Binary64.ofFloat? x = some b)
    (isFloat : displaysAsInt x = false) : WritesFloat (displayOfFloat x) := by
  have literal := writesFloat_literalOfFloat h
  rw [displayOfFloat, h]
  dsimp only
  rw [if_neg (by rw [isFloat]; exact nofun)]
  exact ⟨made_shortenExponent literal.made, marked_shortenExponent literal.marked⟩

/-! ## What floats are not -/

namespace WritesFloat

/-- What writes a float is no row of digits, -/
theorem not_isDigitRow (h : t.WritesFloat) : ¬ t.IsDigitRow := by
  intro row
  obtain ⟨c, hc, mark⟩ := List.any_eq_true.mp h.marked
  rw [row.digits c hc] at mark
  cases mark

/-- and not the name of anything. -/
theorem ne_of_any {name : Text} (h : t.WritesFloat) (letter : name.any (!isFloatMark ·) = true) :
    name ≠ t := by
  rintro rfl
  obtain ⟨c, hc, other⟩ := List.any_eq_true.mp letter
  rw [List.all_eq_true.mp h.made c hc] at other
  cases other

theorem hasMethod_eq (h : t.WritesFloat) (v : Value) : v.hasMethod t = false := by
  have none {M : Type} (names : List (M × Text))
      (letters : (names.all fun entry => entry.2.any (!isFloatMark ·)) = true) :
      ((names.find? fun entry => entry.2 == t).map Prod.fst).isSome = false := by
    have missing : (names.find? fun entry => entry.2 == t) = none :=
      List.find?_eq_none.mpr fun entry hentry same =>
        h.ne_of_any (List.all_eq_true.mp letters entry hentry) (beq_iff_eq.mp same)
    rw [missing]
    rfl
  cases v with
  | list ref => exact none ListMethod.names (by decide)
  | text u => exact none TextMethod.names (by decide)
  | number n => exact none NumberMethod.names (by decide)
  | object ref => exact none ObjectMethod.names (by decide)
  | regexp identity r => exact none RegexpMethod.names (by decide)
  | _ => rfl

end WritesFloat

end Text

/-! ## Indices -/

/-- A number **can be written** if it is no integer of more digits than are converted. -/
def Number.IsWritable : Number → Prop
  | .int n => n.natAbs < tenTo digitLimit
  | .float _ => True

/-- A number **is written out** unless it is a whole float from 10²¹ on. -/
def Number.IsWrittenOut : Number → Prop
  | .int _ => True
  | .float x => isWholeFloat x = true → x.abs < 1e21

theorem tenTo_le {m n : Nat} (h : m ≤ n) : tenTo m ≤ tenTo n :=
  Nat.pow_le_pow_right (by decide) h

/-- An integer and its numeral are the same index, or none. -/
theorem indexOfText?_ofInt {n : Int} (short : n.natAbs < tenTo digitLimit) :
    indexOfText? (Text.ofInt n) = Value.index? (.number (.int n)) := by
  have length := Text.length_ofNat_le_of_lt (by decide : 0 < digitLimit) short
  rw [Text.ofInt_eq, Value.index?]
  split
  · have convertible : (Text.ofNat n.natAbs).IsConvertible :=
      ⟨(Text.ofFigures_ofNat n.natAbs).isDecimal, length⟩
    rw [(Text.isDigitRow_ofNat n.natAbs).index convertible, valueOfDecimals_ofNat]
    congr 2
    omega
  · refine indexOfText?_of_not_isDigitRow fun row => ?_
    have digit := row.digits _ List.mem_cons_self
    rw [show Text.isDigit '-'.toNat = false by decide +kernel] at digit
    cases digit

theorem display_int {n : Int} (short : n.natAbs < tenTo digitLimit) :
    (Number.int n).display = .ok (Text.ofInt n) :=
  numeralOfInt_of_length (Text.length_ofNat_le_of_lt (by decide) short)

section Floats

variable {x : Float} {b : Binary64}

theorem isWholeFloat_eq (h : Binary64.ofFloat? x = some b) : isWholeFloat x = b.isWhole := by
  rw [isWholeFloat, h]

theorem index?_of_not_whole (h : isWholeFloat x = false) :
    Value.index? (.number (.float x)) = .ok none := by
  rw [Value.index?, h]
  rfl

/-- A whole float is the index that its integer is, or none. -/
theorem index?_of_whole (h : Binary64.ofFloat? x = some b) (whole : b.isWhole = true) :
    Value.index? (.number (.float x)) = Value.index? (.number (.int b.truncate)) := by
  have sign := Binary64.zero_le_iff_truncate h whole
  rw [Value.index?, Value.index?, isWholeFloat_eq h, whole, h, Bool.true_and]
  by_cases natural : 0 ≤ b.truncate
  · rw [if_pos natural, if_pos (decide_eq_true (sign.mpr natural))]
    rfl
  · rw [if_neg natural, if_neg fun least => natural (sign.mp (of_decide_eq_true least))]

/-- A float that displays as an integer is shown as its integer, one that can be converted. -/
theorem displayOfFloat_of_displaysAsInt (h : Binary64.ofFloat? x = some b)
    (shown : displaysAsInt x = true) :
    b.isWhole = true ∧ b.truncate.natAbs < tenTo digitLimit
      ∧ displayOfFloat x = Text.ofInt b.truncate := by
  obtain ⟨whole, small⟩ := Bool.and_eq_true_iff.mp shown
  rw [isWholeFloat_eq h] at whole
  have below := (Binary64.abs_lt_iff_floorMagnitude h).mp (of_decide_eq_true small)
  refine ⟨whole, ?_, ?_⟩
  · rw [b.natAbs_truncate]
    exact Nat.lt_of_lt_of_le below (tenTo_le (by decide))
  · rw [displayOfFloat, h]
    dsimp only
    rw [if_pos shown]

/-- A float that does not is no index, or one from 10²¹ on. -/
theorem index?_of_not_displaysAsInt (h : Binary64.ofFloat? x = some b)
    (shown : displaysAsInt x = false) :
    Value.index? (.number (.float x)) = .ok none
      ∨ ¬ (Number.float x).IsWrittenOut
        ∧ ∃ i, tenTo 21 ≤ i ∧ Value.index? (.number (.float x)) = .ok (some i) := by
  cases whole : isWholeFloat x with
  | false => exact .inl (index?_of_not_whole whole)
  | true =>
    have large : ¬ x.abs < 1e21 := fun small => by
      rw [displaysAsInt, whole, decide_eq_true small] at shown
      cases shown
    have isWhole := whole
    rw [isWholeFloat_eq h] at isWhole
    rw [index?_of_whole h isWhole, Value.index?]
    split
    · rename_i natural
      have atLeast := Nat.not_lt.mp (mt (Binary64.abs_lt_iff_floorMagnitude h).mpr large)
      have magnitude := b.natAbs_truncate
      exact .inr ⟨fun out => large (out whole), _, by omega, rfl⟩
    · exact .inl rfl

end Floats

/-- **The index of a number and that of its text** are the same, or the number is a whole float from
10²¹ on: then it may be an index itself, though a high one, and its text is that of a float. -/
theorem Number.index?_cases {n : Number} (writable : n.IsWritable) :
    ∃ t index?, n.display = .ok t ∧ indexOfText? t = .ok index?
      ∧ (Value.index? (.number n) = .ok index?
        ∨ ¬ n.IsWrittenOut ∧ t.WritesFloat ∧ index? = none
          ∧ ∃ i, tenTo 21 ≤ i ∧ Value.index? (.number n) = .ok (some i)) := by
  cases n with
  | int n => exact ⟨_, _, display_int writable, indexOfText?_ofInt writable, .inl rfl⟩
  | float x =>
    cases parts : Binary64.ofFloat? x with
    | none =>
      refine ⟨displayOfFloat x, none, rfl, ?_, .inl (index?_of_not_whole ?_)⟩
      · rw [displayOfFloat, parts]
        dsimp only
        split_ifs <;> rfl
      · rw [isWholeFloat, parts]
    | some b =>
      cases shown : displaysAsInt x with
      | true =>
        obtain ⟨whole, short, shows⟩ := displayOfFloat_of_displaysAsInt parts shown
        exact ⟨_, _, congrArg _ shows, indexOfText?_ofInt short, .inl (index?_of_whole parts whole)⟩
      | false =>
        have writes := Text.writesFloat_displayOfFloat parts shown
        exact ⟨displayOfFloat x, none, rfl, indexOfText?_of_not_isDigitRow writes.not_isDigitRow,
          (index?_of_not_displaysAsInt parts shown).imp_right fun ⟨large, high⟩ =>
            ⟨large, writes, rfl, high⟩⟩

/-! ## Properties -/

/-- Ends of a step that are **alike but for a record in the log**, which shows the key as it was
given. -/
inductive AlikeButLog : EStateM.Result Interrupt Store Value → EStateM.Result Interrupt Store Value →
    Prop
  | same (r : EStateM.Result Interrupt Store Value) : AlikeButLog r r
  | noted (v : Value) (s : Store) (record other : LogRecord) :
    AlikeButLog (.ok v (s.note record)) (.ok v (s.note other))

/-- A value **goes by texts**: it is a list or a text, which has no more items than can be counted, or
an object in which only texts are keys. -/
def Store.GoesByTexts (s : Store) : Value → Prop
  | .list ref => (s.items ref).length ≤ maxCount
  | .text t => t.length ≤ maxCount
  | .object ref => (s.entries ref).OnlyTexts
  | _ => False

section Properties

open Step

variable {n : Number} {t : Text} {s : Store} {target v : Value} {ref : Nat} {key other : Value}

theorem Store.keyOf_number (h : n.display = .ok t) (s : Store) : s.keyOf (.number n) = .ok t := by
  rw [keyOf, textOf, textFrom]
  exact h

theorem Store.keyOf_text (s : Store) (t : Text) : s.keyOf (.text t) = .ok t :=
  s.textOf_text t

/-- A number that can be written can be shown. -/
theorem Store.exists_describe_number (writable : n.IsWritable) (s : Store) :
    ∃ text, s.describe (.number n) = .ok text := by
  rw [describe, describeFrom]
  cases n with
  | int n => exact ⟨_, display_int writable⟩
  | float x => exact ⟨_, rfl⟩

theorem Store.exists_describe_text (s : Store) (t : Text) :
    ∃ text, s.describe (.text t) = .ok text := by
  rw [describe, describeFrom]
  exact ⟨_, rfl⟩

theorem Store.display_text (s : Store) (t : Text) : s.display (.text t) = .ok t.quoted := by
  rw [display, displayFrom]

/-- There is nothing under an index beyond the items, and nothing under a text that writes a
float. -/
theorem Step.getItem_of_beyond {items : List Value} {i : Nat} (index : key.index? = .ok (some i))
    (beyond : items.length ≤ i) (writes : t.WritesFloat)
    (noIndex : (Value.text t).index? = .ok none) :
    getItem v items key s = getItem v items (.text t) s := by
  have notLength : (t == "length") = false :=
    beq_eq_false_iff_ne.mpr (writes.ne_of_any (by decide)).symm
  rw [getItem_of_index index, List.getElem?_eq_none beyond, getItem_of_name noIndex (s.keyOf_text t),
    notLength, methodOrUndefined, writes.hasMethod_eq]
  rfl

/-- Keys with one index and one text read the same item. -/
theorem Step.getItem_congr {items : List Value} {index? : Option Nat} (index : key.index? = .ok index?)
    (index' : other.index? = .ok index?) (named : s.keyOf key = .ok t)
    (named' : s.keyOf other = .ok t) : getItem v items key s = getItem v items other s := by
  cases index? with
  | some i => rw [getItem_of_index index, getItem_of_index index']
  | none => rw [getItem_of_name index named, getItem_of_name index' named']

/-- A failure is the same for all keys that can be shown, but for the record of it. -/
theorem Step.failure_alike {text text' : Text} {fails : Text → Step Value}
    (shown : s.describe key = .ok text) (shown' : s.describe other = .ok text')
    (noted : ∀ text, ∃ record, fails text s = .ok .failure (s.note record)) :
    AlikeButLog ((describeKey key >>= fails) s) ((describeKey other >>= fails) s) := by
  have reads : describeKey key s = .ok text s := read_of_ok shown
  have reads' : describeKey other s = .ok text' s := read_of_ok shown'
  rw [bind_of_ok reads, bind_of_ok reads']
  obtain ⟨record, ends⟩ := noted text
  obtain ⟨record', ends'⟩ := noted text'
  rw [ends, ends']
  exact .noted _ _ _ _

/-- Keys with one index and one text write the same item. -/
theorem Step.setItem_alike {index? : Option Nat} {text text' : Text}
    (index : key.index? = .ok index?) (index' : other.index? = .ok index?)
    (named : s.keyOf key = .ok t) (named' : s.keyOf other = .ok t)
    (shown : s.describe key = .ok text) (shown' : s.describe other = .ok text') :
    AlikeButLog (setItem ref key v s) (setItem ref other v s) := by
  unfold setItem
  rw [bind_of_ok (ofExcept_of_ok index), bind_of_ok (ofExcept_of_ok index')]
  cases index? with
  | some i => exact .same _
  | none =>
    have reads : read (·.keyOf key) s = .ok t s := read_of_ok named
    have reads' : read (·.keyOf other) s = .ok t s := read_of_ok named'
    dsimp only
    rw [bind_of_ok reads, bind_of_ok reads']
    split
    · exact .same _
    · exact failure_alike shown shown' fun text => ⟨_, rfl⟩

/-- **Numbers and their texts name the same property** of what goes by texts. Reading gives the same
under both. So does writing, and has the same effect, if the number is not a whole float from 10²¹
on; should nothing be written, the record of that shows the key as it was given. -/
theorem Number.names_as_text (writable : n.IsWritable) :
    ∃ t, (∀ s : Store, s.keyOf (.number n) = .ok t) ∧ ∀ (s : Store) (target : Value),
      s.GoesByTexts target →
      getProperty target (.number n) s = getProperty target (.text t) s
      ∧ (n.IsWrittenOut → ∀ v, AlikeButLog (setProperty target (.number n) v s)
          (setProperty target (.text t) v s)) := by
  obtain ⟨t, index?, shows, index', index⟩ := index?_cases writable
  refine ⟨t, Store.keyOf_number shows, fun s target goes => ?_⟩
  have named := Store.keyOf_number shows s
  have named' := s.keyOf_text t
  obtain ⟨text, shown⟩ := Store.exists_describe_number writable s
  obtain ⟨text', shown'⟩ := s.exists_describe_text t
  have reads (v : Value) (items : List Value) (short : items.length ≤ maxCount) :
      getItem v items (.number n) s = getItem v items (.text t) s := by
    rcases index with index | ⟨-, writes, rfl, i, high, index⟩
    · exact getItem_congr index index' named named'
    · exact getItem_of_beyond index (Nat.le_trans short (Nat.le_trans (by decide) high)) writes index'
  cases target with
  | list ref =>
    refine ⟨reads (.list ref) (s.items ref) goes, fun out v => ?_⟩
    have index := index.resolve_right fun high => high.1 out
    exact setItem_alike index index' named named' shown shown'
  | text u =>
    refine ⟨reads (.text u) _ (by rw [List.length_map]; exact goes), fun _ v => ?_⟩
    have displayed : Step.display (.text u) s = .ok u.quoted s := read_of_ok (s.display_text u)
    exact failure_alike shown shown' fun text => ⟨_, bind_of_ok displayed⟩
  | object ref =>
    have written {key : Value} (named : s.keyOf key = .ok t) (v : Value) :
        setProperty (.object ref) key v s =
          .ok v (s.setEntries ref ((s.entries ref).put (.text t) v)) := by
      have slot := (Store.entryKey_eq named (s.entries ref)).trans (congrArg _ goes.slot_eq)
      unfold setProperty
      exact bind_of_ok (read_of_ok slot)
    refine ⟨(getEntry_of_named named).trans (Eq.trans ?_ (getEntry_of_named named').symm),
      fun _ v => ?_⟩
    · rw [goes.slot_eq, goes.slot_eq]
    · rw [written named, written named']
      exact .same _
  | _ => exact goes.elim

/-- A float and the digit that it is written with name the second item of a list. -/
theorem Number.names_as_text_of_one :
    (Number.float 1.0).IsWritable ∧ (Number.float 1.0).IsWrittenOut
      ∧ (Store.empty.newList [.int 7, .int 8]).2.GoesByTexts (.list 0)
      ∧ getProperty (.list 0) (.text "1") (Store.empty.newList [.int 7, .int 8]).2 =
          .ok (.int 8) (Store.empty.newList [.int 7, .int 8]).2
      ∧ AlikeButLog
          (setProperty (.list 0) (.number (.float 1.0)) .null (Store.empty.newList [.int 7, .int 8]).2)
          (setProperty (.list 0) (.text "1") .null (Store.empty.newList [.int 7, .int 8]).2) := by
  have out : (Number.float 1.0).IsWrittenOut := fun _ => by decide +kernel
  have goes : (Store.empty.newList [.int 7, .int 8]).2.GoesByTexts (.list 0) := by
    show 2 ≤ maxCount
    decide
  have shows : (Number.float 1.0).display = .ok "1" := rfl
  obtain ⟨t, named, names⟩ := Number.names_as_text (n := .float 1.0) trivial
  obtain rfl : t = "1" :=
    Except.ok.inj ((named Store.empty).symm.trans (Store.keyOf_number shows Store.empty))
  exact ⟨trivial, out, goes, (names _ _ goes).1.symm, (names _ _ goes).2 out .null⟩

end Properties

end Scriptlet
