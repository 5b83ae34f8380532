import Mathlib.Tactic.Ring
import Scriptlet.Proofs.Nesting
import Scriptlet.Proofs.Scanning
import Scriptlet.Walk.Literal

/-!
# Quoted text as a literal

Values are displayed by code of their own and read by the code for programs, and for texts
the two have to agree on quotes and escapes. A text that is shown between quotes is scanned
as one string, whatever follows it: every escape is passed over as a whole, and what is
shown as it is neither ends the string nor hides anything. And the string stands for the
text that was shown.

The second holds only for code points of the basic plane that are no surrogates. Larger
ones are shown by an escape that the language does not have, and of two surrogates that are
shown one after the other the language makes a single code point.
-/

namespace Scriptlet

/-- Whether a code point is in the **basic plane** and no half of a surrogate pair. -/
def isBasic (c : CodePoint) : Bool :=
  c < 0xD800 || (0xE000 ≤ c && c ≤ 0xFFFF)

theorem isBasic_iff {c : Nat} : isBasic c = true ↔ c < 0xD800 ∨ (0xE000 ≤ c ∧ c ≤ 0xFFFF) := by
  simp [isBasic]

theorem le_of_isBasic {c : Nat} (h : isBasic c = true) : c ≤ 0xFFFF := by
  rw [isBasic_iff] at h
  omega

/-! ## Hexadecimal digits -/

/-- What a hexadecimal digit that is written can be, and the value that it is read with. -/
theorem hexDigit_cases {d : Nat} (h : d < 16) :
    hexValue? (Text.hexDigit d) = some d ∧ Text.hexDigit d ∉ ([0x5C, 0x27, 0x22, 0x0A, 0x7B] : Text) := by
  have listed : ∀ d < 16, hexValue? (Text.hexDigit d) = some d
      ∧ Text.hexDigit d ∉ ([0x5C, 0x27, 0x22, 0x0A, 0x7B] : Text) := by decide
  exact listed d h

theorem hex_succ (width n : Nat) :
    Text.hex (width + 1) n = Text.hexDigit (n / 16 ^ width % 16) :: Text.hex width n := by
  unfold Text.hex
  rw [List.range_succ, List.reverse_append, List.reverse_singleton, List.singleton_append,
    List.map_cons]
  rfl

@[simp] theorem length_hex (width n : Nat) : (Text.hex width n).length = width := by
  unfold Text.hex
  rw [List.length_map, List.length_reverse, List.length_range]

/-- The code points of hexadecimal digits are such digits. -/
theorem exists_of_mem_hex {width n : Nat} {c : CodePoint} (h : c ∈ Text.hex width n) :
    ∃ d < 16, Text.hexDigit d = c := by
  obtain ⟨i, -, same⟩ := List.mem_map.mp h
  exact ⟨_, Nat.mod_lt _ (by decide), same⟩

/-- Reading digits goes on from what has been read. -/
theorem foldlM_hex (width start n : Nat) :
    (Text.hex width n).foldlM (fun n c => (hexValue? c).map (16 * n + ·)) start
      = some (start * 16 ^ width + n % 16 ^ width) := by
  induction width generalizing start with
  | zero => simp [Text.hex, Nat.mod_one]
  | succ width ih =>
    have digit := (hexDigit_cases (Nat.mod_lt (n / 16 ^ width) (by decide))).1
    have split : n % 16 ^ (width + 1) = n % 16 ^ width + 16 ^ width * (n / 16 ^ width % 16) :=
      Nat.mod_pow_succ
    have step := ih (16 * start + n / 16 ^ width % 16)
    rw [hex_succ, List.foldlM_cons, digit, Option.map_some]
    refine step.trans (congrArg some ?_)
    rw [split, Nat.pow_succ]
    ring

/-- **Digits that are written are read** as the number they were written for. -/
theorem hexPrefix?_hex {width n : Nat} (h : n < 16 ^ width) (rest : Text) :
    hexPrefix? width (Text.hex width n ++ rest) = some n := by
  have enough : ¬ (Text.hex width n ++ rest).length < width := by
    rw [List.length_append, length_hex]
    omega
  have digits : (Text.hex width n ++ rest).take width = Text.hex width n :=
    List.take_left' (length_hex width n)
  rw [hexPrefix?, if_neg enough, digits, valueOfHex?, foldlM_hex, Nat.mod_eq_of_lt h, Nat.zero_mul,
    Nat.zero_add]

/-! ## Escapes -/

/-- The quotes that a text can be put between. -/
def IsQuote (quote : CodePoint) : Prop :=
  quote = doubleQuote ∨ quote = singleQuote

theorem isQuote_quoteFor (t : Text) : IsQuote t.quoteFor := by
  unfold Text.quoteFor
  split
  · exact .inl rfl
  · exact .inr rfl

theorem unescapeFrom_plain {c : CodePoint} (h : c ≠ '\\') (rest : Text) :
    unescapeFrom 0 (c :: rest) = c :: unescapeFrom 0 rest := by
  rw [unescapeFrom, if_neg (by rwa [beq_iff_eq])]

/-- An escape is replaced by its meaning, and what it takes is dropped. -/
theorem unescapeFrom_escape {meaning escaped rest : Text}
    (h : readEscape (escaped ++ rest) = (meaning, escaped.length)) :
    unescapeFrom 0 ('\\'.toNat :: (escaped ++ rest)) = meaning ++ unescapeFrom 0 rest := by
  have dropped (t : Text) : unescapeFrom t.length (t ++ rest) = unescapeFrom 0 rest := by
    induction t with
    | nil => rfl
    | cons c t ih => exact ih
  rw [unescapeFrom, if_pos (beq_self_eq_true _), h]
  dsimp only
  rw [dropped]

/-- No two escapes are joined where the first is none of a surrogate. -/
theorem joinSurrogates_of_isBasic {c : Nat} (h : isBasic c = true) (rest : Text) :
    joinSurrogates c rest = (c, 0) := by
  rw [isBasic_iff] at h
  rw [joinSurrogates, if_neg]
  omega

theorem readEscape_hex2 {c : Nat} (h : c ≤ 0xFF) (rest : Text) :
    readEscape (("x" : Text) ++ Text.hex 2 c ++ rest) = ([c], 3) := by
  have code : hexPrefix? 2 (Text.hex 2 c ++ rest) = some c :=
    hexPrefix?_hex (by omega) rest
  have noControl : controlOf? ('x' : CodePoint) = none := rfl
  show readEscape (('x' : CodePoint) :: (Text.hex 2 c ++ rest)) = _
  rw [readEscape, noControl]
  dsimp only
  rw [if_pos (by decide), code]

theorem readEscape_hex4 {c : CodePoint} (h : isBasic c = true) (rest : Text) :
    readEscape (("u" : Text) ++ Text.hex 4 c ++ rest) = ([c], 5) := by
  have code : hexPrefix? 4 (Text.hex 4 c ++ rest) = some c :=
    hexPrefix?_hex (Nat.lt_succ_of_le (le_of_isBasic h)) rest
  have noBrace : ((Text.hex 4 c ++ rest).head? == some openBrace) = false := by
    rw [hex_succ]
    refine beq_eq_false_iff_ne.mpr fun brace => ?_
    have other := (hexDigit_cases (Nat.mod_lt (c / 16 ^ 3) (by decide))).2
    rw [Option.some.inj brace] at other
    exact other (by decide)
  have noControl : controlOf? ('u' : CodePoint) = none := rfl
  show readEscape (('u' : CodePoint) :: (Text.hex 4 c ++ rest)) = _
  rw [readEscape, noControl]
  dsimp only
  rw [if_neg (by decide), if_pos (by decide), if_neg (by rw [noBrace]; exact Bool.false_ne_true),
    code]
  dsimp only
  rw [joinSurrogates_of_isBasic h]

/-- **What a code point is shown as stands for it.** -/
theorem unescapeFrom_shown {quote c : CodePoint} (hq : IsQuote quote) (hc : isBasic c = true)
    (rest : Text) : unescapeFrom 0 (Text.escape quote c ++ rest) = c :: unescapeFrom 0 rest := by
  have escaped {t : Text} (h : readEscape (t ++ rest) = ([c], t.length)) :
      unescapeFrom 0 ('\\'.toNat :: (t ++ rest)) = c :: unescapeFrom 0 rest := unescapeFrom_escape h
  unfold Text.escape
  split
  · rename_i hidden
    refine escaped (t := [c]) ?_
    rcases Bool.or_eq_true_iff.mp hidden with same | same
    · rw [beq_iff_eq.mp same]
      rcases hq with rfl | rfl <;> rfl
    · rw [beq_iff_eq.mp same]
      rfl
  rename_i plain
  split
  · rename_i same
    rw [beq_iff_eq.mp same]
    rfl
  split
  · rename_i same
    rw [beq_iff_eq.mp same]
    rfl
  split
  · rename_i same
    rw [beq_iff_eq.mp same]
    rfl
  split
  · refine unescapeFrom_plain (fun same => plain ?_) rest
    rw [same, beq_self_eq_true, Bool.or_true]
  split
  · rename_i small
    exact escaped (readEscape_hex2 small rest)
  rw [if_pos (le_of_isBasic hc)]
  exact escaped (readEscape_hex4 hc rest)

/-! ## Strings -/

namespace Enclosure

variable {following t : Text} {quote : CodePoint}

/-- A code point that neither hides anything nor ends a string is passed over. -/
theorem leads_plain (h : ∀ c ∈ t, c ≠ '\\' ∧ c ≠ quote ∧ c ≠ '\n') :
    Leads following [string quote] t [string quote] := by
  induction t with
  | nil => exact .stay _
  | cons c t ih =>
    obtain ⟨⟨noEscape, noQuote, noFeed⟩, others⟩ := List.forall_mem_cons.mp h
    have more : Leads following ([string quote] ++ []) t [string quote] := ih others
    refine .one ?_ more
    rw [step?, if_neg (by rwa [beq_iff_eq]), if_neg (by rwa [beq_iff_eq]),
      if_neg (by rwa [beq_iff_eq])]

/-- What follows a backslash is passed over with it. -/
theorem leads_hidden {d : CodePoint} (h : ∀ c ∈ t, c ≠ '\\' ∧ c ≠ quote ∧ c ≠ '\n') :
    Leads following [string quote] ('\\'.toNat :: d :: t) [string quote] :=
  .two rfl (leads_plain h)

/-- **What a code point is shown as is passed over** inside a string. -/
theorem leads_shown (hq : IsQuote quote) (c : CodePoint) :
    Leads following [string quote] (Text.escape quote c) [string quote] := by
  have digits (width : Nat) : ∀ d ∈ Text.hex width c, d ≠ '\\' ∧ d ≠ quote ∧ d ≠ '\n' := by
    intro d hd
    obtain ⟨i, hi, rfl⟩ := exists_of_mem_hex hd
    have other := (hexDigit_cases hi).2
    refine ⟨fun same => ?_, fun same => ?_, fun same => ?_⟩
    · rw [same] at other
      exact other (by decide)
    · rw [same] at other
      rcases hq with rfl | rfl <;> exact other (by decide)
    · rw [same] at other
      exact other (by decide)
  unfold Text.escape
  split
  · exact leads_hidden (by simp)
  rename_i plain
  split
  · exact leads_hidden (by simp)
  split
  · exact leads_hidden (by simp)
  rename_i noFeed
  split
  · exact leads_hidden (by simp)
  split
  · rw [Bool.or_eq_true, beq_iff_eq, beq_iff_eq, not_or] at plain
    rw [beq_iff_eq] at noFeed
    exact leads_plain (List.forall_mem_singleton.mpr ⟨plain.2, plain.1, noFeed⟩)
  split
  · exact leads_hidden (digits 2)
  split
  · exact leads_hidden (digits 4)
  · exact leads_hidden (digits 8)

/-- What a text is shown as is passed over inside a string. -/
theorem leads_shownText (hq : IsQuote quote) (t following : Text) :
    Leads following [string quote] (t.flatMap (Text.escape quote)) [string quote] := by
  induction t with
  | nil => exact .stay _
  | cons c t ih => exact (leads_shown hq c).append ih

end Enclosure

/-- **A quoted text is scanned as one string**, whatever follows it. -/
theorem scan_quoted (t following : Text) (regexpAllowed : Bool) :
    ∃ rest, t.quoted = t.quoteFor :: rest ∧
      scan regexpAllowed t.quoteFor (rest ++ following) = .ok (.token .string t.quoted.length) := by
  have hq := isQuote_quoteFor t
  have body : stringLength? t.quoteFor
      (t.flatMap (Text.escape t.quoteFor) ++ (t.quoteFor :: following))
        = some ((t.flatMap (Text.escape t.quoteFor)).length + 1) := by
    have closes (n : Nat) :
        Enclosure.measure [.string t.quoteFor] n (t.quoteFor :: following) = some (n + 1) := by
      rw [Enclosure.measure_cons_cons, Enclosure.step?, if_neg, if_pos (beq_self_eq_true _)]
      · exact Enclosure.measure_nil _ _
      · rcases hq with same | same <;> (rw [same]; decide)
    rw [stringLength?, (Enclosure.leads_shownText hq t (t.quoteFor :: following)).measure_eq 0,
      closes, Nat.zero_add]
  have rest : t.flatMap (Text.escape t.quoteFor) ++ [t.quoteFor] ++ following
      = t.flatMap (Text.escape t.quoteFor) ++ (t.quoteFor :: following) := by simp
  refine ⟨t.flatMap (Text.escape t.quoteFor) ++ [t.quoteFor], rfl, ?_⟩
  have length : t.quoted.length = (t.flatMap (Text.escape t.quoteFor)).length + 1 + 1 := by
    simp [Text.quoted]
  have string : scan regexpAllowed t.quoteFor
      (t.flatMap (Text.escape t.quoteFor) ++ (t.quoteFor :: following))
        = tokenOr .invalidToken .string ((stringLength? t.quoteFor
          (t.flatMap (Text.escape t.quoteFor) ++ (t.quoteFor :: following))).map (· + 1)) := by
    rcases hq with same | same <;> (rw [same]; rfl)
  rw [rest, string, body, length]
  rfl

/-- **A quoted text stands for the text.** -/
theorem stringValue_quoted {t : Text} (h : ∀ c ∈ t, isBasic c = true) :
    Walk.stringValue t.quoted = t := by
  have hq := isQuote_quoteFor t
  have shown : unescape (t.flatMap (Text.escape t.quoteFor)) = t := by
    have each (u : Text) (hu : ∀ c ∈ u, isBasic c = true) :
        unescapeFrom 0 (u.flatMap (Text.escape t.quoteFor)) = u := by
      induction u with
      | nil => rfl
      | cons c u ih =>
        obtain ⟨first, more⟩ := List.forall_mem_cons.mp hu
        rw [List.flatMap_cons, unescapeFrom_shown hq first, ih more]
    exact each t h
  have length : t.quoted.length = (t.flatMap (Text.escape t.quoteFor)).length + 2 := by
    simp [Text.quoted]
  have head : t.quoted.head? = some t.quoteFor := rfl
  have last : t.quoted.getLast? = some t.quoteFor := by
    rw [Text.quoted, List.getLast?_append]
    rfl
  have between : t.quoted.slice 1 (t.quoted.length - 1) = t.flatMap (Text.escape t.quoteFor) := by
    rw [length, Text.slice, Text.quoted]
    exact List.take_left' (by simp)
  have quotes : (some t.quoteFor == some doubleQuote || some t.quoteFor == some singleQuote) = true := by
    rcases hq with same | same <;> (rw [same]; rfl)
  have enough : decide (2 ≤ t.quoted.length) = true := by
    rw [length]
    exact decide_eq_true (Nat.le_add_left 2 _)
  rw [Walk.stringValue, head, last, enough, quotes, beq_self_eq_true, between]
  exact shown

end Scriptlet
