import Mathlib.Data.List.TakeWhile
import Scriptlet.Proofs.Origin
import Scriptlet.Proofs.Splitting

/-!
# Where names and literals stand

The expressions in a template are texts of their own. Each is cut into tokens from the line on
which it stands, but from the first column on, so a position in it is not, as a rule, one in the
source. What it is instead is said here.

A *fragment* is a text in a source that tokens are cut from: the source itself, or an expression
in a template of another fragment. Of each it is known where it starts, and from which line on
it is read. That line counts the line feeds in the template before the expression and leaves out
the two Unicode separators, which end lines too. So a position in an expression is right if no
separator has been left out on the way to it and a line has been started between the start of
the expression and the token, and it is wrong in all other cases.
-/

namespace Scriptlet

/-! ## Places in a part of a text -/

/-- The code points that end a line though they are no line feed. -/
def isSeparator (c : CodePoint) : Bool :=
  c == 0x2028 || c == 0x2029

theorem countP_startsLine (t : Text) :
    t.countP startsLine = t.count ('\n' : CodePoint) + t.countP isSeparator := by
  induction t with
  | nil => rfl
  | cons c rest ih =>
    rw [List.countP_cons, List.count_cons, List.countP_cons, ih]
    by_cases feed : c = (('\n' : Char) : CodePoint)
    · subst feed
      rw [if_pos (by decide), if_pos (by decide), if_neg (by decide)]
      omega
    · have other : startsLine c = isSeparator c := by
        have plain : (c == (('\n' : Char) : CodePoint)) = false := beq_eq_false_iff_ne.mpr feed
        rw [startsLine, isSeparator, plain, Bool.false_or]
      have notFeed : ¬ (c == (('\n' : Char) : CodePoint)) = true := by simpa using feed
      rw [other, if_neg notFeed]
      omega

section Parts

variable {source text : Text} {start offset : Nat}

/-- What comes before an offset in a part of a text: all that comes before the part, and more. -/
theorem take_add_of_stands (stands : text <+: source.drop start) (inside : offset ≤ text.length) :
    source.take (start + offset) = source.take start ++ text.take offset := by
  obtain ⟨more, same⟩ := stands
  rw [List.take_add, ← same, List.take_append_of_le_length inside]

/-- What stands in a part of a text stands in the text. -/
theorem stands_trans {inner : Text} (stands : text <+: source.drop start)
    (there : inner <+: text.drop offset) : inner <+: source.drop (start + offset) := by
  obtain ⟨more, same⟩ := stands
  rw [← List.drop_drop, ← same]
  exact there.trans (by rw [List.drop_append]; exact List.prefix_append _ _)

/-- **A place in a part of a text is the place in the text** exactly if the part is read from the
line on which it starts and a line has been started in it. For it starts in the midst of a line,
of which the columns of its first line know nothing. -/
theorem placeAt_eq_iff {line first : Int} {before : Text} {c : CodePoint}
    (stands : text <+: source.drop start) (inside : offset ≤ text.length)
    (midst : source.take start = before ++ [c]) (hc : startsLine c = false) :
    placeAt text line offset = placeAt source first (start + offset) ↔
      line = first + (source.take start).countP startsLine
        ∧ (text.take offset).any startsLine = true := by
  unfold placeAt
  dsimp only
  rw [take_add_of_stands stands inside, Place.mk.injEq, List.countP_append, List.reverse_append,
    List.takeWhile_append]
  have lines : line + ((text.take offset).countP startsLine : Nat)
      = first + ((source.take start).countP startsLine + (text.take offset).countP startsLine : Nat)
      ↔ line = first + ((source.take start).countP startsLine : Nat) := by omega
  rw [lines]
  refine and_congr_right fun _ => ?_
  -- The columns count back to where the line of the offset starts: either that is in the part,
  -- or the count goes on before it, where there is at least one code point more.
  generalize text.take offset = inner
  cases any : inner.any startsLine with
  | true =>
    obtain ⟨d, hd, starts⟩ := List.any_eq_true.mp any
    have short : (inner.reverse.takeWhile (!startsLine ·)).length ≠ inner.reverse.length := by
      intro all
      have whole := (List.takeWhile_prefix (!startsLine ·)).eq_of_length all
      have none := List.takeWhile_eq_self_iff.mp whole d (List.mem_reverse.mpr hd)
      simp [starts] at none
    rw [if_neg short]
    exact ⟨fun _ => rfl, fun _ => rfl⟩
  | false =>
    have all : inner.reverse.takeWhile (!startsLine ·) = inner.reverse := by
      refine List.takeWhile_eq_self_iff.mpr fun d hd => ?_
      rw [Bool.eq_false_iff.mpr (List.any_eq_false.mp any d (List.mem_reverse.mp hd))]
      rfl
    rw [all, if_pos rfl, midst, List.reverse_append, List.reverse_singleton, List.singleton_append,
      List.takeWhile_cons_of_pos (by rw [hc]; rfl)]
    simp

end Parts

/-! ## Fragments -/

/-- A **fragment** of a source. -/
structure Fragment where
  /-- Its text. -/
  text : Text
  /-- The offset in the source at which it starts. -/
  start : Nat
  /-- The line that it is read from. -/
  line : Int
  /-- The number of lines started before it that this line leaves out. -/
  uncounted : Nat

namespace Fragment

/-- The source itself. -/
def whole (source : Text) : Fragment :=
  ⟨source, 0, 1, 0⟩

/-- The expression in a template that stands at an offset of a fragment: it is read from the line
of the template on and the line feeds between the two. -/
def inner (f : Fragment) (offset : Nat) (t : Token) (entry : Text × Nat) : Fragment where
  text := entry.1
  start := f.start + (offset + 1 + entry.2)
  line := t.line + lineFeedsIn t.text entry.2
  uncounted := f.uncounted + (t.text.take entry.2).countP isSeparator

/-- The **fragments of a source**. -/
inductive IsIn (source : Text) : Fragment → Prop where
  | whole : IsIn source (.whole source)
  | inner {f : Fragment} {t : Token} {offset : Nat} {parts : TemplateParts} {entry : Text × Nat}
      (outer : f.IsIn source) (stands : t.StandsAt f.text f.line offset)
      (template : t.kind = .template) (split : splitTemplate t.text = .ok parts)
      (mem : entry ∈ parts.expressions) : IsIn source (f.inner offset t entry)

end Fragment

/-- An expression of a template stands in its body, behind the sign for its start. -/
theorem TemplateParts.LaidOut.stands {offset : Nat} {body : Text} {parts : TemplateParts}
    (h : parts.LaidOut offset body) {entry : Text × Nat} (mem : entry ∈ parts.expressions) :
    ∃ before after, body = before ++ dollarBrace ++ entry.1 ++ after
      ∧ entry.2 = offset + before.length + 2 := by
  induction h with
  | last => cases mem
  | @next offset chunk source rest parts _ _ _ ih =>
    rcases List.mem_cons.mp mem with rfl | mem
    · exact ⟨chunk, [closeBrace] ++ rest, by simp, rfl⟩
    · obtain ⟨before, after, rfl, there⟩ := ih mem
      refine ⟨chunk ++ dollarBrace ++ source ++ [closeBrace] ++ before, after, by simp, ?_⟩
      rw [there]
      simp [dollarBrace]
      omega

/-- What an expression in a template of some tokens **stands behind**: the backtick and what of
the body comes before it, which ends with a brace. -/
theorem Token.StandsAt.expression {text : Text} {line : Int} {t : Token} {offset : Nat}
    {parts : TemplateParts} {entry : Text × Nat} (h : t.StandsAt text line offset)
    (template : t.kind = .template) (split : splitTemplate t.text = .ok parts)
    (mem : entry ∈ parts.expressions) :
    entry.1 <+: text.drop (offset + 1 + entry.2)
      ∧ offset + 1 + entry.2 ≤ text.length
      ∧ text.take (offset + 1 + entry.2) = text.take offset ++ backtick :: t.text.take entry.2
      ∧ ∃ before, t.text.take entry.2 = before ++ [openBrace] := by
  have body : parts.LaidOut 0 t.text := by
    obtain ⟨before, after, cut, -⟩ := h
    obtain ⟨parts', split', laid⟩ := splitTemplate_laidOut
      (isBody_of_tokenize cut (List.mem_append_right _ List.mem_cons_self) template)
    obtain rfl := Except.ok.inj (split.symm.trans split')
    exact laid
  obtain ⟨before, after, same, there⟩ := body.stands mem
  have source : t.source = backtick :: t.text ++ [backtick] := if_pos template
  have stands : backtick :: t.text <+: text.drop offset :=
    (List.prefix_append _ _).trans (source ▸ h.stands)
  have inside : 1 + entry.2 ≤ (backtick :: t.text).length := by
    rw [List.length_cons, same, there]
    simp [dollarBrace]
    omega
  have upTo : t.text.take entry.2 = before ++ dollarBrace := by
    rw [same, List.append_assoc, List.take_left']
    rw [there]
    simp [dollarBrace]
  have length := h.inside
  rw [source] at length
  rw [Nat.add_assoc]
  refine ⟨stands_trans stands ?_, ?_, ?_, before ++ [('$' : CodePoint)], ?_⟩
  · rw [Nat.add_comm 1, List.drop_succ_cons, same, List.append_assoc, List.drop_left']
    · exact List.prefix_append _ _
    · rw [there]
      simp [dollarBrace]
  · simp only [List.length_append, List.length_cons, List.length_nil] at length inside
    omega
  · rw [take_add_of_stands stands inside, Nat.add_comm 1, List.take_succ_cons]
  · rw [upTo, List.append_assoc]
    rfl

namespace Fragment.IsIn

variable {source : Text} {f : Fragment}

/-- A fragment stands where it starts. -/
theorem stands (h : f.IsIn source) : f.text <+: source.drop f.start := by
  induction h with
  | whole => exact List.prefix_refl _
  | inner _ there template split mem ih =>
    exact stands_trans ih (there.expression template split mem).1

/-- The line that a fragment is read from **leaves out** what it is said to. -/
theorem line_add_uncounted (h : f.IsIn source) :
    f.line + f.uncounted = 1 + (source.take f.start).countP startsLine := by
  induction h with
  | whole => rfl
  | @inner f t offset parts entry outer there template split mem ih =>
    obtain ⟨-, inside, upTo, -⟩ := there.expression template split mem
    have line : t.line = f.line + (f.text.take offset).countP startsLine :=
      congrArg Place.line there.place
    show t.line + lineFeedsIn t.text entry.2 + (f.uncounted + _ : Nat)
      = 1 + (source.take (f.start + (offset + 1 + entry.2))).countP startsLine
    rw [take_add_of_stands outer.stands inside, upTo, List.countP_append, List.countP_append,
      List.countP_cons_of_neg (by decide), countP_startsLine (t.text.take entry.2), line,
      lineFeedsIn]
    omega

/-- A fragment that is not the source itself starts **in the midst of a line**, behind a brace. -/
theorem midst (h : f.IsIn source) :
    f = .whole source ∨ ∃ before, source.take f.start = before ++ [openBrace] := by
  cases h with
  | whole => exact .inl rfl
  | @inner f t offset parts entry outer there template split mem =>
    obtain ⟨-, inside, upTo, before, brace⟩ := there.expression template split mem
    refine .inr ⟨source.take f.start ++ f.text.take offset ++ backtick :: before, ?_⟩
    show source.take (f.start + (offset + 1 + entry.2)) = _
    rw [take_add_of_stands outer.stands inside, upTo, brace]
    simp

/-- **When the place of a token in a fragment is its place in the source**: always in the source
itself, and else if no line has been left out and one has been started in the fragment. -/
theorem placeAt_eq_iff {offset : Nat} (h : f.IsIn source) (inside : offset ≤ f.text.length) :
    placeAt f.text f.line offset = placeAt source 1 (f.start + offset) ↔
      f = .whole source ∨ (f.uncounted = 0 ∧ (f.text.take offset).any startsLine = true) := by
  rcases h.midst with rfl | ⟨before, midst⟩
  · refine iff_of_true ?_ (.inl rfl)
    show placeAt source 1 offset = placeAt source 1 (0 + offset)
    rw [Nat.zero_add]
  · have nested : f ≠ .whole source := by
      rintro rfl
      exact absurd midst.symm (List.append_ne_nil_of_right_ne_nil _ nofun)
    have line := h.line_add_uncounted
    rw [Scriptlet.placeAt_eq_iff h.stands inside midst (by decide), or_iff_right nested]
    refine and_congr_left fun _ => ?_
    omega

end Fragment.IsIn

/-! ## The tokens of a text and of its templates -/

/-- A token **is cut from** a source: from one of its fragments, where it stands. -/
def Token.IsCutFrom (source : Text) (t : Token) : Prop :=
  ∃ f offset, Fragment.IsIn source f ∧ t.StandsAt f.text f.line offset

theorem isCutFrom_closed (source : Text) : Token.Closed (Token.IsCutFrom source) := by
  rintro t ⟨f, offset, outer, stands⟩ template parts split entry mem tokens cut u hu
  obtain ⟨offset', stands'⟩ := exists_standsAt cut hu
  exact ⟨f.inner offset t entry, offset', .inner outer stands template split mem, stands'⟩

theorem isCutFrom_yields (source : Text) : Token.Yields (Token.IsCutFrom source) source 1 := by
  intro tokens cut t ht
  obtain ⟨offset, stands⟩ := exists_standsAt cut ht
  exact ⟨.whole source, offset, .whole, stands⟩

/-! ## Names and literals in a program -/

theorem Position.ofPlace_inj {p q : Place} : ofPlace p = ofPlace q ↔ p = q := by
  cases p
  cases q
  simp only [ofPlace, mk.injEq, Option.some.injEq, Int.ofNat_inj, Place.mk.injEq]

/-- The part of a node at the end of a path. -/
def Node.part? (n : Node) : List Nat → Option Node
  | [] => some n
  | i :: path => n.children[i]?.bind (·.part? path)

theorem Node.isPartOf_of_part? {n m : Node} {path : List Nat} (h : n.part? path = some m) :
    m.IsPartOf n := by
  induction path generalizing n with
  | nil => exact Option.some.inj h ▸ .self
  | cons i path ih =>
    obtain ⟨child, found, rest⟩ := Option.bind_eq_some_iff.mp h
    exact .child (List.mem_of_getElem? found) (ih rest)

/-- Whether a node is a **name or a literal**. -/
def Node.isAtom (n : Node) : Bool :=
  n.kind?.any Kind.isAtom

/-- A name or a literal is **read from** a token that stands at an offset of a fragment. -/
structure Node.IsReadFrom (n : Node) (source : Text) (f : Fragment) (offset : Nat) (t : Token) :
    Prop where
  /-- The fragment is one of the source. -/
  isIn : f.IsIn source
  /-- The token stands in it. -/
  stands : t.StandsAt f.text f.line offset
  /-- The node has the token for its only leaf, and starts where it does. -/
  made : ∃ kind label, n = .make kind [.ofToken label t] t

/-- A source **places its names and literals** if each of them has the position of where its token
stands in the source. -/
def Text.PlacesAtoms (source : Text) : Prop :=
  ∀ program, parseProgram source = .ok program → ∀ n : Node, n.IsPartOf program →
    n.isAtom = true → ∃ f offset t, n.IsReadFrom source f offset t ∧
      n.position? = some (.ofPlace (placeAt source 1 (f.start + offset)))

/-- **Where names and literals are said to stand, and when they do.** Each is read from a token of
some fragment of the source, in which it is found at the offset where the fragment starts and as
much further on as it stands in it. Its position is the place of the token in the fragment. That is
its place in the source exactly if the fragment is the source, or if no lines have been left out
before the fragment and one is started in it before the token. -/
theorem places_atoms {source : Text} {program : Node} (parsed : parseProgram source = .ok program)
    {n : Node} (part : n.IsPartOf program) (atom : n.isAtom = true) :
    ∃ f offset t, n.IsReadFrom source f offset t
      ∧ t.source <+: source.drop (f.start + offset)
      ∧ n.position? = some (.ofPlace (placeAt f.text f.line offset))
      ∧ (n.position? = some (.ofPlace (placeAt source 1 (f.start + offset))) ↔
        f = .whole source ∨ (f.uncounted = 0 ∧ (f.text.take offset).any startsLine = true)) := by
  have made := parseProgram_madeOf (isCutFrom_closed source) (isCutFrom_yields source)
  rw [parsed] at made
  have read : ∃ kind label t, t.IsCutFrom source ∧ n = .make kind [.ofToken label t] t := by
    cases made.part part with
    | leaf | chunk => cases atom
    | atom kind label ht => exact ⟨kind, label, _, ht, rfl⟩
    | @compound kind _ _ _ noAtom _ => exact absurd (noAtom.symm.trans atom) nofun
  obtain ⟨kind, label, t, ⟨f, offset, isIn, stands⟩, rfl⟩ := read
  have position : (Node.make kind [.ofToken label t] t).position?
      = some (.ofPlace (placeAt f.text f.line offset)) := by
    rw [← stands.place]
    rfl
  refine ⟨f, offset, t, ⟨isIn, stands, kind, label, rfl⟩, stands_trans isIn.stands stands.stands,
    position, ?_⟩
  rw [position, ← isIn.placeAt_eq_iff (Nat.le_of_add_right_le stands.inside)]
  rw [Option.some_inj, Position.ofPlace_inj]

/-- A name on the second line of an expression, which is on the second line of the source too. -/
theorem places_atoms_of_second_line :
    ∃ (program n : Node) (f : Fragment) (offset : Nat) (t : Token),
      parseProgram "`$\x7b\n  x\x7d`" = .ok program ∧ n.IsPartOf program ∧ n.isAtom = true
      ∧ n.IsReadFrom "`$\x7b\n  x\x7d`" f offset t
      ∧ t.source <+: List.drop (f.start + offset) ("`$\x7b\n  x\x7d`" : Text)
      ∧ n.position? = some (.ofPlace (placeAt f.text f.line offset))
      ∧ n.position? = some (.ofPlace (placeAt "`$\x7b\n  x\x7d`" 1 6)) := by
  have reads : ((parseProgram "`$\x7b\n  x\x7d`").toOption.bind (·.part? [0, 0, 1])).map
      (fun n => (n.isAtom, n.position?)) = some (true, some ⟨2, some 3⟩) := by decide +kernel
  obtain ⟨n, found, view⟩ := Option.map_eq_some_iff.mp reads
  obtain ⟨program, parsed, there⟩ := Option.bind_eq_some_iff.mp found
  obtain ⟨atom, position⟩ := Prod.mk.inj view
  have part := Node.isPartOf_of_part? there
  obtain ⟨f, offset, t, read, stands, here, -⟩ :=
    places_atoms (Except.eq_ok_of_toOption parsed) part atom
  exact ⟨program, n, f, offset, t, Except.eq_ok_of_toOption parsed, part, atom, read, stands, here,
    position⟩

/-- A name behind a separator in a template: it is said to stand where the source starts. -/
theorem not_placesAtoms_separator : ¬ Text.PlacesAtoms "`\u2028$\x7bx\x7d`" := by
  intro places
  have reads : ((parseProgram "`\u2028$\x7bx\x7d`").toOption.bind (·.part? [0, 0, 1])).map
      (fun n => (n.isAtom, n.position?, n.children.map Node.asText))
        = some (true, some (⟨1, some 1⟩ : Position), [("x" : Text)]) := by decide +kernel
  obtain ⟨n, found, view⟩ := Option.map_eq_some_iff.mp reads
  obtain ⟨program, parsed, there⟩ := Option.bind_eq_some_iff.mp found
  simp only [Prod.mk.injEq] at view
  obtain ⟨atom, position, texts⟩ := view
  obtain ⟨f, offset, t, read, same⟩ :=
    places program (Except.eq_ok_of_toOption parsed) n (Node.isPartOf_of_part? there) atom
  have stands := stands_trans read.isIn.stands read.stands.stands
  obtain ⟨kind, label, rfl⟩ := read.made
  have text : t.text = "x" := List.cons.inj texts |>.1
  -- The source of the token is its text, or its text between backticks.
  have source : t.source = "x" ∨ t.source = "`x`" := by
    unfold Token.source
    rw [text]
    split
    · exact .inr rfl
    · exact .inl rfl
  rw [position, Option.some_inj] at same
  generalize f.start + offset = k at stands same
  have inside : k < 7 := by
    by_contra beyond
    rw [List.drop_eq_nil_of_le (Nat.le_of_not_lt beyond)] at stands
    rcases source with source | source <;> simp [source, Text.ofString] at stands
  have start : k = 0 := by
    have only : ∀ k < 7, (⟨1, some 1⟩ : Position)
        = .ofPlace (placeAt "`\u2028$\x7bx\x7d`" 1 k) → k = 0 := by decide
    exact only k inside same
  subst start
  rcases source with source | source <;> rw [source] at stands <;> revert stands <;> decide

end Scriptlet
