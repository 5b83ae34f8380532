import Scriptlet.Tree.Grammar

/-!
# Phrases

A syntax tree does not show what tokens it was read from: brackets, commas and many words leave
no trace in it, and the operator of a step stands in front of its operand, wherever it stood in
the text. Between the tokens and the tree there is the *phrase*, which has all the tokens in
their order and is divided as the grammar divides them.

What tree some phrases *form* is read off them in order. A token is passed over or makes a leaf,
and a phrase makes a branch of what its parts form. Only where the order of the tree is not that
of the text, where one token does for two, or where the grammar looks at the ends of lines, is
there a sort of phrase of its own. The latter are three: the arrow, the step after its operand
and the return of a value.

Tokens that leave no trace are none that have a meaning of their own: no arrow, no step and no
operator is passed over.
-/

namespace Scriptlet

/-- A **phrase**: tokens divided as the grammar divides them. -/
inductive Phrase where
  /-- A token by itself. -/
  | token (t : Token)
  /-- What makes a branch of some kind. -/
  | plain (kind : Kind) (parts : List Phrase)
  /-- A function expression with a name, which comes last in the tree. -/
  | named (word name : Token) (parts : List Phrase)
  /-- A property that is a name and its own value. -/
  | shorthand (name : Token)
  /-- A template, which is one token, and what it is made of. -/
  | template (t : Token) (pieces : List Phrase)
  /-- A chunk of a template. -/
  | chunk (text : Text) (t : Token)
  /-- An expression in a template, which has tokens of its own. -/
  | fragment (source : Text) (line : Int) (parts : List Phrase)
  /-- An **arrow**: its parameters, the sign and its body. -/
  | arrow (params : List Phrase) (sign : Token) (body : List Phrase)
  /-- An operand and a **step after it**. -/
  | stepped (target : List Phrase) (step : Token)
  /-- A **return of a value**. -/
  | returning (word : Token) (value : List Phrase)

namespace Phrase

mutual

/-- The tokens of a phrase. -/
def tokens : Phrase → List Token
  | token t => [t]
  | plain _ parts => tokensOf parts
  | named word name parts => word :: name :: tokensOf parts
  | shorthand name => [name]
  | template t _ => [t]
  | chunk .. => []
  | fragment .. => []
  | arrow params sign body => tokensOf params ++ sign :: tokensOf body
  | stepped target step => tokensOf target ++ [step]
  | returning word value => word :: tokensOf value

/-- The tokens of phrases one after another. -/
def tokensOf : List Phrase → List Token
  | [] => []
  | p :: rest => p.tokens ++ tokensOf rest

end

attribute [simp] tokens

@[simp] theorem tokensOf_nil : tokensOf [] = [] := by
  rw [tokensOf]

@[simp] theorem tokensOf_cons (p : Phrase) (rest : List Phrase) :
    tokensOf (p :: rest) = p.tokens ++ tokensOf rest := by
  rw [tokensOf]

@[simp] theorem tokensOf_append (xs ys : List Phrase) :
    tokensOf (xs ++ ys) = tokensOf xs ++ tokensOf ys := by
  induction xs with
  | nil => rw [List.nil_append, tokensOf_nil, List.nil_append]
  | cons p xs ih => rw [List.cons_append, tokensOf_cons, ih, tokensOf_cons, List.append_assoc]

/-! ## Parts -/

/-- What a phrase is divided into. -/
def parts : Phrase → List Phrase
  | plain _ parts | named _ _ parts | template _ parts | fragment _ _ parts => parts
  | arrow params _ body => params ++ body
  | stepped target _ => target
  | returning _ value => value
  | token _ | shorthand _ | chunk .. => []

/-- A phrase **is a part of** another: it, or a part of what that is divided into. -/
inductive IsPartOf (p : Phrase) : Phrase → Prop where
  | self : IsPartOf p p
  | part {whole q : Phrase} (mem : q ∈ whole.parts) (inner : IsPartOf p q) : IsPartOf p whole

/-- A phrase **heeds the ends of lines**. A step stands on the line on which its operand ends, a
value that is returned begins on the line of its word, and no line ends before the sign of an
arrow, unless its parameters are a bare name. -/
def HeedsLine : Phrase → Prop
  | arrow params sign _ => sign.newlineBefore = true →
    ∃ name, tokensOf params = [name] ∧ name.kind = .identifier
  | stepped _ step => step.newlineBefore = false
  | returning _ value => ∃ first rest, tokensOf value = first :: rest ∧ first.newlineBefore = false
  | _ => True

/-- A phrase **keeps to the lines** if all parts of it heed their ends. -/
def KeepsToLines (whole : Phrase) : Prop :=
  ∀ p : Phrase, p.IsPartOf whole → p.HeedsLine

theorem keepsToLines_iff {whole : Phrase} :
    whole.KeepsToLines ↔ whole.HeedsLine ∧ ∀ p ∈ whole.parts, p.KeepsToLines := by
  constructor
  · exact fun h => ⟨h whole .self, fun p hp q hq => h q (.part hp hq)⟩
  · rintro ⟨here, below⟩ p isPart
    cases isPart with
    | self => exact here
    | part mem inner => exact below _ mem p inner

end Phrase

/-! ## What phrases form -/

/-- Tokens of these kinds may be **passed over**: they leave no trace in a tree. -/
def TokenKind.isSilent : TokenKind → Bool
  | functionWord | returnWord | ifWord | elseWord | newWord | thisWord | assign | spread
  | leftParen | rightParen | leftBracket | rightBracket | leftBrace | rightBrace
  | dot | comma | colon | semicolon | question => true
  | _ => false

/-- A branch is **ordinary** if it is neither an arrow nor the return of a value. -/
def Kind.IsOrdinary (kind : Kind) (children : List Node) : Prop :=
  kind ≠ .arrow ∧ (kind = .returnStatement → children = [])

/-- Phrases **form** nodes: what the phrases one after another make, with the tokens that leave
no trace passed over. -/
inductive Forms : List Phrase → List Node → Prop where
  | nil : Forms [] []
  | silent {t : Token} {rest : List Phrase} {more : List Node} (silent : t.kind.isSilent = true)
    (others : Forms rest more) : Forms (.token t :: rest) more
  | leaf {t : Token} {rest : List Phrase} {more : List Node} (label : Label)
    (noArrow : t.kind ≠ .arrow) (others : Forms rest more) :
    Forms (.token t :: rest) (.ofToken label t :: more)
  | plain {kind : Kind} {parts rest : List Phrase} {children more : List Node} (start : Token)
    (ordinary : kind.IsOrdinary children) (inner : Forms parts children)
    (others : Forms rest more) :
    Forms (.plain kind parts :: rest) (.make kind children start :: more)
  | named {word name : Token} {parts rest : List Phrase} {params body : Node} {more : List Node}
    (isWord : word.kind = .functionWord) (isName : name.kind = .identifier)
    (inner : Forms parts [params, body]) (others : Forms rest more) :
    Forms (.named word name parts :: rest)
      (.make .function [params, body, .ofToken .identifier name] word :: more)
  | shorthand {name : Token} {rest : List Phrase} {more : List Node}
    (isName : name.kind = .identifier) (others : Forms rest more) :
    Forms (.shorthand name :: rest)
      (.make .property [.ofToken .identifier name,
        .make .identifier [.ofToken .identifier name] name] name :: more)
  | template {t : Token} {pieces rest : List Phrase} {children more : List Node}
    (isTemplate : t.kind = .template) (inner : Forms pieces children) (others : Forms rest more) :
    Forms (.template t pieces :: rest) (.make .template children t :: more)
  | chunk {text : Text} {t : Token} {rest : List Phrase} {more : List Node}
    (others : Forms rest more) :
    Forms (.chunk text t :: rest)
      (.make .templateChunk [.leaf .chunk text t.position] t :: more)
  | fragment {source : Text} {line : Int} {tokens : List Token} {parts rest : List Phrase}
    {n : Node} {more : List Node} (cut : tokenize source line = .ok tokens)
    (whole : ∃ last after, tokens = Phrase.tokensOf parts ++ last :: after ∧ last.kind = .endOfText)
    (inner : Forms parts [n]) (others : Forms rest more) :
    Forms (.fragment source line parts :: rest) (n :: more)
  | arrow {params body rest : List Phrase} {sign : Token} {m n : Node} {more : List Node}
    (start : Token) (isArrow : sign.kind = .arrow) (left : Forms params [m])
    (right : Forms body [n]) (others : Forms rest more) :
    Forms (.arrow params sign body :: rest) (.make .arrow [m, n] start :: more)
  | stepped {target rest : List Phrase} {step : Token} {n : Node} {more : List Node}
    (start : Token) (isStep : step.kind = .increment ∨ step.kind = .decrement)
    (inner : Forms target [n]) (others : Forms rest more) :
    Forms (.stepped target step :: rest)
      (.make .update [.ofToken .operator step, n] start :: more)
  | returning {word : Token} {value rest : List Phrase} {n : Node} {more : List Node}
    (isWord : word.kind = .returnWord) (inner : Forms value [n]) (others : Forms rest more) :
    Forms (.returning word value :: rest) (.make .returnStatement [n] word :: more)

theorem Forms.append {xs ys : List Phrase} {ms ns : List Node} (first : Forms xs ms)
    (second : Forms ys ns) : Forms (xs ++ ys) (ms ++ ns) := by
  induction first with
  | nil => exact second
  | silent silent _ ih => exact .silent silent ih
  | leaf label noArrow _ ih => exact .leaf label noArrow ih
  | plain start ordinary inner _ _ ih => exact .plain start ordinary inner ih
  | named isWord isName inner _ _ ih => exact .named isWord isName inner ih
  | shorthand isName _ ih => exact .shorthand isName ih
  | template isTemplate inner _ _ ih => exact .template isTemplate inner ih
  | chunk _ ih => exact .chunk ih
  | fragment cut whole inner _ _ ih => exact .fragment cut whole inner ih
  | arrow start isArrow left right _ _ _ ih => exact .arrow start isArrow left right ih
  | stepped start isStep inner _ _ ih => exact .stepped start isStep inner ih
  | returning isWord inner _ _ ih => exact .returning isWord inner ih

/-! ## Arrows on lines of their own -/

/-- An arrow at the beginning of a line **stands behind a name** in some tokens. -/
def ArrowsStandBehindNames (tokens : List Token) : Prop :=
  ∀ before sign after, tokens = before ++ sign :: after → sign.kind = .arrow →
    sign.newlineBefore = true → ∃ front name, before = front ++ [name] ∧ name.kind = .identifier

namespace ArrowsStandBehindNames

variable {xs ys : List Token}

theorem nil : ArrowsStandBehindNames [] :=
  fun _ _ _ split => absurd split (by simp)

theorem append (hx : ArrowsStandBehindNames xs) (hy : ArrowsStandBehindNames ys) :
    ArrowsStandBehindNames (xs ++ ys) := by
  intro before sign after split isArrow newline
  rcases List.append_eq_append_iff.mp split with ⟨between, rfl, later⟩ | ⟨between, earlier, rest⟩
  · obtain ⟨front, name, rfl, isName⟩ := hy between sign after later isArrow newline
    exact ⟨xs ++ front, name, (List.append_assoc ..).symm, isName⟩
  · cases between with
    | nil =>
      obtain ⟨front, name, none, -⟩ := hy [] sign after rest.symm isArrow newline
      exact absurd none (by simp)
    | cons first between =>
      obtain ⟨rfl, -⟩ := List.cons.inj rest
      exact hx before sign between earlier isArrow newline

/-- A token that is no arrow on a new line may stand anywhere. -/
theorem singleton {t : Token} (h : t.kind = .arrow → t.newlineBefore = false) :
    ArrowsStandBehindNames [t] := by
  intro before sign after split isArrow newline
  cases before with
  | nil =>
    obtain ⟨rfl, -⟩ := List.cons.inj split
    cases (h isArrow).symm.trans newline
  | cons _ before =>
    obtain ⟨-, none⟩ := List.cons.inj split
    exact absurd none (by simp)

theorem cons {t : Token} (h : t.kind ≠ .arrow) (hx : ArrowsStandBehindNames xs) :
    ArrowsStandBehindNames (t :: xs) :=
  append (singleton fun isArrow => absurd isArrow h) hx

/-- Behind a name there may be an arrow. -/
theorem pair {name sign : Token} (isName : name.kind = .identifier) :
    ArrowsStandBehindNames [name, sign] := by
  intro before t after split isArrow newline
  match before with
  | [] =>
    obtain ⟨rfl, -⟩ := List.cons.inj split
    cases isName.symm.trans isArrow
  | [_] =>
    obtain ⟨rfl, -⟩ := List.cons.inj split
    exact ⟨[], name, rfl, isName⟩
  | _ :: _ :: before =>
    obtain ⟨-, rest⟩ := List.cons.inj split
    exact absurd (List.cons.inj rest).2 (by simp)

end ArrowsStandBehindNames

theorem TokenKind.ne_arrow_of_isSilent {kind : TokenKind} (h : kind.isSilent = true) :
    kind ≠ .arrow := by
  rintro rfl
  cases h

/-- **Where phrases keep to the lines, an arrow on a new line stands behind a name.** -/
theorem Forms.arrowsStandBehindNames {phrases : List Phrase} {nodes : List Node}
    (h : Forms phrases nodes) (keeps : ∀ p ∈ phrases, p.KeepsToLines) :
    ArrowsStandBehindNames (Phrase.tokensOf phrases) := by
  have below {p : Phrase} (hp : p.KeepsToLines) := (Phrase.keepsToLines_iff.mp hp).2
  -- Only arrows put the sign in, and all other phrases put what their parts have together.
  induction h with
  | nil => rw [Phrase.tokensOf_nil]; exact .nil
  | silent silent _ ih =>
    obtain ⟨-, others⟩ := List.forall_mem_cons.mp keeps
    rw [Phrase.tokensOf_cons, Phrase.tokens]
    exact .cons (TokenKind.ne_arrow_of_isSilent silent) (ih others)
  | leaf label noArrow _ ih =>
    obtain ⟨-, others⟩ := List.forall_mem_cons.mp keeps
    rw [Phrase.tokensOf_cons, Phrase.tokens]
    exact .cons noArrow (ih others)
  | plain start ordinary _ _ inner ih =>
    obtain ⟨here, others⟩ := List.forall_mem_cons.mp keeps
    rw [Phrase.tokensOf_cons, Phrase.tokens]
    exact (inner (below here)).append (ih others)
  | named isWord isName _ _ inner ih =>
    obtain ⟨here, others⟩ := List.forall_mem_cons.mp keeps
    rw [Phrase.tokensOf_cons, Phrase.tokens]
    exact .cons (by rw [isWord]; decide)
      (.cons (by rw [isName]; decide) ((inner (below here)).append (ih others)))
  | shorthand isName _ ih =>
    obtain ⟨-, others⟩ := List.forall_mem_cons.mp keeps
    rw [Phrase.tokensOf_cons, Phrase.tokens]
    exact .cons (by rw [isName]; decide) (ih others)
  | template isTemplate _ _ _ ih =>
    obtain ⟨-, others⟩ := List.forall_mem_cons.mp keeps
    rw [Phrase.tokensOf_cons, Phrase.tokens]
    exact .cons (by rw [isTemplate]; decide) (ih others)
  | chunk _ ih | fragment _ _ _ _ _ ih =>
    obtain ⟨-, others⟩ := List.forall_mem_cons.mp keeps
    rw [Phrase.tokensOf_cons, Phrase.tokens]
    exact ih others
  | @arrow params body _ sign _ _ _ start isArrow _ _ _ left right ih =>
    obtain ⟨here, others⟩ := List.forall_mem_cons.mp keeps
    obtain ⟨params', body'⟩ := List.forall_mem_append.mp (below here)
    rw [Phrase.tokensOf_cons, Phrase.tokens]
    refine .append ?_ (ih others)
    by_cases newline : sign.newlineBefore = true
    · obtain ⟨name, bare, isName⟩ := (Phrase.keepsToLines_iff.mp here).1 newline
      rw [bare]
      exact (ArrowsStandBehindNames.pair isName).append (right body')
    · have alone : ArrowsStandBehindNames [sign] :=
        .singleton fun _ => Bool.eq_false_iff.mpr newline
      exact (left params').append (alone.append (right body'))
  | stepped start isStep _ _ inner ih =>
    obtain ⟨here, others⟩ := List.forall_mem_cons.mp keeps
    rw [Phrase.tokensOf_cons, Phrase.tokens]
    refine .append (.append (inner (below here)) (.cons ?_ .nil)) (ih others)
    rcases isStep with isStep | isStep <;> rw [isStep] <;> decide
  | returning isWord _ _ inner ih =>
    obtain ⟨here, others⟩ := List.forall_mem_cons.mp keeps
    rw [Phrase.tokensOf_cons, Phrase.tokens]
    exact .append (.cons (by rw [isWord]; decide) (inner (below here))) (ih others)

/-! ## What tokens spell -/

/-- Tokens **spell** nodes if they are those of phrases that form them and keep to the lines. -/
def SpellAll (tokens : List Token) (nodes : List Node) : Prop :=
  ∃ phrases, Phrase.tokensOf phrases = tokens ∧ Forms phrases nodes
    ∧ ∀ p ∈ phrases, p.KeepsToLines

/-- Tokens, and not none at all, **spell** a node. -/
def Spell (tokens : List Token) (n : Node) : Prop :=
  tokens ≠ [] ∧ SpellAll tokens [n]

section Spelling

variable {xs ys : List Token} {ms ns : List Node} {m n : Node} {t start : Token} {kind : Kind}

namespace SpellAll

theorem nil : SpellAll [] [] :=
  ⟨[], Phrase.tokensOf_nil, .nil, List.forall_mem_nil _⟩

theorem append (first : SpellAll xs ms) (second : SpellAll ys ns) :
    SpellAll (xs ++ ys) (ms ++ ns) := by
  obtain ⟨ps, rfl, forms, keeps⟩ := first
  obtain ⟨qs, rfl, forms', keeps'⟩ := second
  exact ⟨ps ++ qs, Phrase.tokensOf_append ps qs, forms.append forms',
    List.forall_mem_append.mpr ⟨keeps, keeps'⟩⟩

/-- A phrase spells what it forms. -/
theorem of_phrase {p : Phrase} (forms : Forms [p] ns) (heeds : p.HeedsLine)
    (keeps : ∀ q ∈ p.parts, q.KeepsToLines) : SpellAll p.tokens ns := by
  refine ⟨[p], by rw [Phrase.tokensOf_cons, Phrase.tokensOf_nil, List.append_nil], forms, ?_⟩
  exact List.forall_mem_singleton.mpr (Phrase.keepsToLines_iff.mpr ⟨heeds, keeps⟩)

/-- A token that leaves no trace may come first. -/
theorem silent (silent : t.kind.isSilent = true) (h : SpellAll xs ns) :
    SpellAll (t :: xs) ns := by
  have alone : SpellAll [t] [] := by
    simpa using of_phrase (p := .token t) (.silent silent .nil) trivial nofun
  exact alone.append h

/-- A token that makes a leaf may come first. -/
theorem leaf (label : Label) (noArrow : t.kind ≠ .arrow) (h : SpellAll xs ns) :
    SpellAll (t :: xs) (.ofToken label t :: ns) := by
  have alone : SpellAll [t] [.ofToken label t] := by
    simpa using of_phrase (p := .token t) (.leaf label noArrow .nil) trivial nofun
  exact alone.append h

/-- What spells the children spells the branch. -/
theorem branch (start : Token) (ordinary : kind.IsOrdinary ns) (h : SpellAll xs ns) :
    SpellAll xs [.make kind ns start] := by
  obtain ⟨ps, rfl, forms, keeps⟩ := h
  simpa using
    of_phrase (p := .plain kind ps) (.plain start ordinary forms .nil) trivial keeps

theorem named {word name : Token} {params body : Node} (isWord : word.kind = .functionWord)
    (isName : name.kind = .identifier) (h : SpellAll xs [params, body]) :
    SpellAll (word :: name :: xs)
      [.make .function [params, body, .ofToken .identifier name] word] := by
  obtain ⟨ps, rfl, forms, keeps⟩ := h
  simpa using
    of_phrase (p := .named word name ps) (.named isWord isName forms .nil) trivial keeps

theorem shorthand {name : Token} (isName : name.kind = .identifier) :
    SpellAll [name] [.make .property [.ofToken .identifier name,
      .make .identifier [.ofToken .identifier name] name] name] := by
  simpa using
    of_phrase (p := .shorthand name) (.shorthand isName .nil) trivial nofun

/-- The sign of an arrow may stand on a new line only behind a bare name. -/
theorem arrow {sign : Token} (start : Token) (isArrow : sign.kind = .arrow)
    (heeds : sign.newlineBefore = true → ∃ name, xs = [name] ∧ name.kind = .identifier)
    (left : SpellAll xs [m]) (right : SpellAll ys [n]) :
    SpellAll (xs ++ sign :: ys) [.make .arrow [m, n] start] := by
  obtain ⟨ps, rfl, forms, keeps⟩ := left
  obtain ⟨qs, rfl, forms', keeps'⟩ := right
  simpa using
    of_phrase (p := .arrow ps sign qs) (.arrow start isArrow forms forms' .nil) heeds
      (List.forall_mem_append.mpr ⟨keeps, keeps'⟩)

/-- A step after an operand stands on its line. -/
theorem stepped {step : Token} (start : Token)
    (isStep : step.kind = .increment ∨ step.kind = .decrement)
    (sameLine : step.newlineBefore = false) (h : SpellAll xs [n]) :
    SpellAll (xs ++ [step]) [.make .update [.ofToken .operator step, n] start] := by
  obtain ⟨ps, rfl, forms, keeps⟩ := h
  simpa using
    of_phrase (p := .stepped ps step) (.stepped start isStep forms .nil) sameLine keeps

/-- A value that is returned begins on the line of its word. -/
theorem returning {word : Token} (isWord : word.kind = .returnWord)
    (sameLine : ∃ first rest, xs = first :: rest ∧ first.newlineBefore = false)
    (h : SpellAll xs [n]) : SpellAll (word :: xs) [.make .returnStatement [n] word] := by
  obtain ⟨ps, rfl, forms, keeps⟩ := h
  simpa using
    of_phrase (p := .returning word ps) (.returning isWord forms .nil) sameLine keeps

end SpellAll

theorem Spell.all (h : Spell xs n) : SpellAll xs [n] :=
  h.2

/-! ### Templates -/

/-- Nodes are **pieces of a template**: chunks of it, and what is spelled in between. -/
def ArePieces (nodes : List Node) : Prop :=
  ∃ phrases, Forms phrases nodes ∧ ∀ p ∈ phrases, p.KeepsToLines

theorem ArePieces.nil : ArePieces [] :=
  ⟨[], .nil, List.forall_mem_nil _⟩

theorem ArePieces.chunk (text : Text) (t : Token) (h : ArePieces ns) :
    ArePieces (.make .templateChunk [.leaf .chunk text t.position] t :: ns) := by
  obtain ⟨ps, forms, keeps⟩ := h
  exact ⟨.chunk text t :: ps, .chunk forms, List.forall_mem_cons.mpr
    ⟨Phrase.keepsToLines_iff.mpr ⟨trivial, nofun⟩, keeps⟩⟩

/-- An expression in a template is spelled by the tokens of its text. -/
theorem ArePieces.fragment {source : Text} {line : Int} {tokens : List Token} {last : Token}
    {after : List Token} (cut : tokenize source line = .ok tokens)
    (whole : tokens = xs ++ last :: after) (ended : last.kind = .endOfText)
    (inner : SpellAll xs [n]) (h : ArePieces ns) : ArePieces (n :: ns) := by
  obtain ⟨qs, rfl, forms', keeps'⟩ := inner
  obtain ⟨ps, forms, keeps⟩ := h
  exact ⟨.fragment source line qs :: ps, .fragment cut ⟨last, after, whole, ended⟩ forms' forms,
    List.forall_mem_cons.mpr ⟨Phrase.keepsToLines_iff.mpr ⟨trivial, keeps'⟩, keeps⟩⟩

theorem SpellAll.template (isTemplate : t.kind = .template) (h : ArePieces ns) :
    SpellAll [t] [.make .template ns t] := by
  obtain ⟨ps, forms, keeps⟩ := h
  simpa using
    of_phrase (p := .template t ps) (.template isTemplate forms .nil) trivial keeps

end Spelling

end Scriptlet
