import Scriptlet.Proofs.Shape
import Scriptlet.Proofs.Layout
import Scriptlet.Tree.Grammar

/-!
# What readers give

With a *stock* of tokens, described by a property that each of them has, a reader *gives* what
has a property if, from some tokens in stock, it leaves some in stock and has a result with the
property, or fails at one of them. As for steps there is a rule for each way to put readers
together, and the grammar is gone through rule by rule, as it is written. Where a rule refers
to others, it is enough to know what these give.
-/

namespace Scriptlet

/-- A node that conforms and is **of a sort**. -/
structure Node.Proper (sort : Node → Bool) (n : Node) : Prop where
  /-- It conforms to the table of shapes. -/
  conforms : n.Conforms
  /-- It is of the sort. -/
  sorted : sort n = true

/-- An error of spelling or of grammar **is at** a token in stock, or in a template of it. -/
inductive SyntaxError.IsAt (stock : Token → Prop) : SyntaxError → Prop where
  /-- An error of the grammar is at a token. -/
  | token (cause : ParseCause) {t : Token} (ht : stock t) :
      IsAt stock (.parse ⟨cause, ⟨t.line, t.column⟩⟩)
  /-- An error of spelling is one in a template. -/
  | template (e : LexError) {t : Token} (ht : stock t) (template : t.kind = .template) :
      IsAt stock (.lex e)
  | tooDeep : IsAt stock .tooDeep

/-- Some tokens in stock, **at least one**. -/
structure Token.Supply (stock : Token → Prop) (tokens : List Token) : Prop where
  /-- There is one. -/
  some : tokens ≠ []
  /-- They are in stock. -/
  all : ∀ t ∈ tokens, stock t

/-- A text of its own **yields** tokens in stock, from the given line on. -/
def Token.Yields (stock : Token → Prop) (source : Text) (line : Int) : Prop :=
  ∀ tokens, tokenize source line = .ok tokens → ∀ t ∈ tokens, stock t

/-- A stock is **closed** if it has, with a template, the tokens of its expressions. -/
def Token.Closed (stock : Token → Prop) : Prop :=
  ∀ t, stock t → t.kind = .template → ∀ parts, splitTemplate t.text = .ok parts →
    ∀ entry ∈ parts.expressions, Yields stock entry.1 (t.line + lineFeedsIn t.text entry.2)

/-- There is always a token, if only the one for the end. -/
theorem ne_nil_of_tokenize {source : Text} {line : Int} {tokens : List Token}
    (h : tokenize source line = .ok tokens) : tokens ≠ [] := by
  have laid := tokenize_lays_out source line
  rw [h] at laid
  obtain ⟨-, proper, last, rfl, -⟩ := laid
  exact List.append_ne_nil_of_right_ne_nil _ nofun

/-- A rule **keeps to** tokens in stock: a text of its own is in a template in stock, and yields
tokens in stock. -/
def Rule.KeepsTo (stock : Token → Prop) : Rule → Prop
  | fragment source line =>
    (∃ t, stock t ∧ t.kind = .template) ∧ Token.Yields stock source line
  | _ => True

namespace Reader

variable {stock : Token → Prop} {tokens : List Token} {P Q : α → Prop} {P' : β → Prop}
  {kind : TokenKind}

/-- The current one of some tokens. -/
def head (tokens : List Token) : Token :=
  tokens.headD Token.missing

/-- A reader **gives**, from some tokens in stock, what has a property. -/
def Gives (stock : Token → Prop) (tokens : List Token) (P : α → Prop) (reader : Reader α) : Prop :=
  Token.Supply stock tokens →
    match reader tokens with
    | .ok (a, rest) => Token.Supply stock rest ∧ P a
    | .error e => e.IsAt stock

theorem stock_head (h : Token.Supply stock tokens) : stock (head tokens) := by
  cases tokens with
  | nil => exact absurd rfl h.some
  | cons t rest => exact h.all t List.mem_cons_self

/-! ## The rules -/

theorem Gives.pure {a : α} (h : P a) : Gives stock tokens P (Pure.pure a : Reader α) :=
  fun supply => ⟨supply, h⟩

/-- **One reader after another.** -/
theorem Gives.bind {reader : Reader α} {next : α → Reader β} (first : reader.Gives stock tokens Q)
    (second : ∀ a rest, Q a → (next a).Gives stock rest P') :
    Gives stock tokens P' (reader >>= next) := by
  intro supply
  have answer := first supply
  show match (reader tokens >>= fun p => next p.1 p.2) with
    | .ok (a, rest) => Token.Supply stock rest ∧ P' a
    | .error e => e.IsAt stock
  cases h : reader tokens with
  | error e =>
    rw [h] at answer
    exact answer
  | ok result =>
    rw [h] at answer
    exact second result.1 result.2 answer.2 answer.1

theorem Gives.mono {reader : Reader α} (h : reader.Gives stock tokens Q)
    (hp : ∀ a, Q a → P a) : reader.Gives stock tokens P := by
  intro supply
  have answer := h supply
  cases hrun : reader tokens with
  | error e => simpa only [hrun] using answer
  | ok result =>
    rw [hrun] at answer
    exact answer.imp id (hp _)

theorem Gives.map {reader : Reader α} {f : α → β} (h : reader.Gives stock tokens Q)
    (hf : ∀ a, Q a → P' (f a)) : Gives stock tokens P' (f <$> reader) := by
  rw [map_eq_pure_bind]
  exact h.bind fun a _ ha => .pure (hf a ha)

/-! ## Looking at tokens and consuming them -/

theorem Gives.current_bind {next : Token → Reader β}
    (h : stock (head tokens) → (next (head tokens)).Gives stock tokens P') :
    Gives stock tokens P' (current >>= next) :=
  fun supply => h (stock_head supply) supply

theorem Gives.check_bind {next : Bool → Reader β}
    (h : (next ((head tokens).kind == kind)).Gives stock tokens P') :
    Gives stock tokens P' (check kind >>= next) :=
  fun supply => h supply

theorem Gives.check : Gives stock tokens (fun _ => True) (check kind) :=
  fun supply => ⟨supply, trivial⟩

theorem Gives.room_bind {next : Nat → Reader β} (h : ∀ n, (next n).Gives stock tokens P') :
    Gives stock tokens P' (room >>= next) :=
  fun supply => h _ supply

/-- Consuming a token gives the current one. -/
theorem Gives.advance_bind {next : Token → Reader β}
    (h : stock (head tokens) → ∀ rest, (next (head tokens)).Gives stock rest P') :
    Gives stock tokens P' (advance >>= next) := by
  intro supply
  match tokens, supply with
  | [], supply => exact absurd rfl supply.some
  | [t], supply => exact h (stock_head supply) [t] supply
  | t :: u :: rest, supply =>
    exact h (stock_head supply) (u :: rest)
      ⟨nofun, fun t ht => supply.all t (List.mem_cons_of_mem _ ht)⟩

theorem Gives.advance : Gives stock tokens stock advance := by
  rw [← bind_pure Reader.advance]
  exact .advance_bind fun ht _ => .pure ht

theorem Gives.fail {cause : ParseCause} {t : Token} (ht : stock t) :
    Gives stock tokens P (Reader.fail cause t) :=
  fun _ => .token cause ht

theorem Gives.unexpected : Gives stock tokens P (Reader.unexpected : Reader α) :=
  .current_bind fun ht => .fail ht

theorem Gives.tooDeep : Gives stock tokens P (Reader.tooDeep : Reader α) :=
  fun _ => .tooDeep

theorem Gives.expect : Gives stock tokens (fun t => t.kind = kind ∧ stock t) (expect kind) := by
  refine .check_bind ?_
  split
  · rename_i found
    rw [← bind_pure Reader.advance]
    exact .advance_bind fun ht _ => .pure ⟨by simpa using found, ht⟩
  · exact .unexpected

theorem Gives.accept_bind {next : Bool → Reader β}
    (h : ∀ b rest, (next b).Gives stock rest P') : Gives stock tokens P' (accept kind >>= next) := by
  refine Gives.bind (Q := fun _ => True) (.check_bind ?_) fun b rest _ => h b rest
  split
  · exact .advance_bind fun _ _ => .pure trivial
  · exact .pure trivial

theorem Gives.checkStep_bind {next : Bool → Reader β}
    (h : (next ((head tokens).kind == .increment || (head tokens).kind == .decrement)).Gives
      stock tokens P') : Gives stock tokens P' (checkStep >>= next) :=
  fun supply => h supply

theorem Gives.checkArrow : checkArrow.Gives stock tokens fun _ => True := by
  refine .current_bind fun _ => ?_
  split
  · exact fun supply => ⟨supply, trivial⟩
  · exact fun supply => ⟨supply, trivial⟩
  · exact .pure trivial

/-! ## Lists -/

theorem Gives.manyUntil {stop : Reader Bool} {item : Reader α}
    (hstop : ∀ tokens, stop.Gives stock tokens fun _ => True)
    (h : ∀ tokens, item.Gives stock tokens P) (n : Nat) :
    Gives stock tokens (fun xs => ∀ x ∈ xs, P x) (manyUntil stop item n) := by
  induction n generalizing tokens with
  | zero => exact .tooDeep
  | succ n ih =>
    refine (hstop tokens).bind fun b rest _ => ?_
    split
    · exact .pure (by simp)
    · exact (h rest).bind fun x _ hx => ih.bind fun xs _ hxs =>
        .pure (List.forall_mem_cons.mpr ⟨hx, hxs⟩)

theorem Gives.commaList {close : TokenKind} {item : Reader α}
    (h : ∀ tokens, item.Gives stock tokens P) (n : Nat) :
    Gives stock tokens (fun xs => ∀ x ∈ xs, P x) (commaList close item n) := by
  induction n generalizing tokens with
  | zero => exact .tooDeep
  | succ n ih =>
    refine .check_bind ?_
    split
    · exact .pure (by simp)
    refine (h tokens).bind fun x rest hx => .accept_bind fun b rest => ?_
    split
    · exact ih.bind fun xs _ hxs => .pure (List.forall_mem_cons.mpr ⟨hx, hxs⟩)
    · exact .pure (by simpa using hx)

/-- A list with commas between its items has at least one. -/
theorem Gives.commaSeparated {item : Reader α} (h : ∀ tokens, item.Gives stock tokens P) (n : Nat) :
    Gives stock tokens (fun xs => xs ≠ [] ∧ ∀ x ∈ xs, P x) (commaSeparated item n) := by
  induction n generalizing tokens with
  | zero => exact .tooDeep
  | succ n ih =>
    refine (h tokens).bind fun x rest hx => .accept_bind fun b rest => ?_
    split
    · exact ih.bind fun xs _ hxs => .pure ⟨by simp, List.forall_mem_cons.mpr ⟨hx, hxs.2⟩⟩
    · exact .pure ⟨by simp, by simpa using hx⟩

theorem Gives.separator {close : TokenKind} :
    Gives stock tokens (fun _ => True) (Reader.separator close) := by
  refine .check_bind ?_
  split
  · exact .pure trivial
  · exact Gives.expect.bind fun _ _ _ => .pure trivial

end Reader

/-! ## Rules and whole texts -/

/-- Rules **give** what has a property, which may be another for each. -/
def Rules.Give (stock : Token → Prop) (P : Rule → Node → Prop) (rules : Rules) : Prop :=
  ∀ rule, rule.KeepsTo stock → ∀ tokens, (rules rule).Gives stock tokens (P rule)

open Reader

variable {stock : Token → Prop} {P : Node → Prop} {source : Text} {line : Int} {tokens : List Token}

/-- A text of its own gives what expressions do, whatever the tokens at hand are. -/
theorem Reader.Gives.fragment {rules : Rules}
    (h : ∀ tokens, (readExpression rules).Gives stock tokens P)
    (keeps : (Rule.fragment source line).KeepsTo stock) :
    (readFragment rules source line).Gives stock tokens P := by
  obtain ⟨⟨t, ht, template⟩, yields⟩ := keeps
  intro supply
  unfold readFragment
  cases cut : tokenize source line with
  | error e => exact .template e ht template
  | ok inner =>
    have whole : (readWhole (readExpression rules)).Gives stock inner P :=
      (h inner).bind fun n rest hn => .check_bind <| by
        split
        · exact .pure hn
        · exact .unexpected
    have answer := whole ⟨ne_nil_of_tokenize cut, yields inner cut⟩
    dsimp only [StateT.run]
    cases hrun : readWhole (readExpression rules) inner with
    | error e =>
      rw [hrun] at answer
      exact answer
    | ok result =>
      rw [hrun] at answer
      exact ⟨supply, answer.2⟩

/-- **What the text of a program gives**, and where it fails if it can be cut into tokens. -/
theorem parseProgram_gives
    (h : ∀ depth tokens, (readProgram (readRule depth)).Gives stock tokens P)
    (yields : Token.Yields stock source 1) :
    match parseProgram source with
    | .ok program => P program
    | .error e => (∃ cause, tokenize source 1 = .error cause ∧ e = .lex cause) ∨ e.IsAt stock := by
  unfold parseProgram
  cases cut : tokenize source 1 with
  | error cause => exact .inl ⟨cause, rfl, rfl⟩
  | ok tokens =>
    have answer := h (depthFor tokens) tokens ⟨ne_nil_of_tokenize cut, yields tokens cut⟩
    dsimp only [parseTokens, StateT.run]
    cases hrun : readProgram (readRule (depthFor tokens)) tokens with
    | error e =>
      rw [hrun] at answer
      exact .inr answer
    | ok result =>
      rw [hrun] at answer
      exact answer.2

end Scriptlet
