import Mathlib.Algebra.Group.Nat.Defs
import Mathlib.Algebra.Group.Prod
import Mathlib.Algebra.GroupWithZero.Nat
import Scriptlet.Proofs.Balance

/-!
# Accounts of tokens

A reader consumes tokens and makes leaves. To see that the two come to the same, an *account*
is kept of one origin, that is, of one text at one place: how often it stands among the tokens
that are left, and how often among the leaves that have been made so far. What a reader may do
to the account is bounded from both sides. A token that carries a meaning of its own has to
become a leaf, any other token may become one or be dropped, and no leaf comes from anywhere
else. One construct makes two leaves of one name, the property that stands for itself; it is
counted along, and no more often than there are names.

As for the brackets there is a rule for each way to put readers together. The tokens are to be
*fair*: they come to an end, hold no template, and the origin is that of one of them at most.
-/

namespace Scriptlet

open Reader

/-! ## Origins -/

/-- Where a leaf may come from: a text and its place. -/
abbrev Origin := Text × Position

/-- The origin that a token is. -/
def Token.origin (t : Token) : Origin :=
  (t.text, t.position)

/-- Whether tokens of a kind carry a **meaning of their own**, which is not in the shape of the
tree: names, literals with a text, and operators. -/
def TokenKind.isPayload : TokenKind → Bool
  | identifier | number | string | regexp | operator | increment | decrement => true
  | _ => false

namespace Node

mutual

/-- The **leaves** of a tree, from left to right, as text and place. -/
def leaves : Node → List Origin
  | branch _ _ children => leavesOfAll children
  | leaf _ text position => [(text, position)]
  | stray _ => []

/-- The leaves of trees, one tree after the other. -/
def leavesOfAll : List Node → List Origin
  | [] => []
  | n :: rest => leaves n ++ leavesOfAll rest

end

/-- The origin of a name that a branch of the given sort and parts uses **for itself**: a
property whose key is the same name, at the same place, as the variable that is its value. -/
def shorthand? : Kind → List Node → Option Origin
  | .property, [.leaf .identifier key place, .branch .identifier _ [.leaf .identifier name place']] =>
    if key = name ∧ place = place' then some (key, place) else none
  | _, _ => none

mutual

/-- The names that properties of a tree use for themselves. -/
def shorthands : Node → List Origin
  | branch kind _ children => (shorthand? kind children).toList ++ shorthandsOfAll children
  | _ => []

/-- The names that properties of trees use for themselves. -/
def shorthandsOfAll : List Node → List Origin
  | [] => []
  | n :: rest => shorthands n ++ shorthandsOfAll rest

end

/-- What a tree has of an origin: so many leaves, and so many properties that use it for
themselves. -/
def tally (k : Origin) (n : Node) : Nat × Nat :=
  (n.leaves.count k, n.shorthands.count k)

/-- What trees have of an origin together. -/
def tallyAll (k : Origin) (nodes : List Node) : Nat × Nat :=
  ((leavesOfAll nodes).count k, (shorthandsOfAll nodes).count k)

variable {k : Origin}

@[simp] theorem tallyAll_nil : tallyAll k [] = 0 := rfl

@[simp] theorem tallyAll_cons (n : Node) (rest : List Node) :
    tallyAll k (n :: rest) = tally k n + tallyAll k rest := by
  unfold tallyAll tally
  rw [leavesOfAll, shorthandsOfAll, List.count_append, List.count_append]
  rfl

/-- A branch has what its parts have, and may be one that uses the origin for itself. -/
theorem tally_make (kind : Kind) (children : List Node) (start : Token) :
    (make kind children start).tally k
      = tallyAll k children + (0, (shorthand? kind children).toList.count k) := by
  unfold make tally tallyAll
  rw [leaves, shorthands, List.count_append, Nat.add_comm]
  rfl

/-- Only properties use a name for themselves. -/
@[simp] theorem tally_make_of_ne {kind : Kind} (h : kind ≠ .property) (children : List Node)
    (start : Token) : (make kind children start).tally k = tallyAll k children := by
  have none : shorthand? kind children = none := by
    unfold shorthand?
    split
    · exact absurd rfl h
    · rfl
  rw [tally_make, none]
  exact add_zero _

end Node

/-- What a token makes of an origin if it becomes a leaf. -/
def Token.tally (k : Origin) (t : Token) : Nat × Nat :=
  (if t.origin = k then 1 else 0, 0)

@[simp] theorem Node.tally_ofToken (k : Origin) (label : Label) (t : Token) :
    (Node.ofToken label t).tally k = t.tally k := by
  have leaves : (Node.ofToken label t).leaves = [t.origin] := rfl
  have shorthands : (Node.ofToken label t).shorthands = [] := rfl
  rw [Node.tally, leaves, shorthands, List.count_singleton, Token.tally]
  simp only [beq_iff_eq, List.count_nil]

/-! ## The account -/

section Account

variable {k : Origin} {tokens between rest : List Token} {held more given : Nat × Nat}

/-- How often an origin stands among tokens. -/
def standing (k : Origin) (tokens : List Token) : Nat :=
  tokens.countP (·.origin == k)

/-- How often it does so as a token with a meaning of its own. -/
def payloadStanding (k : Origin) (tokens : List Token) : Nat :=
  tokens.countP fun t => t.kind.isPayload && t.origin == k

/-- How often it does so as a name. -/
def namesStanding (k : Origin) (tokens : List Token) : Nat :=
  tokens.countP fun t => t.kind == .identifier && t.origin == k

/-- Tokens are **fair** to an origin. -/
structure Fair (k : Origin) (tokens : List Token) : Prop where
  /-- They come to an end. -/
  ends : HasEnd tokens
  /-- They hold no template. -/
  plain : ∀ t ∈ tokens, t.kind ≠ .template
  /-- The origin is that of one of them at most. -/
  once : standing k tokens ≤ 1

/-- **The account is kept** from some tokens, with so many leaves and shorthands made before, to
others, with so many made since. -/
structure Accounts (k : Origin) (tokens : List Token) (held : Nat × Nat) (rest : List Token)
    (given : Nat × Nat) : Prop where
  /-- The tokens are fair. -/
  before : Fair k tokens
  /-- What is left of them is fair. -/
  after : Fair k rest
  /-- It is what they end with. -/
  within : rest <:+ tokens
  /-- Whatever carries a meaning has become a leaf, and so has a shorthand once more. -/
  least : payloadStanding k tokens + held.1 + given.2 ≤ given.1 + payloadStanding k rest + held.2
  /-- All that has become a leaf are tokens, and once more shorthands. -/
  most : given.1 + held.2 + standing k rest ≤ held.1 + given.2 + standing k tokens
  /-- The shorthands are names. -/
  names : given.2 + namesStanding k rest ≤ held.2 + namesStanding k tokens

theorem Accounts.refl (fair : Fair k tokens) (held : Nat × Nat) :
    Accounts k tokens held tokens held :=
  ⟨fair, fair, List.suffix_rfl, by omega, by omega, by omega⟩

theorem Accounts.trans (first : Accounts k tokens held between more)
    (second : Accounts k between more rest given) : Accounts k tokens held rest given where
  before := first.before
  after := second.after
  within := second.within.trans first.within
  least := by have := first.least; have := second.least; omega
  most := by have := first.most; have := second.most; omega
  names := by have := first.names; have := second.names; omega

theorem Fair.head_mem (fair : Fair k tokens) : head tokens ∈ tokens := by
  obtain ⟨t, mem, -⟩ := fair.ends
  cases tokens with
  | nil => cases mem
  | cons u rest => exact List.mem_cons_self

/-- What uses an origin for itself has two leaves of it. -/
theorem Node.tallyAll_of_shorthand {kind : Kind} {children : List Node}
    (h : shorthand? kind children = some k) : tallyAll k children = (2, 0) := by
  unfold shorthand? at h
  split at h
  · split at h
    · rename_i same
      cases h
      obtain ⟨rfl, rfl⟩ := same
      simp [tallyAll, leavesOfAll, leaves, shorthandsOfAll, shorthands, shorthand?]
    · cases h
  · cases h

/-- A branch whose parts are accounted for **does not use the origin for itself**: the tokens of
its parts are different ones. -/
theorem Accounts.make {kind : Kind} {children : List Node}
    (account : Accounts k tokens held rest (held + Node.tallyAll k children)) (start : Token) :
    Accounts k tokens held rest (held + (Node.make kind children start).tally k) := by
  have noShorthand : (0, (Node.shorthand? kind children).toList.count k) = (0 : Nat × Nat) := by
    cases used : Node.shorthand? kind children with
    | none => rfl
    | some k' =>
      by_cases same : k' = k
      · subst same
        have most := account.most
        have once := account.before.once
        rw [Node.tallyAll_of_shorthand used, Prod.fst_add, Prod.snd_add] at most
        dsimp only at most
        omega
      · rw [Option.toList_some, List.count_singleton, if_neg (by simpa using same)]
        rfl
  rw [Node.tally_make, noShorthand, add_zero]
  exact account

/-- **A name may be used for itself**, at the price of the token that it is. -/
theorem Accounts.shorthand (name : (head tokens).kind = .identifier)
    (account : Accounts k tokens held rest (held + (head tokens).tally k)) :
    Accounts k tokens held rest (held + (Node.make .property [.ofToken .identifier (head tokens),
      .make .identifier [.ofToken .identifier (head tokens)] (head tokens)] (head tokens)).tally k) := by
  have mem := account.before.head_mem
  generalize head tokens = t at name account mem
  have used : Node.shorthand? .property [.ofToken .identifier t,
      .make .identifier [.ofToken .identifier t] t] = some t.origin := if_pos ⟨rfl, rfl⟩
  obtain ⟨least, most, names⟩ := And.intro account.least (And.intro account.most account.names)
  rw [Node.tally_make, used, Option.toList_some, List.count_singleton]
  simp only [Node.tallyAll_cons, Node.tallyAll_nil, Node.tally_ofToken, beq_iff_eq, ne_eq,
    reduceCtorEq, not_false_eq_true, Node.tally_make_of_ne, add_zero]
  unfold Token.tally at least most names ⊢
  by_cases same : t.origin = k
  · -- The token is the only one of its origin, so that nothing of it is left.
    have once := account.before.once
    have here : 0 < namesStanding k tokens :=
      List.countP_pos_iff.mpr ⟨t, mem, by simp [name, same]⟩
    have within : namesStanding k rest ≤ standing k rest :=
      List.countP_mono_left fun u _ hu => (Bool.and_eq_true_iff.mp hu).2
    simp only [same, if_true, Prod.fst_add, Prod.snd_add] at least most names
    refine ⟨account.before, account.after, account.within, ?_, ?_, ?_⟩ <;>
      simp only [same, if_true, Prod.fst_add, Prod.snd_add] <;> omega
  · simp only [same, if_false, Prod.fst_add, Prod.snd_add] at least most names
    refine ⟨account.before, account.after, account.within, ?_, ?_, ?_⟩ <;>
      simp only [same, if_false, Prod.fst_add, Prod.snd_add] <;> omega

/-- Fair tokens do not begin with a template. -/
theorem Fair.no_template (fair : Fair k tokens) : (head tokens).kind ≠ .template :=
  fair.plain _ fair.head_mem

end Account

namespace Reader

/-- If two readers succeed one after the other, each does so for itself. -/
theorem of_bind_eq_ok {reader : Reader α} {next : α → Reader β} {tokens rest : List Token} {b : β}
    (h : (reader >>= next) tokens = .ok (b, rest)) :
    ∃ a between, reader tokens = .ok (a, between) ∧ next a between = .ok (b, rest) := by
  obtain ⟨⟨a, between⟩, hfirst, hsecond⟩ := Except.of_bind_eq_ok h
  exact ⟨a, between, hfirst, hsecond⟩

/-- A reader **keeps the account** of some tokens, with so many leaves and shorthands made before.
What has been made when it is done depends on its result. -/
def Tallies (k : Origin) (tokens : List Token) (held : Nat × Nat) (made : α → Nat × Nat)
    (reader : Reader α) : Prop :=
  Fair k tokens → ∀ a rest, reader tokens = .ok (a, rest) → Accounts k tokens held rest (made a)

/-- A reader of a node **adds its leaves** to what has been made before. -/
abbrev Adds (k : Origin) (tokens : List Token) (held : Nat × Nat) (reader : Reader Node) : Prop :=
  reader.Tallies k tokens held fun n => held + n.tally k

/-- A reader of nodes adds the leaves of all of them. -/
abbrev AddsAll (k : Origin) (tokens : List Token) (held : Nat × Nat) (reader : Reader (List Node)) :
    Prop :=
  reader.Tallies k tokens held fun nodes => held + Node.tallyAll k nodes

namespace Tallies

variable {k : Origin} {tokens : List Token} {held : Nat × Nat} {reader : Reader α} {kind : TokenKind}
  {made : α → Nat × Nat} {made' : β → Nat × Nat}

theorem pure {a : α} (h : made a = held) : Tallies k tokens held made (Pure.pure a : Reader α) := by
  intro fair b rest hrun
  cases hrun
  rw [h]
  exact .refl fair held

theorem throw {e : SyntaxError} : Tallies k tokens held made (MonadExcept.throw e : Reader α) :=
  fun _ => nofun

/-- **One reader after another.** The second starts with what has been made by the first. -/
theorem bind {next : α → Reader β} (first : reader.Tallies k tokens held made)
    (second : ∀ a rest, (next a).Tallies k rest (made a) made') :
    Tallies k tokens held made' (reader >>= next) := by
  intro fair b rest hrun
  obtain ⟨a, between, hfirst, hsecond⟩ := of_bind_eq_ok hrun
  have account := first fair a between hfirst
  exact account.trans (second a between account.after b rest hsecond)

theorem ite {c : Prop} [Decidable c] {other : Reader α}
    (yes : c → reader.Tallies k tokens held made) (no : ¬ c → other.Tallies k tokens held made) :
    Tallies k tokens held made (if c then reader else other) := by
  split
  · exact yes ‹_›
  · exact no ‹_›

/-! ### Looking at tokens and consuming them -/

theorem current_bind {next : Token → Reader β}
    (h : (next (head tokens)).Tallies k tokens held made') :
    Tallies k tokens held made' (current >>= next) :=
  h

theorem check_bind {next : Bool → Reader β}
    (h : (next ((head tokens).kind == kind)).Tallies k tokens held made') :
    Tallies k tokens held made' (check kind >>= next) :=
  h

theorem check : Tallies k tokens held (fun _ => held) (check kind) :=
  pure (a := (head tokens).kind == kind) rfl

theorem checkStep_bind {next : Bool → Reader β}
    (h : (next ((head tokens).kind == .increment || (head tokens).kind == .decrement)).Tallies k
      tokens held made') : Tallies k tokens held made' (checkStep >>= next) :=
  h

theorem room_bind {next : Nat → Reader β} (h : ∀ n, (next n).Tallies k tokens held made') :
    Tallies k tokens held made' (room >>= next) :=
  h _

theorem no_template (template : (head tokens).kind = .template) : Tallies k tokens held made reader :=
  fun fair => absurd template fair.no_template

/-- What consuming a token leaves is fair, and stands for so much less. -/
theorem of_advance {t : Token} {rest : List Token} (fair : Fair k tokens)
    (more : (head tokens).kind ≠ .endOfText) (hrun : Reader.advance tokens = .ok (t, rest)) :
    t = head tokens ∧ tokens = t :: rest ∧ Fair k rest := by
  match tokens, fair, hrun with
  | [], fair, _ => exact absurd rfl more
  | [u], fair, hrun =>
    cases hrun
    exact absurd fair.ends (by simpa [HasEnd, head] using more)
  | u :: v :: rest, fair, hrun =>
    cases hrun
    refine ⟨rfl, rfl, (hasEnd_cons more).mp fair.ends, ?_, ?_⟩
    · exact fun t mem => fair.plain t (List.mem_cons_of_mem _ mem)
    · exact Nat.le_trans (List.Sublist.countP_le (List.sublist_cons_self _ _)) fair.once

/-- **A token becomes a leaf.** -/
theorem advance_bind {next : Token → Reader β} (more : (head tokens).kind ≠ .endOfText)
    (h : ∀ rest, (next (head tokens)).Tallies k rest (held + (head tokens).tally k) made') :
    Tallies k tokens held made' (Reader.advance >>= next) := by
  intro fair b rest hrun
  obtain ⟨t, between, hfirst, hsecond⟩ := of_bind_eq_ok hrun
  obtain ⟨rfl, same, fair'⟩ := of_advance fair more hfirst
  have account := h between fair' b rest hsecond
  generalize head tokens = t at same account
  subst same
  refine Accounts.trans ?_ account
  have leaf : (held + t.tally k).1 = held.1 + (if t.origin = k then 1 else 0) := rfl
  have short : (held + t.tally k).2 = held.2 := rfl
  refine ⟨fair, fair', List.suffix_cons _ _, ?_, ?_, ?_⟩
  · rw [leaf, short, payloadStanding, List.countP_cons, ← payloadStanding]
    simp only [Bool.and_eq_true, beq_iff_eq]
    split <;> split <;> first | omega | skip
    rename_i payload other
    exact absurd payload.2 other
  · rw [leaf, short, standing, standing, List.countP_cons]
    simp only [beq_iff_eq]
    omega
  · rw [short, namesStanding, namesStanding, List.countP_cons]
    omega

/-- **A token is dropped** that carries no meaning of its own. -/
theorem skip_bind {next : Token → Reader β} (silent : (head tokens).kind.isPayload = false)
    (more : (head tokens).kind ≠ .endOfText)
    (h : ∀ rest, (next (head tokens)).Tallies k rest held made') :
    Tallies k tokens held made' (Reader.advance >>= next) := by
  intro fair b rest hrun
  obtain ⟨t, between, hfirst, hsecond⟩ := of_bind_eq_ok hrun
  obtain ⟨rfl, same, fair'⟩ := of_advance fair more hfirst
  have account := h between fair' b rest hsecond
  generalize head tokens = t at same account silent
  subst same
  refine Accounts.trans ⟨fair, fair', List.suffix_cons _ _, ?_, ?_, ?_⟩ account
  · rw [payloadStanding, payloadStanding, List.countP_cons, silent, Bool.false_and,
      if_neg Bool.false_ne_true]
    omega
  · rw [standing, standing, List.countP_cons]
    omega
  · rw [namesStanding, namesStanding, List.countP_cons]
    omega

theorem fail {cause : ParseCause} {t : Token} :
    Tallies k tokens held made (Reader.fail cause t : Reader α) :=
  throw

theorem unexpected : Tallies k tokens held made (Reader.unexpected : Reader α) :=
  current_bind fail

theorem tooDeep : Tallies k tokens held made (Reader.tooDeep : Reader α) :=
  throw

/-- A token of some kind that is to become a leaf. -/
theorem expect_bind {next : Token → Reader β} (more : kind ≠ .endOfText)
    (h : ∀ t rest, (next t).Tallies k rest (held + t.tally k) made') :
    Tallies k tokens held made' (Reader.expect kind >>= next) := by
  unfold Reader.expect
  rw [bind_assoc]
  refine check_bind ?_
  split
  · rename_i found
    exact advance_bind (more_of_found found more) fun rest => h _ rest
  · exact fun _ => nofun

/-- A token of some kind that is dropped. -/
theorem expect_skip_bind {next : Token → Reader β} (silent : kind.isPayload = false)
    (more : kind ≠ .endOfText) (h : ∀ t rest, (next t).Tallies k rest held made') :
    Tallies k tokens held made' (Reader.expect kind >>= next) := by
  unfold Reader.expect
  rw [bind_assoc]
  refine check_bind ?_
  split
  · rename_i found
    rw [← beq_iff_eq.mp found] at silent
    exact skip_bind silent (more_of_found found more) fun rest => h _ rest
  · exact fun _ => nofun

/-- A construct that **ends with a token** that is dropped. -/
theorem expect_skip_pure {f : Token → β} (silent : kind.isPayload = false)
    (more : kind ≠ .endOfText) (h : ∀ t, made' (f t) = held) :
    Tallies k tokens held made' (Reader.expect kind >>= fun t => Pure.pure (f t)) :=
  expect_skip_bind silent more fun t _ => pure (h t)

/-- A token that is dropped where it stands, and with that a choice. -/
theorem accept_cases_bind {next : Bool → Reader β} (silent : kind.isPayload = false)
    (more : kind ≠ .endOfText) (yes : ∀ rest, (next true).Tallies k rest held made')
    (no : (next false).Tallies k tokens held made') :
    Tallies k tokens held made' (Reader.accept kind >>= next) := by
  unfold Tallies
  rw [Shifts.run_accept_bind]
  refine ite (fun found => ?_) fun _ => no
  rw [← beq_iff_eq.mp found] at silent
  exact skip_bind silent (more_of_found found more) yes

theorem accept_bind {next : Bool → Reader β} (silent : kind.isPayload = false)
    (more : kind ≠ .endOfText) (h : ∀ b rest, (next b).Tallies k rest held made') :
    Tallies k tokens held made' (Reader.accept kind >>= next) :=
  accept_cases_bind silent more (h true) (h false tokens)

theorem accept (silent : kind.isPayload = false) (more : kind ≠ .endOfText) :
    Tallies k tokens held (fun _ => held) (Reader.accept kind) := by
  rw [← bind_pure (Reader.accept kind)]
  exact accept_bind silent more fun _ _ => pure rfl

/-! ### Lists -/

/-- A node in front of others. -/
theorem cons {n : Node} {others : Reader (List Node)}
    (h : others.AddsAll k tokens (held + n.tally k)) :
    Tallies k tokens (held + n.tally k) (fun nodes => held + Node.tallyAll k nodes)
      (others >>= fun nodes => Pure.pure (n :: nodes)) :=
  h.bind fun nodes _ => pure (by rw [Node.tallyAll_cons, add_assoc])

theorem single {n : Node} : Tallies k tokens (held + n.tally k)
    (fun nodes => held + Node.tallyAll k nodes) (Pure.pure [n] : Reader (List Node)) :=
  pure (by rw [Node.tallyAll_cons, Node.tallyAll_nil, add_zero])

theorem none : AddsAll k tokens held (Pure.pure []) :=
  pure (add_zero held)

theorem manyUntil {stop : Reader Bool} {item : Reader Node} {n : Nat}
    (hstop : ∀ tokens held, stop.Tallies k tokens held fun _ => held)
    (h : ∀ tokens held, item.Adds k tokens held) : AddsAll k tokens held (manyUntil stop item n) := by
  induction n generalizing tokens held with
  | zero => exact tooDeep
  | succ n ih =>
    exact (hstop tokens held).bind fun _ rest => ite (fun _ => none) fun _ =>
      (h rest held).bind fun _ _ => cons ih

theorem commaList {close : TokenKind} {item : Reader Node} {n : Nat}
    (h : ∀ tokens held, item.Adds k tokens held) :
    AddsAll k tokens held (commaList close item n) := by
  induction n generalizing tokens held with
  | zero => exact tooDeep
  | succ n ih =>
    refine check_bind (ite (fun _ => none) fun _ => (h tokens held).bind fun _ _ => ?_)
    exact accept_bind rfl nofun fun _ _ => ite (fun _ => cons ih) fun _ => single

theorem commaSeparated {item : Reader Node} {n : Nat}
    (h : ∀ tokens held, item.Adds k tokens held) :
    AddsAll k tokens held (commaSeparated item n) := by
  induction n generalizing tokens held with
  | zero => exact tooDeep
  | succ n ih =>
    refine (h tokens held).bind fun _ _ => ?_
    exact accept_bind rfl nofun fun _ _ => ite (fun _ => cons ih) fun _ => single

theorem separator {close : TokenKind} :
    Tallies k tokens held (fun _ => held) (Reader.separator close) :=
  check_bind (ite (fun _ => pure rfl) fun _ => expect_skip_bind rfl nofun fun _ _ => pure rfl)

end Tallies

end Reader

end Scriptlet
