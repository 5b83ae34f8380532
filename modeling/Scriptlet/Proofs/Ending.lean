import Scriptlet.Proofs.Reading

/-!
# Readers that come to an end

The rules of the grammar are read to a depth, and every list that they read has a bound, so a
reader might give up where there is still something to read. That it never does is shown
together with what depends on it, that greater depths and bounds change nothing. Two readers
*end alike* on some tokens if they do the same on them, without giving up, and what they leave
is what stands behind a certain place.

The place is what makes loops end. A reader that leaves the tokens behind its first one has
consumed something, and a list of such readers comes to the end of the text before it comes to
its bound. This needs the last token to be the end of the text, because a reader does not
move past it.
-/

namespace Scriptlet

/-- Tokens **are closed** if the last of them is the end of the text. -/
def Closed (tokens : List Token) : Prop :=
  ∃ t, tokens.getLast? = some t ∧ t.kind = .endOfText

/-- What closed tokens end with is closed, unless it is nothing. -/
theorem Closed.of_suffix {tokens rest : List Token} (h : Closed tokens) (within : rest <:+ tokens)
    (some : rest ≠ []) : Closed rest := by
  obtain ⟨t, last, kind⟩ := h
  obtain ⟨front, rfl⟩ := within
  rw [List.getLast?_append, List.getLast?_eq_some_getLast some, Option.some_or] at last
  exact ⟨t, (List.getLast?_eq_some_getLast some).trans last, kind⟩

namespace Reader

/-- The current one of closed tokens has others behind it, unless it is the end of the text. -/
theorem exists_of_closed {tokens : List Token} (h : Closed tokens)
    (more : (head tokens).kind ≠ .endOfText) :
    ∃ u rest, tokens = head tokens :: u :: rest := by
  obtain ⟨t, last, kind⟩ := h
  match tokens with
  | [] => cases last
  | [t'] =>
    obtain rfl : t' = t := Option.some.inj last
    exact absurd kind more
  | t' :: u :: rest => exact ⟨u, rest, rfl⟩

/-- A token of another kind is not the end of the text. -/
theorem more_of_found {t : Token} {kind : TokenKind} (found : (t.kind == kind) = true)
    (more : kind ≠ .endOfText) : t.kind ≠ .endOfText := by
  rwa [beq_iff_eq.mp found]

/-- Two readers **end alike** on some tokens: if these are closed, both readers do the same,
without giving up, and if they read something, what they leave is closed and within a limit. -/
def EndAlike (tokens limit : List Token) (reader reader' : Reader α) : Prop :=
  Closed tokens → reader tokens = reader' tokens ∧ reader tokens ≠ .error .tooDeep
    ∧ ∀ a rest, reader tokens = .ok (a, rest) → Closed rest ∧ rest <:+ limit

/-- A reader **ends** on some tokens if it ends like itself. -/
abbrev Ends (tokens limit : List Token) (reader : Reader α) : Prop :=
  EndAlike tokens limit reader reader

namespace EndAlike

variable {tokens limit limit' : List Token} {reader reader' : Reader α} {kind : TokenKind}

/-! ## The rules -/

theorem pure {a : α} : Ends tokens tokens (Pure.pure a : Reader α) := by
  refine fun closed => ⟨rfl, nofun, fun b rest hrun => ?_⟩
  cases hrun
  exact ⟨closed, List.suffix_rfl⟩

theorem throw {e : SyntaxError} (early : e ≠ .tooDeep) :
    Ends tokens limit (MonadExcept.throw e : Reader α) :=
  fun _ => ⟨rfl, fun same => early (Except.error.inj same), nofun⟩

theorem mono (h : EndAlike tokens limit reader reader') (wider : limit <:+ limit') :
    EndAlike tokens limit' reader reader' :=
  fun closed =>
    let ⟨same, early, leaves⟩ := h closed
    ⟨same, early, fun a rest hrun => (leaves a rest hrun).imp id (·.trans wider)⟩

/-- What consumes something leaves no more than there was. -/
theorem loose (h : EndAlike tokens tokens.tail reader reader') :
    EndAlike tokens tokens reader reader' :=
  h.mono (List.tail_suffix tokens)

/-- **One reader after another** ends within what the first one leaves. -/
theorem bind {next next' : α → Reader β} (first : EndAlike tokens limit reader reader')
    (second : ∀ a rest, rest <:+ limit → EndAlike rest rest (next a) (next' a)) :
    EndAlike tokens limit (reader >>= next) (reader' >>= next') := by
  intro closed
  obtain ⟨same, early, leaves⟩ := first closed
  have run (r : Reader α) (f : α → Reader β) :
      (r >>= f) tokens = r tokens >>= fun result => f result.1 result.2 := rfl
  rw [run, run, ← same]
  cases hfirst : reader tokens with
  | error e =>
    refine ⟨rfl, fun deep => early ?_, nofun⟩
    obtain rfl := Except.error.inj deep
    exact hfirst
  | ok result =>
    obtain ⟨a, between⟩ := result
    obtain ⟨hbetween, within⟩ := leaves a between hfirst
    obtain ⟨same', early', leaves'⟩ := second a between within hbetween
    exact ⟨same', early', fun b rest hrun => (leaves' b rest hrun).imp id (·.trans within)⟩

theorem map {f : α → β} (h : EndAlike tokens limit reader reader') :
    EndAlike tokens limit (f <$> reader) (f <$> reader') := by
  rw [map_eq_pure_bind, map_eq_pure_bind]
  exact h.bind fun _ _ _ => .pure

theorem ite {c : Prop} [Decidable c] {other other' : Reader α}
    (yes : c → EndAlike tokens limit reader reader')
    (no : ¬ c → EndAlike tokens limit other other') :
    EndAlike tokens limit (if c then reader else other) (if c then reader' else other') := by
  by_cases h : c
  · rw [if_pos h, if_pos h]
    exact yes h
  · rw [if_neg h, if_neg h]
    exact no h

/-! ## Looking at tokens and consuming them -/

theorem current_bind {next next' : Token → Reader β}
    (h : EndAlike tokens limit (next (head tokens)) (next' (head tokens))) :
    EndAlike tokens limit (current >>= next) (current >>= next') :=
  h

theorem check_bind {next next' : Bool → Reader β}
    (h : EndAlike tokens limit (next ((head tokens).kind == kind))
      (next' ((head tokens).kind == kind))) :
    EndAlike tokens limit (check kind >>= next) (check kind >>= next') :=
  h

theorem check : Ends tokens tokens (check kind) :=
  pure (a := (head tokens).kind == kind)

theorem room_bind {next next' : Nat → Reader β}
    (h : EndAlike tokens limit (next tokens.length) (next' tokens.length)) :
    EndAlike tokens limit (room >>= next) (room >>= next') :=
  h

/-- Consuming a token that is not the end of the text leaves what is behind it. -/
theorem advance_bind {next next' : Token → Reader β} (more : (head tokens).kind ≠ .endOfText)
    (h : ∀ rest, rest <:+ tokens.tail → tokens = head tokens :: rest →
      EndAlike rest rest (next (head tokens)) (next' (head tokens))) :
    EndAlike tokens tokens.tail (advance >>= next) (advance >>= next') := by
  intro closed
  obtain ⟨u, rest, whole⟩ := exists_of_closed closed more
  have within : u :: rest <:+ tokens.tail := by
    rw [whole]
    exact List.suffix_rfl
  have behind := h (u :: rest) within whole
    (closed.of_suffix ⟨[head tokens], whole.symm⟩ (List.cons_ne_nil u rest))
  rw [whole]
  exact behind

theorem advance (more : (head tokens).kind ≠ .endOfText) :
    Ends tokens tokens.tail Reader.advance := by
  rw [← bind_pure Reader.advance]
  exact advance_bind more fun _ _ _ => pure

theorem fail {cause : ParseCause} {t : Token} : Ends tokens limit (Reader.fail cause t : Reader α) :=
  throw nofun

theorem unexpected : Ends tokens limit (Reader.unexpected : Reader α) :=
  current_bind fail

/-- A token of a kind that is expected is consumed. -/
theorem expect (more : kind ≠ .endOfText) : Ends tokens tokens.tail (expect kind) :=
  check_bind (ite (fun found => advance (more_of_found found more)) fun _ => unexpected)

/-- A construct that **ends with a token** of an expected kind. -/
theorem expect_pure {f : Token → β} (more : kind ≠ .endOfText) :
    Ends tokens tokens (Reader.expect kind >>= fun t => Pure.pure (f t)) :=
  loose ((expect more).bind fun _ _ _ => pure)

/-- A token of a kind that is accepted is consumed, and otherwise nothing is. -/
theorem accept_bind {next next' : Bool → Reader β} (more : kind ≠ .endOfText)
    (within : tokens.tail <:+ limit)
    (yes : ∀ rest, rest <:+ tokens.tail → EndAlike rest rest (next true) (next' true))
    (no : EndAlike tokens limit (next false) (next' false)) :
    EndAlike tokens limit (accept kind >>= next) (accept kind >>= next') := by
  have run (f : Bool → Reader β) : (accept kind >>= f) tokens =
      (if (head tokens).kind == kind then Reader.advance >>= fun _ => f true else f false) tokens := by
    show ((if (head tokens).kind == kind then _ else _ : Reader Bool) >>= f) tokens = _
    split
    · rw [bind_assoc]
      rfl
    · rfl
  intro closed
  rw [run, run]
  refine ite (fun found => ?_) (fun _ => no) closed
  exact mono (advance_bind (more_of_found found more) fun rest behind _ => yes rest behind) within

/-! ## Lists -/

/-- Nothing is closed, so that nothing is left where a bound is used up. -/
theorem of_length_le_zero (bound : tokens.length ≤ 0) : EndAlike tokens limit reader reader' := by
  rintro ⟨t, last, -⟩
  rw [List.length_eq_zero_iff.mp (Nat.le_zero.mp bound)] at last
  cases last

theorem length_tail_le {n : Nat} (bound : tokens.length ≤ n + 1) {rest : List Token}
    (within : rest <:+ tokens.tail) : rest.length ≤ n := by
  have := within.length_le
  rw [List.length_tail] at this
  omega

/-- **A list ends before its bound** if each item consumes something. -/
theorem manyUntil {stop : Reader Bool} {item item' : Reader α} {n : Nat}
    (bound : tokens.length ≤ n) (hstop : ∀ rest, rest <:+ tokens → Ends rest rest stop)
    (h : ∀ rest, rest <:+ tokens → EndAlike rest rest.tail item item') :
    EndAlike tokens tokens (manyUntil stop item n) (Reader.manyUntil stop item' n) := by
  induction n generalizing tokens with
  | zero => exact of_length_le_zero bound
  | succ n ih =>
    refine (hstop tokens List.suffix_rfl).bind fun b rest within => ite (fun _ => pure) fun _ => ?_
    refine ((h rest within).bind fun x rest' within' => ?_).loose
    -- The item has consumed something, so that there is one token less for one item less.
    have below : rest' <:+ tokens := within'.trans ((List.tail_suffix rest).trans within)
    refine (ih ?_ (fun rest h => hstop rest (h.trans below)) fun rest hr =>
      h rest (hr.trans below)).bind fun _ _ _ => pure
    exact length_tail_le (Nat.le_trans within.length_le bound) within'

theorem commaList {close : TokenKind} {item item' : Reader α} {n : Nat} (bound : tokens.length ≤ n)
    (h : ∀ rest, rest <:+ tokens → EndAlike rest rest.tail item item') :
    EndAlike tokens tokens (commaList close item n) (Reader.commaList close item' n) := by
  induction n generalizing tokens with
  | zero => exact of_length_le_zero bound
  | succ n ih =>
    refine check_bind (ite (fun _ => pure) fun _ => ?_)
    refine ((h tokens List.suffix_rfl).bind fun x rest within => ?_).loose
    refine accept_bind (by decide) (List.tail_suffix rest) (fun rest' within' => ?_) pure
    have below : rest' <:+ tokens.tail := within'.trans ((List.tail_suffix rest).trans within)
    exact (ih (length_tail_le bound below) fun rest hr =>
      h rest (hr.trans (below.trans (List.tail_suffix tokens)))).bind fun _ _ _ => pure

theorem commaSeparated {item item' : Reader α} {n : Nat} (bound : tokens.length ≤ n)
    (h : ∀ rest, rest <:+ tokens → EndAlike rest rest.tail item item') :
    EndAlike tokens tokens (commaSeparated item n) (Reader.commaSeparated item' n) := by
  induction n generalizing tokens with
  | zero => exact of_length_le_zero bound
  | succ n ih =>
    refine ((h tokens List.suffix_rfl).bind fun x rest within => ?_).loose
    refine accept_bind (by decide) (List.tail_suffix rest) (fun rest' within' => ?_) pure
    have below : rest' <:+ tokens.tail := within'.trans ((List.tail_suffix rest).trans within)
    exact (ih (length_tail_le bound below) fun rest hr =>
      h rest (hr.trans (below.trans (List.tail_suffix tokens)))).bind fun _ _ _ => pure

theorem separator {close : TokenKind} : Ends tokens tokens (Reader.separator close) :=
  check_bind (ite (fun _ => pure) fun _ => expect_pure (by decide))

end EndAlike

end Reader

end Scriptlet
