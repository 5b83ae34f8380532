import Scriptlet.Proofs.Balance

/-!
# What readers take

A reader takes tokens from the front and leaves the rest. What can be said of the tokens that it
takes and of what it makes of them is put together from what its parts take: the laws for putting
readers together keep the tokens apart that have been taken already, and ask of those still to
come that they complete them. None of them is the end of the text, where the tokens come to one.
-/

namespace Scriptlet

open Reader

/-- Tokens that come to an end do so behind those that are not it. -/
theorem HasEnd.of_append {taken rest : List Token} (ends : HasEnd (taken ++ rest))
    (proper : ∀ t ∈ taken, t.kind ≠ .endOfText) : HasEnd rest := by
  obtain ⟨t, mem, ended⟩ := ends
  exact ⟨t, (List.mem_append.mp mem).resolve_left fun mem => proper t mem ended, ended⟩

namespace Reader

/-- A reader **takes**, unless it fails, tokens from the front of which, together with what it
gives, a statement holds. -/
def Takes (tokens : List Token) (Q : List Token → α → Prop) (reader : Reader α) : Prop :=
  HasEnd tokens → ∀ a rest, reader tokens = .ok (a, rest) →
    ∃ taken, tokens = taken ++ rest ∧ (∀ t ∈ taken, t.kind ≠ .endOfText) ∧ Q taken a

namespace Takes

variable {tokens : List Token} {reader : Reader α} {kind : TokenKind}
  {P Q : List Token → α → Prop} {P' : List Token → β → Prop}

theorem pure {a : α} (h : Q [] a) : Takes tokens Q (Pure.pure a : Reader α) := by
  intro _ b rest hrun
  cases hrun
  exact ⟨[], rfl, List.forall_mem_nil _, h⟩

theorem throw {e : SyntaxError} : Takes tokens Q (MonadExcept.throw e : Reader α) :=
  fun _ => nofun

/-- **One reader after another.** What the second takes follows on what the first has taken. -/
theorem bind {next : α → Reader β} (first : reader.Takes tokens P)
    (second : ∀ taken a rest, tokens = taken ++ rest → P taken a →
      (next a).Takes rest fun more => P' (taken ++ more)) :
    Takes tokens P' (reader >>= next) := by
  intro ends b rest hrun
  obtain ⟨⟨a, between⟩, hfirst, hsecond⟩ := Except.of_bind_eq_ok hrun
  obtain ⟨taken, rfl, proper, hP⟩ := first ends a between hfirst
  obtain ⟨more, rfl, proper', hQ⟩ :=
    second taken a between rfl hP (ends.of_append proper) b rest hsecond
  exact ⟨taken ++ more, (List.append_assoc ..).symm, List.forall_mem_append.mpr ⟨proper, proper'⟩,
    hQ⟩

theorem mono (h : reader.Takes tokens P) (weaker : ∀ taken a, P taken a → Q taken a) :
    reader.Takes tokens Q := by
  intro ends a rest hrun
  obtain ⟨taken, split, proper, hP⟩ := h ends a rest hrun
  exact ⟨taken, split, proper, weaker taken a hP⟩

theorem map {f : α → β} (h : reader.Takes tokens fun taken a => P' taken (f a)) :
    Takes tokens P' (f <$> reader) := by
  rw [map_eq_pure_bind]
  exact h.bind fun taken a _ _ hP => .pure (by rwa [List.append_nil])

theorem ite {c : Prop} [Decidable c] {other : Reader α} (yes : c → reader.Takes tokens Q)
    (no : ¬ c → other.Takes tokens Q) : Takes tokens Q (if c then reader else other) := by
  split
  · exact yes ‹_›
  · exact no ‹_›

/-! ### Looking at tokens and taking them -/

theorem current_bind {next : Token → Reader β} (h : (next (head tokens)).Takes tokens P') :
    Takes tokens P' (current >>= next) :=
  h

theorem check_bind {next : Bool → Reader β}
    (h : (next ((head tokens).kind == kind)).Takes tokens P') :
    Takes tokens P' (check kind >>= next) :=
  h

theorem checkStep_bind {next : Bool → Reader β}
    (h : (next ((head tokens).kind == .increment || (head tokens).kind == .decrement)).Takes
      tokens P') :
    Takes tokens P' (checkStep >>= next) :=
  h

theorem room_bind {next : Nat → Reader β} (h : ∀ n, (next n).Takes tokens P') :
    Takes tokens P' (room >>= next) :=
  h _

theorem fail {cause : ParseCause} {t : Token} : Takes tokens Q (Reader.fail cause t : Reader α) :=
  throw

theorem unexpected : Takes tokens Q (Reader.unexpected : Reader α) :=
  current_bind fail

theorem tooDeep : Takes tokens Q (Reader.tooDeep : Reader α) :=
  throw

/-- A token that is not the end of the text is taken. -/
theorem advance (more : (head tokens).kind ≠ .endOfText) :
    Takes tokens (fun taken t => taken = [t] ∧ t = head tokens) Reader.advance := by
  intro ends a rest hrun
  match tokens, hrun with
  | [], _ => exact absurd rfl more
  | [t], _ =>
    obtain ⟨_, mem, ended⟩ := ends
    obtain rfl := List.mem_singleton.mp mem
    exact absurd ended more
  | t :: u :: later, hrun =>
    cases hrun
    exact ⟨[a], rfl, List.forall_mem_singleton.mpr more, rfl, rfl⟩

theorem advance_bind {next : Token → Reader β} (more : (head tokens).kind ≠ .endOfText)
    (h : ∀ t rest, tokens = t :: rest → t = head tokens →
      (next t).Takes rest fun others => P' (t :: others)) :
    Takes tokens P' (Reader.advance >>= next) := by
  refine (advance more).bind ?_
  rintro _ t rest split ⟨rfl, same⟩
  exact h t rest split same

theorem expect (more : kind ≠ .endOfText) :
    Takes tokens (fun taken t => taken = [t] ∧ t.kind = kind) (Reader.expect kind) := by
  refine check_bind (ite (fun found => ?_) fun _ => unexpected)
  refine (advance (more_of_found found more)).mono ?_
  rintro _ t ⟨rfl, rfl⟩
  exact ⟨rfl, beq_iff_eq.mp found⟩

theorem expect_bind {next : Token → Reader β} (more : kind ≠ .endOfText)
    (h : ∀ t rest, tokens = t :: rest → t.kind = kind →
      (next t).Takes rest fun others => P' (t :: others)) :
    Takes tokens P' (Reader.expect kind >>= next) := by
  refine (expect more).bind ?_
  rintro _ t rest split ⟨rfl, isKind⟩
  exact h t rest split isKind

/-- A token that may be missing is taken if it is there. -/
theorem accept_bind {next : Bool → Reader β} (more : kind ≠ .endOfText)
    (yes : ∀ t rest, t = head tokens → t.kind = kind →
      (next true).Takes rest fun others => P' (t :: others))
    (no : (head tokens).kind ≠ kind → (next false).Takes tokens P') :
    Takes tokens P' (accept kind >>= next) := by
  unfold Takes
  rw [Shifts.run_accept_bind]
  refine ite (fun found => ?_) fun missing => no fun same => missing (beq_iff_eq.mpr same)
  exact advance_bind (more_of_found found more) fun t rest _ same =>
    yes t rest same (by rw [same, beq_iff_eq.mp found])

/-- Two statements hold together of what a reader takes. -/
theorem and (h : reader.Takes tokens P) (h' : reader.Takes tokens Q) :
    reader.Takes tokens fun taken a => P taken a ∧ Q taken a := by
  intro ends a rest hrun
  obtain ⟨taken, split, proper, hP⟩ := h ends a rest hrun
  obtain ⟨taken', split', -, hQ⟩ := h' ends a rest hrun
  obtain rfl := List.append_cancel_right (split.symm.trans split')
  exact ⟨taken, split, proper, hP, hQ⟩

/-- Looking at the current token takes nothing. -/
theorem check : Takes tokens (fun taken _ => taken = []) (check kind) :=
  pure rfl

/-! ### Lists -/

section Lists

variable {item : Reader α} {R : List Token → List α → Prop} {n : Nat}

theorem manyUntil {stop : Reader Bool}
    (hstop : ∀ tokens, stop.Takes tokens fun taken _ => taken = [])
    (h : ∀ tokens, item.Takes tokens Q) (nil : R [] [])
    (cons : ∀ taken a more others, Q taken a → R more others → R (taken ++ more) (a :: others)) :
    Takes tokens R (manyUntil stop item n) := by
  induction n generalizing tokens with
  | zero => exact tooDeep
  | succ n ih =>
    refine (hstop tokens).bind ?_
    rintro _ stops rest - rfl
    refine ite (fun _ => pure nil) fun _ => (h rest).bind fun taken a rest _ hQ => ?_
    exact ih.bind fun more others _ _ hR => pure (by simpa using cons taken a more others hQ hR)

theorem commaList {close : TokenKind} (h : ∀ tokens, item.Takes tokens Q) (nil : R [] [])
    (single : ∀ taken a, Q taken a → R taken [a])
    (cons : ∀ taken a t more others, Q taken a → t.kind = .comma → R more others →
      R (taken ++ t :: more) (a :: others)) :
    Takes tokens R (commaList close item n) := by
  induction n generalizing tokens with
  | zero => exact tooDeep
  | succ n ih =>
    refine check_bind (ite (fun _ => pure nil) fun _ => (h tokens).bind fun taken a rest _ hQ => ?_)
    refine accept_bind (by decide) (fun t rest _ isComma => ite (fun _ => ?_) nofun)
      fun _ => ite nofun fun _ => pure (by simpa using single taken a hQ)
    exact ih.bind fun more others _ _ hR =>
      pure (by simpa using cons taken a t more others hQ isComma hR)

theorem commaSeparated (h : ∀ tokens, item.Takes tokens Q)
    (single : ∀ taken a, Q taken a → R taken [a])
    (cons : ∀ taken a t more others, Q taken a → t.kind = .comma → R more others →
      R (taken ++ t :: more) (a :: others)) :
    Takes tokens R (commaSeparated item n) := by
  induction n generalizing tokens with
  | zero => exact tooDeep
  | succ n ih =>
    refine (h tokens).bind fun taken a rest _ hQ => ?_
    refine accept_bind (by decide) (fun t rest _ isComma => ite (fun _ => ?_) nofun)
      fun _ => ite nofun fun _ => pure (by simpa using single taken a hQ)
    exact ih.bind fun more others _ _ hR =>
      pure (by simpa using cons taken a t more others hQ isComma hR)

/-- A separator is a comma or nothing. -/
theorem separator {close : TokenKind} :
    Takes tokens (fun taken _ => ∀ t ∈ taken, t.kind = .comma) (Reader.separator close) :=
  check_bind (ite (fun _ => pure (List.forall_mem_nil _)) fun _ =>
    expect_bind (by decide) fun _ _ _ isComma => pure (List.forall_mem_singleton.mpr isComma))

end Lists

end Takes

end Reader

end Scriptlet
