import Mathlib.Data.List.Forall2
import Scriptlet.Proofs.Printing
import Scriptlet.Tree.Grammar

/-!
# Reading what is printed

A reader *reads* some tokens if it succeeds on all tokens that are the same regardless of
their places, leaves a given rest of them and gives what has a property. What a reader
gives from any tokens was said before; this is about tokens that are known, and about
success. Again there is a rule for each way to put readers together, and the tokens are
followed through a reader as it is written.
-/

namespace Scriptlet

/-- Trees **like** others, one by one. -/
def Node.AllAlike (ns ms : List Node) : Prop :=
  Node.unplacedAll ns = Node.unplacedAll ms

theorem Node.Alike.isTarget {n m : Node} (h : n.Alike m) : n.isTarget = m.isTarget := by
  have kept (k : Node) : k.unplaced.isTarget = k.isTarget := by cases k <;> rfl
  rw [← kept n, ← kept m, h]

theorem Node.AllAlike.cons {n m : Node} {ns ms : List Node} (h : n.Alike m)
    (hs : Node.AllAlike ns ms) : Node.AllAlike (n :: ns) (m :: ms) := by
  show n.unplaced :: unplacedAll ns = m.unplaced :: unplacedAll ms
  rw [h, hs]

theorem Node.allAlike_of_forall₂ {ns ms : List Node} (h : List.Forall₂ Node.Alike ns ms) :
    Node.AllAlike ns ms := by
  induction h with
  | nil => rfl
  | cons first _ ih => exact .cons first ih

/-- A branch that is made of trees like the children of a branch is like it. -/
theorem Node.alike_make {kind : Kind} {position : Option Position} {children made : List Node}
    {start : Token} (h : Node.AllAlike children made) :
    (Node.branch kind position children).Alike (Node.make kind made start) :=
  congrArg (Node.branch kind none) h

/-- A leaf that is made of the token of a leaf is like it. -/
theorem Node.alike_ofToken {label : Label} {kind : TokenKind} {text : Text} {position : Position}
    {t : Token} (h : t.unplaced = .plain kind text) :
    (Node.leaf label text position).Alike (Node.ofToken label t) := by
  have : t.text = text := congrArg Token.text h
  subst this
  rfl

namespace Reader

/-- A reader **reads** tokens, wherever they stand, up to a rest of them, and gives what
has a property. -/
def Reads (reader : Reader α) (tokens : List Token) (P : α → Prop) (rest : List Token) : Prop :=
  ∀ actual : List Token, actual.map Token.unplaced = tokens →
    ∃ a left, reader actual = .ok (a, left) ∧ P a ∧ left.map Token.unplaced = rest

variable {tokens middle rest : List Token} {t : Token} {P Q : α → Prop} {P' : β → Prop}
  {kind : TokenKind}

/-! ## The rules -/

theorem Reads.pure {a : α} (h : P a) : Reads (Pure.pure a) tokens P tokens :=
  fun actual same => ⟨a, actual, rfl, h, same⟩

/-- **One reader after another.** -/
theorem Reads.bind {reader : Reader α} {next : α → Reader β}
    (first : reader.Reads tokens Q middle) (second : ∀ a, Q a → (next a).Reads middle P' rest) :
    Reads (reader >>= next) tokens P' rest := by
  intro actual same
  obtain ⟨a, left, hfirst, ha, hleft⟩ := first actual same
  obtain ⟨b, left', hsecond, hb, hleft'⟩ := second a ha left hleft
  refine ⟨b, left', ?_, hb, hleft'⟩
  show (reader actual >>= fun given => next given.1 given.2) = _
  rw [hfirst]
  exact hsecond

theorem Reads.mono {reader : Reader α} (h : reader.Reads tokens Q rest) (hp : ∀ a, Q a → P a) :
    reader.Reads tokens P rest := by
  intro actual same
  obtain ⟨a, left, hrun, ha, hleft⟩ := h actual same
  exact ⟨a, left, hrun, hp a ha, hleft⟩

theorem Reads.map {reader : Reader α} {f : α → β} (h : reader.Reads tokens Q rest)
    (hf : ∀ a, Q a → P' (f a)) : Reads (f <$> reader) tokens P' rest := by
  rw [map_eq_pure_bind]
  exact h.bind fun a ha => .pure (hf a ha)

/-- There is a token to look at. -/
theorem Reads.of_cons {reader : Reader α}
    (h : ∀ (actual : Token) (more : List Token), actual.unplaced = t →
      more.map Token.unplaced = tokens →
      ∃ a left, reader (actual :: more) = .ok (a, left) ∧ P a ∧ left.map Token.unplaced = rest) :
    Reads reader (t :: tokens) P rest := by
  intro actual same
  cases actual with
  | nil => cases same
  | cons first more => exact h first more (List.cons.inj same).1 (List.cons.inj same).2

/-! ## Looking at tokens and consuming them -/

theorem Reads.current_bind {next : Token → Reader β}
    (h : ∀ actual : Token, actual.unplaced = t → (next actual).Reads (t :: tokens) P' rest) :
    Reads (current >>= next) (t :: tokens) P' rest :=
  .of_cons fun actual more first same =>
    h actual first (actual :: more) (by rw [List.map_cons, first, same])

/-- A place to start from, whichever it is. -/
theorem Reads.start_bind {next : Token → Reader β}
    (h : ∀ actual : Token, (next actual).Reads tokens P' rest) :
    Reads (current >>= next) tokens P' rest :=
  fun actual same => h (actual.headD Token.missing) actual same

theorem Reads.check_bind {next : Bool → Reader β}
    (h : (next (t.kind == kind)).Reads (t :: tokens) P' rest) :
    Reads (check kind >>= next) (t :: tokens) P' rest := by
  refine .of_cons fun actual more first same => ?_
  subst first
  exact h (actual :: more) (by rw [List.map_cons, same])

theorem Reads.get_bind {next : List Token → Reader β}
    (h : ∀ actual : List Token, actual.map Token.unplaced = tokens →
      (next actual).Reads tokens P' rest) : Reads (get >>= next) tokens P' rest :=
  fun actual same => h actual same actual same

/-- Looking one token ahead. -/
theorem Reads.peek_bind {u : Token} {next : Token → Reader β}
    (h : ∀ actual : Token, actual.unplaced = u → (next actual).Reads (t :: u :: tokens) P' rest) :
    Reads (peek 1 >>= next) (t :: u :: tokens) P' rest := by
  refine .of_cons fun actual left first same => ?_
  cases left with
  | nil => cases same
  | cons second left =>
    exact h second (List.cons.inj same).1 (actual :: second :: left) (by rw [List.map_cons, first, same])

theorem Reads.room_bind {next : Nat → Reader β} (h : (next tokens.length).Reads tokens P' rest) :
    Reads (room >>= next) tokens P' rest := by
  intro actual same
  have length : actual.length = tokens.length := by rw [← same, List.length_map]
  show ∃ a left, next actual.length actual = _ ∧ _
  rw [length]
  exact h actual same

/-- Consuming a token that is not the last. -/
theorem Reads.advance_bind {next : Token → Reader β}
    (more : tokens ≠ [])
    (h : ∀ actual : Token, actual.unplaced = t → (next actual).Reads tokens P' rest) :
    Reads (advance >>= next) (t :: tokens) P' rest := by
  refine .of_cons fun actual left first same => ?_
  cases left with
  | nil => exact absurd same.symm more
  | cons second left => exact h actual first (second :: left) same

theorem Reads.expect_bind {next : Token → Reader β} (hk : t.kind = kind)
    (more : tokens ≠ [])
    (h : ∀ actual : Token, actual.unplaced = t → (next actual).Reads tokens P' rest) :
    Reads (expect kind >>= next) (t :: tokens) P' rest := by
  have advances : (expect kind).Reads (t :: tokens) (·.unplaced = t) tokens := by
    refine .check_bind ?_
    rw [if_pos (by simpa using hk), ← bind_pure advance]
    exact .advance_bind more fun actual first => .pure first
  exact advances.bind h

/-! ## Choices -/

variable {yes no : Reader β}

theorem Reads.check_then (hk : t.kind = kind) (h : yes.Reads (t :: tokens) P' rest) :
    Reads (check kind >>= fun found => if found = true then yes else no)
      (t :: tokens) P' rest := by
  refine .check_bind ?_
  rw [if_pos (by simpa using hk)]
  exact h

theorem Reads.check_else (hk : t.kind ≠ kind) (h : no.Reads (t :: tokens) P' rest) :
    Reads (check kind >>= fun found => if found = true then yes else no)
      (t :: tokens) P' rest := by
  refine .check_bind ?_
  rw [if_neg (by simpa using hk)]
  exact h

theorem Reads.accept_then (hk : t.kind = kind) (more : tokens ≠ [])
    (h : yes.Reads tokens P' rest) :
    Reads (accept kind >>= fun found => if found = true then yes else no)
      (t :: tokens) P' rest := by
  refine Reads.bind (Q := (· = true)) (.check_then hk (.advance_bind more fun _ _ => .pure rfl)) ?_
  rintro _ rfl
  exact h

theorem Reads.accept_else (hk : t.kind ≠ kind) (h : no.Reads (t :: tokens) P' rest) :
    Reads (accept kind >>= fun found => if found = true then yes else no)
      (t :: tokens) P' rest := by
  refine Reads.bind (Q := (· = false)) (.check_else hk (.pure rfl)) ?_
  rintro _ rfl
  exact h

/-! ## Lists -/

section Lists

variable {item : Reader Node} {ns : List Node} {starts : Token → Prop} {close : TokenKind}

/-- After some items there is the start of the next one or the token that ends them. -/
theorem exists_next (opens : ∀ m ∈ ns, ∃ u more, m.print = u :: more ∧ starts u) :
    ∃ u more, (Node.printEach ns).flatten ++ t :: rest = u :: more ∧ (starts u ∨ u = t) := by
  cases ns with
  | nil => exact ⟨t, rest, rfl, .inr rfl⟩
  | cons m ns =>
    obtain ⟨u, more, printed, hu⟩ := opens m List.mem_cons_self
    exact ⟨u, _, by simp only [Node.printEach, printed]; rfl, .inl hu⟩

/-- **Items one after another**, up to a token at which the reader stops. What starts an
item does not stop the reader, and it ends the item before it. -/
theorem Reads.manyUntil {stop : Reader Bool} {n : Nat} (room : ns.length < n)
    (ends : stop.Reads (t :: rest) (· = true) (t :: rest))
    (goesOn : ∀ u more, starts u → stop.Reads (u :: more) (· = false) (u :: more))
    (opens : ∀ m ∈ ns, ∃ u more, m.print = u :: more ∧ starts u)
    (items : ∀ m ∈ ns, ∀ u more, starts u ∨ u = t →
      item.Reads (m.print ++ u :: more) m.Alike (u :: more)) :
    (Reader.manyUntil stop item n).Reads ((Node.printEach ns).flatten ++ t :: rest)
      (Node.AllAlike ns) (t :: rest) := by
  induction n generalizing ns with
  | zero => exact absurd room (Nat.not_lt_zero _)
  | succ n ih =>
    cases ns with
    | nil =>
      refine ends.bind ?_
      rintro _ rfl
      exact .pure rfl
    | cons m ns =>
      have opens' : ∀ m ∈ ns, ∃ u more, m.print = u :: more ∧ starts u := fun m hm =>
        opens m (List.mem_cons_of_mem _ hm)
      obtain ⟨u, more, printed, hu⟩ := opens m List.mem_cons_self
      obtain ⟨v, following, same, hv⟩ : ∃ u more,
          (Node.printEach ns).flatten ++ t :: rest = u :: more ∧ (starts u ∨ u = t) :=
        exists_next opens'
      have first := items m List.mem_cons_self v following hv
      have others := ih (Nat.lt_of_succ_lt_succ room) opens' fun m hm =>
        items m (List.mem_cons_of_mem _ hm)
      simp only [Node.printEach, List.flatten_cons, List.append_assoc]
      rw [same] at others ⊢
      rw [printed] at first ⊢
      refine (goesOn u _ hu).bind ?_
      rintro _ rfl
      exact first.bind fun x hx => others.bind fun xs hxs => .pure (.cons hx hxs)

/-- **A list with commas between its items**, up to its closing token. -/
theorem Reads.commaList {n : Nat} (room : ns.length < n) (ht : t.kind = close)
    (noComma : close ≠ .comma)
    (opens : ∀ m ∈ ns, ∃ u more, m.print = u :: more ∧ u.kind ≠ close)
    (items : ∀ m ∈ ns, ∀ u more, u.kind = .comma ∨ u.kind = close →
      item.Reads (m.print ++ u :: more) m.Alike (u :: more)) :
    (Reader.commaList close item n).Reads
      (separated TokenKind.comma.mark (Node.printEach ns) ++ t :: rest)
      (Node.AllAlike ns) (t :: rest) := by
  induction n generalizing ns with
  | zero => exact absurd room (Nat.not_lt_zero _)
  | succ n ih =>
    match ns with
    | [] => exact .check_then ht (.pure rfl)
    | [m] =>
      obtain ⟨u, more, printed, hu⟩ := opens m List.mem_cons_self
      have first := items m List.mem_cons_self t rest (.inr ht)
      simp only [Node.printEach, separated_singleton]
      rw [printed] at first ⊢
      exact .check_else hu (first.bind fun x hx =>
        .accept_else (by rwa [ht]) (.pure (.cons hx rfl)))
    | m :: k :: ns =>
      obtain ⟨u, more, printed, hu⟩ := opens m List.mem_cons_self
      have first := items m List.mem_cons_self TokenKind.comma.mark
        (separated TokenKind.comma.mark (Node.printEach (k :: ns)) ++ t :: rest) (.inl rfl)
      have others := ih (Nat.lt_of_succ_lt_succ room)
        (fun m hm => opens m (List.mem_cons_of_mem _ hm))
        (fun m hm => items m (List.mem_cons_of_mem _ hm))
      simp only [Node.printEach, separated_cons_cons, List.append_assoc, List.cons_append]
        at first others ⊢
      rw [printed] at first ⊢
      exact .check_else hu (first.bind fun x hx =>
        .accept_then rfl (by simp) (others.bind fun xs hxs => .pure (.cons hx hxs)))

/-- **Items with a comma after each**, which may be missing after the last, up to a closing
token. The reader of the list is known by what it does at that token and at the start of an
item, and the items may be read from whatever they are written for. -/
theorem Reads.untilClosed {as : List α} {parts : α → List Token} {R : α → Node → Prop}
    {loop : Nat → Reader (List Node)} {n : Nat} (room : as.length < n) (ht : t.kind = close)
    (noComma : close ≠ .comma)
    (stops : ∀ n, (loop (n + 1)).Reads (t :: rest) (· = []) (t :: rest))
    (goesOn : ∀ n s tokens (P : List Node → Prop) left, starts s →
      Reads (do let x ← item; separator close; return x :: (← loop n)) (s :: tokens) P left →
      (loop (n + 1)).Reads (s :: tokens) P left)
    (opens : ∀ a ∈ as, ∃ s more, parts a = s :: more ∧ starts s)
    (items : ∀ a ∈ as, ∀ u more, u.kind = .comma ∨ u = t →
      item.Reads (parts a ++ u :: more) (R a) (u :: more)) :
    (loop n).Reads (separated TokenKind.comma.mark (as.map parts) ++ t :: rest)
      (List.Forall₂ R as) (t :: rest) := by
  induction n generalizing as with
  | zero => exact absurd room (Nat.not_lt_zero _)
  | succ n ih =>
    match as with
    | [] =>
      refine (stops n).mono ?_
      rintro _ rfl
      exact .nil
    | [a] =>
      have first := items a List.mem_cons_self t rest (.inr rfl)
      have none := @ih [] (Nat.lt_of_succ_lt_succ room) nofun nofun
      obtain ⟨s, more, printed, hs⟩ := opens a List.mem_cons_self
      rw [List.map_singleton, separated_singleton]
      rw [printed] at first ⊢
      refine goesOn n s _ _ _ hs (first.bind fun x hx => ?_)
      refine Reads.bind (Q := fun _ => True) (.check_then ht (.pure trivial)) fun _ _ => ?_
      exact none.bind fun xs hxs => .pure (.cons hx hxs)
    | a :: b :: as =>
      have first := items a List.mem_cons_self TokenKind.comma.mark
        (separated TokenKind.comma.mark ((b :: as).map parts) ++ t :: rest) (.inl rfl)
      have others := ih (Nat.lt_of_succ_lt_succ room)
        (fun c hc => opens c (List.mem_cons_of_mem _ hc))
        (fun c hc => items c (List.mem_cons_of_mem _ hc))
      obtain ⟨s, more, printed, hs⟩ := opens a List.mem_cons_self
      rw [List.map_cons] at first others
      rw [List.map_cons, List.map_cons, separated_cons_cons, List.append_assoc, List.cons_append]
      rw [printed] at first ⊢
      refine goesOn n s _ _ _ hs (first.bind fun x hx => ?_)
      refine Reads.bind (Q := fun _ => True) ?_ fun _ _ =>
        others.bind fun xs hxs => .pure (.cons hx hxs)
      exact .check_else (Ne.symm noComma) (.expect_bind rfl (by simp) fun _ _ => .pure trivial)

/-- **Some items with commas between them**, up to a token that is no comma. -/
theorem Reads.commaSeparated {n : Nat} (room : ns.length < n) (some : ns ≠ [])
    (ht : t.kind ≠ .comma)
    (items : ∀ m ∈ ns, ∀ u more, u.kind = .comma ∨ u = t →
      item.Reads (m.print ++ u :: more) m.Alike (u :: more)) :
    (Reader.commaSeparated item n).Reads
      (separated TokenKind.comma.mark (Node.printEach ns) ++ t :: rest)
      (Node.AllAlike ns) (t :: rest) := by
  induction n generalizing ns with
  | zero => exact absurd room (Nat.not_lt_zero _)
  | succ n ih =>
    match ns with
    | [m] =>
      have first := items m List.mem_cons_self t rest (.inr rfl)
      simp only [Node.printEach, separated_singleton]
      exact first.bind fun x hx => .accept_else ht (.pure (.cons hx rfl))
    | m :: k :: ns =>
      have first := items m List.mem_cons_self TokenKind.comma.mark
        (separated TokenKind.comma.mark (Node.printEach (k :: ns)) ++ t :: rest) (.inl rfl)
      have others := ih (Nat.lt_of_succ_lt_succ room) (by simp)
        (fun m hm => items m (List.mem_cons_of_mem _ hm))
      simp only [Node.printEach, separated_cons_cons, List.append_assoc, List.cons_append]
        at first others ⊢
      exact first.bind fun x hx =>
        .accept_then rfl (by simp) (others.bind fun xs hxs => .pure (.cons hx hxs))

end Lists

end Reader

end Scriptlet
