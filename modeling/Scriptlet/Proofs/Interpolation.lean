import Scriptlet.Proofs.Relexing
import Scriptlet.Proofs.Splitting

/-!
# Expressions inside templates

The end of an expression in a template is found by a pass that looks at quotes, backticks
and braces only. The walk that cuts a text into tokens knows more: that a brace in a comment
or in a regular expression is none, and that a quote there opens nothing. So the two need not
agree on where an expression ends, and an expression that can be cut into tokens does not
always *stand* in a template.

What is shown here is where they do agree. A text *nests* if the pass over it comes back to
the depth that it started from. Every token but a regular expression nests, or is a brace
that changes the depth by one, and so does every blank. An expression whose braces are
balanced therefore stands in a template as soon as its comments and regular expressions nest,
and in any case exactly if it nests as a whole.
-/

namespace Scriptlet

/-! ## Passing over a text at a depth -/

/-- The pass over a text **leads from one depth of braces to another**, whatever follows. -/
def Text.Leads (t : Text) (depth depth' : Nat) : Prop :=
  ∀ following, Enclosure.Leads following [.braces depth] t [.braces depth']

/-- A text **nests** if the pass over it comes back to the depth at which it started. -/
def Text.Nests (t : Text) : Prop :=
  ∀ depth, t.Leads depth depth

/-- The code points that the pass looks at in an expression. -/
def enclosing : List CodePoint :=
  [doubleQuote, singleQuote, backtick, openBrace, closeBrace]

/-- A code point is **free** if the pass does not look at it. -/
def isFree (c : CodePoint) : Bool :=
  !enclosing.contains c

/-- What satisfies a test that fails for all that the pass looks at is free. -/
theorem isFree_of_excluded {p : CodePoint → Bool} (excluded : enclosing.all (!p ·) = true)
    {c : CodePoint} (h : p c = true) : isFree c = true := by
  unfold isFree
  rw [Bool.not_eq_true', Bool.eq_false_iff]
  intro member
  have no := List.all_eq_true.mp excluded c (List.contains_iff_mem.mp member)
  rw [h] at no
  cases no

namespace Enclosure

theorem step?_free {c : CodePoint} (free : isFree c = true) (depth : Nat) (rest : Text) :
    (braces depth).step? c rest = some (1, [braces depth]) := by
  have none : ∀ sign ∈ enclosing, (c == sign) = false := by
    unfold isFree at free
    rw [Bool.not_eq_true', Bool.eq_false_iff] at free
    intro sign member
    rw [beq_eq_false_iff_ne]
    rintro rfl
    exact free (List.contains_iff_mem.mpr member)
  unfold step?
  dsimp only
  rw [none doubleQuote (by decide), none singleQuote (by decide), none backtick (by decide),
    none openBrace (by decide), none closeBrace (by decide)]
  rfl

theorem step?_quote {c : CodePoint} (quote : (c == doubleQuote || c == singleQuote) = true)
    (depth : Nat) (rest : Text) :
    (braces depth).step? c rest = some (1, [string c, braces depth]) :=
  if_pos quote

theorem step?_backtick (depth : Nat) (rest : Text) :
    (braces depth).step? backtick rest = some (1, [template, braces depth]) := rfl

end Enclosure

namespace Text

variable {t u : Text} {depth depth' depth'' : Nat}

theorem Leads.append (first : t.Leads depth depth') (second : u.Leads depth' depth'') :
    (t ++ u).Leads depth depth'' :=
  fun following => (first (u ++ following)).append (second following)

theorem nests_nil : Nests [] :=
  fun depth _ => .stay [.braces depth]

/-- A code point on which the pass takes one step. -/
theorem leads_step {c : CodePoint} {inner : List Enclosure}
    (here : ∀ rest, (Enclosure.braces depth).step? c rest = some (1, inner))
    (later : ∀ following, Enclosure.Leads following inner t [.braces depth']) :
    Leads (c :: t) depth depth' := by
  intro following
  refine Enclosure.Leads.one (here _) ?_
  rw [List.append_nil]
  exact later following

/-- A free text nests. -/
theorem nests_of_free (free : ∀ c ∈ t, isFree c = true) : t.Nests := by
  intro depth
  induction t with
  | nil => exact nests_nil depth
  | cons c t ih =>
    exact leads_step (Enclosure.step?_free (free c List.mem_cons_self) depth)
      (ih fun d member => free d (List.mem_cons_of_mem c member))

/-- An opening brace leads one deeper. -/
theorem leads_openBrace (depth : Nat) : Leads [openBrace] depth (depth + 1) :=
  leads_step (fun _ => rfl) fun _ => .stay _

/-- A closing brace leads back. -/
theorem leads_closeBrace (depth : Nat) : Leads [closeBrace] (depth + 1) depth :=
  leads_step (fun _ => rfl) fun _ => .stay _

/-- What opens something and closes it again nests. -/
theorem nests_enclosed {c : CodePoint} {e : Enclosure} {rest : Text} {n : Nat}
    (opens : ∀ depth rest, (Enclosure.braces depth).step? c rest = some (1, [e, .braces depth]))
    (length : (Enclosure.measure [e] 0 rest).map (· + 1) = some n) :
    Nests ((c :: rest).take n) := by
  obtain ⟨m, hm, rfl⟩ := Option.map_eq_some_iff.mp length
  obtain ⟨read, following, rfl, count, leads⟩ := Enclosure.leads_of_measure hm
  have taken : (c :: (read ++ following)).take (m + 1) = c :: read := by
    rw [count, Nat.zero_add, List.take_succ_cons, List.take_left]
  rw [taken]
  exact fun depth => leads_step (opens depth) fun other =>
    (leads.elsewhere nofun other).under [.braces depth]

end Text

/-! ## Free texts -/

/-- So many code points of a text **are free**. -/
def Text.FreeUpTo (t : Text) (n : Nat) : Prop :=
  ∀ c ∈ t.take n, isFree c = true

namespace Text.FreeUpTo

theorem zero (t : Text) : t.FreeUpTo 0 :=
  fun c member => by rw [List.take_zero] at member; cases member

theorem add {t : Text} {m n : Nat} (first : t.FreeUpTo m) (second : FreeUpTo (t.drop m) n) :
    t.FreeUpTo (m + n) := by
  intro c member
  rw [List.take_add] at member
  exact (List.mem_append.mp member).elim (first c) (second c)

/-- What is counted by a test that only free code points satisfy is free. -/
theorem countWhile {p : CodePoint → Bool} (excluded : enclosing.all (!p ·) = true) (t : Text) :
    t.FreeUpTo (countWhile p t) := by
  intro c member
  unfold Scriptlet.countWhile at member
  rw [← List.prefix_iff_eq_take.mp (List.takeWhile_prefix p)] at member
  exact isFree_of_excluded excluded (List.all_eq_true.mp List.all_takeWhile c member)

/-- A head that satisfies a test that only free code points satisfy is free. -/
theorem head {p : CodePoint → Bool} (excluded : enclosing.all (!p ·) = true) {t : Text}
    (h : headIs p t = true) : t.FreeUpTo 1 := by
  cases t with
  | nil => cases h
  | cons d rest =>
    intro c member
    rw [List.mem_singleton.mp member]
    exact isFree_of_excluded excluded h

theorem nests {t : Text} {n : Nat} (h : t.FreeUpTo n) : Nests (t.take n) :=
  nests_of_free h

end Text.FreeUpTo

theorem freeUpTo_exponentLength (t : Text) : t.FreeUpTo (exponentLength t) := by
  unfold exponentLength
  split
  case isFalse => exact .zero t
  rename_i letter
  have sign : Text.FreeUpTo (t.drop 1)
      (if headIs (fun c => c == '+' || c == '-') (t.drop 1) then 1 else 0) := by
    split
    · rename_i sign
      exact .head (by decide) sign
    · exact .zero _
  generalize (if headIs (fun c => c == '+' || c == '-') (t.drop 1) then 1 else 0) = width at sign
  dsimp only
  split
  · exact .zero t
  · exact .add (.add (.head (p := fun c => c == 'e' || c == 'E') (by decide) letter) sign)
      (.countWhile (by decide) _)

theorem freeUpTo_decimalLength (t : Text) : t.FreeUpTo (decimalLength t) := by
  unfold decimalLength
  dsimp only
  rw [Nat.add_assoc]
  refine .add (.countWhile (by decide) t) (.add ?_ (freeUpTo_exponentLength _))
  split
  · rename_i point
    exact .add (.head (p := (· == '.')) (by decide) point) (.countWhile (by decide) _)
  · exact .zero _

/-- A numeral is free. -/
theorem freeUpTo_numberLength {t : Text} {n : Nat} (h : numberLength? t = some n) :
    t.FreeUpTo n := by
  unfold numberLength? at h
  obtain ⟨m, length, last⟩ := Option.bind_eq_some_iff.mp h
  obtain rfl : m = n := by
    split at last
    · cases last
    · exact Option.some.inj last
  clear h last
  split at length
  · rename_i z letter rest
    split at length
    · rename_i radix known
      obtain ⟨_, -, rfl⟩ := Option.map_eq_some_iff.mp length
      obtain ⟨zero, radix⟩ := Option.ite_none_right_eq_some.mp known
      refine .add (fun c member => ?_) (.countWhile (by decide +kernel) _)
      rcases List.mem_cons.mp member with rfl | member
      · rw [beq_iff_eq.mp zero]
        decide
      · rw [List.mem_singleton.mp member]
        exact isFree_of_excluded (p := fun c => (radixOfLetter? c).isSome) (by decide)
          (Option.isSome_of_eq_some radix)
    · exact Option.some.inj length ▸ freeUpTo_decimalLength _
  · exact Option.some.inj length ▸ freeUpTo_decimalLength _

/-! ## Tokens -/

/-- A token of a kind **leads as the kind says**: a brace by one, and any other to where it
started. -/
def TokenKind.Leads (kind : TokenKind) (source : Text) : Prop :=
  match kind with
  | .leftBrace => source = [openBrace]
  | .rightBrace => source = [closeBrace]
  | _ => source.Nests

theorem TokenKind.leads_of_nests {kind : TokenKind} {source : Text} (h : source.Nests)
    (left : kind ≠ .leftBrace) (right : kind ≠ .rightBrace) : kind.Leads source := by
  unfold Leads
  split
  · exact absurd rfl left
  · exact absurd rfl right
  · exact h

theorem TokenKind.leads_of_isWord {kind : TokenKind} {source : Text} (h : source.Nests)
    (word : kind.isWord = true) : kind.Leads source :=
  leads_of_nests h (by rintro rfl; cases word) (by rintro rfl; cases word)

/-- A sign is a brace, or it is free. -/
theorem leads_of_sign : ∀ sign ∈ signs, sign.2.Leads sign.1 := by
  have known : ∀ sign ∈ signs, (sign.2 = .leftBrace ∧ sign.1 = [openBrace])
      ∨ (sign.2 = .rightBrace ∧ sign.1 = [closeBrace])
      ∨ (sign.2 ≠ .leftBrace ∧ sign.2 ≠ .rightBrace ∧ ∀ c ∈ sign.1, isFree c = true) := by
    decide
  rintro ⟨source, kind⟩ member
  rcases known _ member with ⟨rfl, rfl⟩ | ⟨rfl, rfl⟩ | ⟨left, right, free⟩
  · rfl
  · rfl
  · exact TokenKind.leads_of_nests (Text.nests_of_free free) left right

/-- **Every token but a regular expression** leads as its kind says. -/
theorem scan_leads {allowed : Bool} {c : CodePoint} {rest : Text} {kind : TokenKind} {n : Nat}
    (h : scan allowed c rest = .ok (.token kind n)) (regular : kind ≠ .regexp) :
    kind.Leads ((c :: rest).take n) := by
  rw [scan_of_startsGap_eq_false (startsGap_eq_false_of_scan h)] at h
  unfold scanToken at h
  dsimp only at h
  split at h
  · rename_i quote
    obtain ⟨rfl, length⟩ := tokenOr_eq_ok h
    exact Text.nests_enclosed (fun depth rest => Enclosure.step?_quote quote depth rest) length
  split at h
  · rename_i tick
    obtain ⟨rfl, length⟩ := tokenOr_eq_ok h
    rw [beq_iff_eq.mp tick]
    exact Text.nests_enclosed Enclosure.step?_backtick length
  split at h
  · obtain ⟨rfl, length⟩ := tokenOr_eq_ok h
    exact (freeUpTo_numberLength length).nests
  split at h
  · obtain ⟨rfl, rfl⟩ := Scan.token.inj (Except.ok.inj h)
    have free : Text.FreeUpTo (c :: rest) ((c :: rest).takeWhile continuesName).length :=
      .countWhile (p := continuesName) (by decide +kernel) (c :: rest)
    have word := kindOfWord_isWord ((c :: rest).takeWhile continuesName)
    generalize kindOfWord ((c :: rest).takeWhile continuesName) = kind at word
    exact TokenKind.leads_of_isWord free.nests word
  split at h
  · obtain ⟨rfl, -⟩ := tokenOr_eq_ok h
    exact absurd rfl regular
  · unfold scanSign at h
    split at h
    · rename_i sign kind found
      cases h
      have starts : sign.isPrefixOf (c :: rest) = true :=
        List.find?_some (p := fun sign : Text × TokenKind => sign.1.isPrefixOf (c :: rest)) found
      replace starts := List.isPrefixOf_iff_prefix.mp starts
      rw [← List.prefix_iff_eq_take.mp starts]
      exact leads_of_sign _ (List.mem_of_find?_eq_some found)
    · cases h

/-- A blank between tokens nests, if it is no comment. -/
theorem scan_gap_nests {allowed : Bool} {c : CodePoint} {rest : Text} {n : Nat}
    (h : scan allowed c rest = .ok (.gap n)) (blank : c ≠ '/') : Text.Nests ((c :: rest).take n) := by
  have slash : (c == ('/' : CodePoint)) = false := beq_eq_false_iff_ne.mpr blank
  by_cases space : (isLineEnd c || isSpace c) = true
  · unfold scan at h
    dsimp only at h
    rw [if_pos space] at h
    cases h
    refine Text.nests_of_free fun d member => ?_
    rw [List.mem_singleton.mp member]
    exact isFree_of_excluded (p := fun c => isLineEnd c || isSpace c) (by decide) space
  · have noGap : startsGap c rest = false := by
      unfold startsGap
      rw [Bool.eq_false_iff.mpr space, slash]
      rfl
    rw [scan_of_startsGap_eq_false noGap] at h
    exact absurd h (scanToken_ne_gap allowed c rest n)

/-! ## Pieces -/

namespace SourcePiece

/-- The source of a piece. -/
def source : SourcePiece → Text
  | gap source => source
  | token _ source => source

/-- The kind of a piece that is a token. -/
def kind? : SourcePiece → Option TokenKind
  | gap _ => none
  | token kind _ => some kind

/-- A piece **hides** what stands in it if it is a comment or a regular expression. -/
def Hides : SourcePiece → Prop
  | gap source => source.head? = some '/'
  | token kind _ => kind = .regexp

end SourcePiece

/-- Tokens are **balanced** in their braces: up to none of them are more closed than opened, and
in the end there are as many. -/
structure TokenKind.Balanced (kinds : List TokenKind) : Prop where
  /-- No brace is closed that has not been opened. -/
  opened : ∀ k, (kinds.take k).count .rightBrace ≤ (kinds.take k).count .leftBrace
  /-- All braces are closed. -/
  closed : kinds.count .rightBrace = kinds.count .leftBrace

/-- Whether tokens are balanced can be told from as many of their beginnings as there are. -/
instance (kinds : List TokenKind) : Decidable (TokenKind.Balanced kinds) :=
  decidable_of_iff
    ((∀ k < kinds.length + 1, (kinds.take k).count .rightBrace ≤ (kinds.take k).count .leftBrace)
      ∧ kinds.count .rightBrace = kinds.count .leftBrace)
    ⟨fun ⟨opened, closed⟩ => ⟨fun k => by
        rw [List.take_eq_take_min]
        exact opened _ (Nat.lt_succ_of_le (Nat.min_le_right _ _)), closed⟩,
      fun balanced => ⟨fun k _ => balanced.opened k, balanced.closed⟩⟩

/-- A token leads to the depth that **its brace counts to**, where this is one. -/
theorem TokenKind.Leads.exists_depth {kind : TokenKind} {source : Text} (h : kind.Leads source)
    {depth : Nat} (opened : [kind].count .rightBrace ≤ depth + [kind].count .leftBrace) :
    ∃ depth', source.Leads depth depth'
      ∧ depth' + [kind].count .rightBrace = depth + [kind].count .leftBrace := by
  unfold TokenKind.Leads at h
  split at h
  · rw [h]
    exact ⟨depth + 1, Text.leads_openBrace depth, rfl⟩
  · rw [h]
    obtain ⟨depth, rfl⟩ : ∃ d, depth = d + 1 := ⟨depth - 1, (Nat.sub_add_cancel opened).symm⟩
    exact ⟨depth, Text.leads_closeBrace depth, rfl⟩
  · rename_i left right
    refine ⟨depth, h depth, ?_⟩
    rw [List.count_eq_zero_of_not_mem fun member => right (List.mem_singleton.mp member).symm,
      List.count_eq_zero_of_not_mem fun member => left (List.mem_singleton.mp member).symm]

/-- What a scan finds leads as its kind says, if it **nests where it hides** something. -/
theorem scan_leads_of_hidden {allowed : Bool} {c : CodePoint} {rest : Text} {kind : TokenKind}
    {n : Nat} (h : scan allowed c rest = .ok (.token kind n))
    (hidden : (SourcePiece.token kind ((c :: rest).take n)).Hides →
      Text.Nests ((c :: rest).take n)) : kind.Leads ((c :: rest).take n) := by
  by_cases regular : kind = .regexp
  · have nests := hidden regular
    subst regular
    exact nests
  · exact scan_leads h regular

/-- A blank that a scan finds nests, if it **nests where it is a comment**. -/
theorem scan_gap_nests_of_hidden {allowed : Bool} {c : CodePoint} {rest : Text} {n : Nat}
    (h : scan allowed c rest = .ok (.gap n))
    (hidden : (SourcePiece.gap ((c :: rest).take n)).Hides → Text.Nests ((c :: rest).take n)) :
    Text.Nests ((c :: rest).take n) := by
  by_cases comment : c = '/'
  · refine hidden ?_
    obtain ⟨pos, -, -⟩ := scan_isGap h
    obtain ⟨n, rfl⟩ : ∃ k, n = k + 1 := ⟨n - 1, by omega⟩
    exact congrArg some comment
  · exact scan_gap_nests h comment

/-- **A text leads by its braces**, if what is hidden in it nests: from one depth to the depth
that the tokens count, unless this falls below nothing on the way. -/
theorem Cuts.leads {allowed after : Bool} {t : Text} {pieces : List SourcePiece}
    (cuts : Cuts allowed t pieces after []) {depth depth' : Nat}
    (hidden : ∀ piece ∈ pieces, piece.Hides → piece.source.Nests)
    (opened : ∀ k, ((pieces.filterMap SourcePiece.kind?).take k).count .rightBrace
      ≤ depth + ((pieces.filterMap SourcePiece.kind?).take k).count .leftBrace)
    (closed : depth' + (pieces.filterMap SourcePiece.kind?).count .rightBrace
      = depth + (pieces.filterMap SourcePiece.kind?).count .leftBrace) :
    t.Leads depth depth' := by
  generalize hend : ([] : Text) = remainder at cuts
  induction cuts generalizing depth with
  | done =>
    subst hend
    obtain rfl : depth' = depth := closed
    exact Text.nests_nil depth'
  | @gap allowed after c rest remainder n pieces found more ih =>
    have here := scan_gap_nests_of_hidden found (hidden _ List.mem_cons_self)
    have later := ih (fun piece member => hidden piece (List.mem_cons_of_mem _ member)) opened
      closed hend
    have whole := (here depth).append later
    rwa [List.take_append_drop] at whole
  | @token allowed after c rest remainder kind n pieces found more ih =>
    have kinds : (SourcePiece.token kind ((c :: rest).take n) :: pieces).filterMap
        SourcePiece.kind? = [kind] ++ pieces.filterMap SourcePiece.kind? := rfl
    have opened' (k : Nat) : [kind].count .rightBrace
          + ((pieces.filterMap SourcePiece.kind?).take k).count .rightBrace
        ≤ depth + ([kind].count .leftBrace
          + ((pieces.filterMap SourcePiece.kind?).take k).count .leftBrace) := by
      rw [← List.count_append, ← List.count_append]
      exact opened (k + 1)
    rw [kinds, List.count_append, List.count_append] at closed
    obtain ⟨middle, first, counted⟩ :=
      (scan_leads_of_hidden found (hidden _ List.mem_cons_self)).exists_depth (opened' 0)
    -- What the tokens behind it count, they count from where this one has led.
    have behind (k : Nat) : ((pieces.filterMap SourcePiece.kind?).take k).count .rightBrace
        ≤ middle + ((pieces.filterMap SourcePiece.kind?).take k).count .leftBrace := by
      have := opened' k
      omega
    have later := ih (fun piece member => hidden piece (List.mem_cons_of_mem _ member)) behind
      (by omega) hend
    have whole := first.append later
    rwa [List.take_append_drop] at whole

namespace Enclosure

variable {following : Text} {stack : List Enclosure}

/-- Only braces are closed by a brace. -/
theorem Leads.eq_of_closeBrace (h : Leads following stack [closeBrace] [])
    (quoted : Quoted stack) : stack = [braces 0] := by
  obtain ⟨e, outer, inner, rfl, here, closed⟩ := h.of_singleton
  obtain ⟨rfl, rfl⟩ := List.append_eq_nil_iff.mp closed.symm
  cases e with
  | string quote =>
    rcases quoted quote List.mem_cons_self with rfl | rfl
    · cases here
    · cases here
  | template => cases here
  | braces depth =>
    cases depth with
    | zero => rfl
    | succ depth => cases here

/-- A line feed changes no braces. -/
theorem Leads.eq_of_feed {depth : Nat} (h : Leads following stack [('\n' : CodePoint)] [braces depth])
    (quoted : Quoted stack) : stack = [braces depth] := by
  obtain ⟨e, outer, inner, rfl, here, left⟩ := h.of_singleton
  cases e with
  | string quote =>
    rcases quoted quote List.mem_cons_self with rfl | rfl
    · cases here
    · cases here
  | template =>
    cases here
    cases left
  | braces depth =>
    cases here
    exact left.symm

end Enclosure

/-! ## Standing in a template -/

/-- An expression **on a line of its own**, so that a comment at its end does not go on. -/
def Text.ownLine (e : Text) : Text :=
  e ++ [('\n' : CodePoint)]

/-- The body of a template that holds an expression, on a line of its own, and nothing else. -/
def Text.interpolated (e : Text) : Text :=
  dollarBrace ++ e.ownLine ++ [closeBrace]

/-- An expression **stands in a template** if the template around it is cut out of a text in
one token, and splitting that gives the expression back, between two empty chunks. -/
def Text.StandsInTemplate (e : Text) : Prop :=
  ∀ line, ∃ first last, tokenize (backtick :: (e.interpolated ++ [backtick])) line = .ok [first, last]
    ∧ first.kind = .template ∧ last.kind = .endOfText
    ∧ splitTemplate first.text = .ok ⟨[[], []], [(e.ownLine, 2)]⟩

/-- A body between backticks that the pass reads to its end **is cut out** in one token. -/
theorem tokenize_template {body : Text}
    (closes : ∀ following, Enclosure.Leads following [.template] (body ++ [backtick]) [])
    (line : Int) :
    ∃ first last, tokenize (backtick :: (body ++ [backtick])) line = .ok [first, last]
      ∧ first.kind = .template ∧ last.kind = .endOfText ∧ first.text = body := by
  have length : templateLength? (body ++ [backtick]) = some (body.length + 1) := by
    have measured := (closes []).measure_eq 0
    rwa [List.append_nil, Enclosure.measure_nil, Nat.zero_add, List.length_append] at measured
  have found : scan true backtick (body ++ [backtick]) = .ok (.token .template (body.length + 2)) := by
    show tokenOr .openTemplate .template _ = _
    rw [length]
    rfl
  have all : (backtick :: (body ++ [backtick])).length = body.length + 2 := by
    rw [List.length_cons, List.length_append]
    rfl
  have cuts : Cuts true (backtick :: (body ++ [backtick]))
      [.token .template (backtick :: (body ++ [backtick]))] false [] := by
    have cuts := Cuts.token found (.done _ _)
    rwa [← all, List.take_length, List.drop_length] at cuts
  have kept : keptText .template (backtick :: (body ++ [backtick])) = body := by
    rw [keptText, if_pos rfl, List.drop_one, List.tail_cons, List.dropLast_concat]
  have same := cuts.tokenize_eq_ok line
  rw [List.foldl_cons, List.foldl_nil, LexState.take, LexState.emit, LexState.tokens_pass] at same
  exact ⟨_, _, same, rfl, rfl, kept⟩

namespace Text

/-- An expression that the pass comes back from **ends at its closing brace**. -/
theorem Leads.closes {e : Text} (h : e.Leads 0 0) (following : Text) :
    Enclosure.Leads following [.braces 0] (e.ownLine ++ [closeBrace]) [] := by
  have feed : Nests [('\n' : CodePoint)] := nests_of_free (by decide)
  refine ((h.append (feed 0)) ([closeBrace] ++ following)).append ?_
  exact .one rfl (.stay [])

/-- **An expression that the pass comes back from stands in a template.** -/
theorem Leads.standsInTemplate {e : Text} (h : e.Leads 0 0) : e.StandsInTemplate := by
  have ends : bracesLength? (e.ownLine ++ [closeBrace]) = some (e.ownLine.length + 1) := by
    have measured := (h.closes []).measure_eq 0
    rwa [List.append_nil, Enclosure.measure_nil, Nat.zero_add, List.length_append] at measured
  have whole (following : Text) :
      Enclosure.Leads following [.template] (e.interpolated ++ [backtick]) [] := by
    have tick : Enclosure.Leads following [.template] [backtick] [] := .one rfl (.stay [])
    exact .two rfl (((h.closes ([backtick] ++ following)).under [.template]).append tick)
  intro line
  obtain ⟨first, last, same, template, ended, body⟩ := tokenize_template whole line
  refine ⟨first, last, same, template, ended, ?_⟩
  have more : splitTemplateFrom (0 + e.ownLine.length + 3) [] 0 [] = .ok ⟨[[]], []⟩ := rfl
  rw [body, ← List.append_nil e.interpolated]
  exact splitTemplateFrom_expression ends more

/-- If the closing brace is the last that is read, the pass **comes back from the expression**. -/
theorem leads_of_ends {e : Text}
    (ends : bracesLength? (e.ownLine ++ [closeBrace]) = some (e.ownLine.length + 1)) :
    e.Leads 0 0 := by
  have closes := Enclosure.leads_of_measure_length (by rw [List.length_append]; exact ends) []
  have braced : Enclosure.Quoted [.braces 0] := nofun
  -- The closing brace is read by itself, and so is the line feed before it.
  obtain ⟨middle, read, brace⟩ := closes.unsnoc nofun
  obtain rfl := brace.eq_of_closeBrace (read.quoted braced)
  obtain ⟨middle, read, feed⟩ := read.unsnoc fun e member => ⟨0, List.mem_singleton.mp member⟩
  obtain rfl := feed.eq_of_feed (read.quoted braced)
  exact fun following => read.elsewhere nofun following

/-- **What stands in a template is what the pass comes back from.** -/
theorem StandsInTemplate.leads {e : Text} (h : e.StandsInTemplate) : e.Leads 0 0 := by
  obtain ⟨first, last, same, template, -, split⟩ := h 1
  obtain ⟨parts, split', laid⟩ :=
    splitTemplate_laidOut (isBody_of_tokenize same List.mem_cons_self template)
  obtain rfl := Except.ok.inj (split'.symm.trans split)
  exact leads_of_ends (laid.ends (e.ownLine, 2) List.mem_cons_self)

end Text

/-- The kinds of tokens are those of the pieces. -/
theorem kinds_contents (newline : Bool) (pieces : List SourcePiece) :
    (contents newline pieces).map (·.1) = pieces.filterMap SourcePiece.kind? ++ [.endOfText] := by
  induction pieces generalizing newline with
  | nil => rfl
  | cons piece pieces ih =>
    cases piece with
    | gap source => exact ih _
    | token kind source => exact congrArg (kind :: ·) (ih false)

/-- **Expressions in templates.** Let an expression be cut into tokens that are balanced in
their braces. It stands in a template exactly if the pass over it comes back to the depth that
it started from; and this it does if each of its comments and regular expressions nests. -/
theorem stands_in_template {e : Text} {line : Int} {tokens : List Token}
    (h : tokenize e line = .ok tokens) (balanced : TokenKind.Balanced (tokens.map Token.kind)) :
    (e.StandsInTemplate ↔ e.Leads 0 0)
      ∧ ∀ pieces after, Cuts true e pieces after [] →
        (∀ piece ∈ pieces, piece.Hides → piece.source.Nests) → e.StandsInTemplate := by
  refine ⟨⟨Text.StandsInTemplate.leads, Text.Leads.standsInTemplate⟩, ?_⟩
  intro pieces after cuts hidden
  obtain ⟨tokens', same, said⟩ := cuts.tokenize_contents line
  obtain rfl := Except.ok.inj (h.symm.trans same)
  have kinds : tokens.map Token.kind = pieces.filterMap SourcePiece.kind? ++ [.endOfText] := by
    rw [← kinds_contents false, ← said, List.map_map]
    rfl
  rw [kinds] at balanced
  refine Text.Leads.standsInTemplate (cuts.leads hidden (fun k => ?_) ?_)
  · have opened := balanced.opened (min k (pieces.filterMap SourcePiece.kind?).length)
    rw [List.take_append_of_le_length (Nat.min_le_right _ _), ← List.take_eq_take_min] at opened
    rwa [Nat.zero_add]
  · have closed := balanced.closed
    simpa [List.count_append] using closed

/-- An expression with a brace in a string, a regular expression that nests, and a comment. -/
theorem stands_in_template_of_object :
    ∃ tokens, tokenize "\x7ba: '\x7d', b: /x\x7b2\x7d/\x7d // c" 1 = .ok tokens
      ∧ TokenKind.Balanced (tokens.map Token.kind)
      ∧ Text.StandsInTemplate "\x7ba: '\x7d', b: /x\x7b2\x7d/\x7d // c" := by
  have kinds : (tokenize "\x7ba: '\x7d', b: /x\x7b2\x7d/\x7d // c" 1).toOption.map
      (·.map Token.kind) = some [.leftBrace, .identifier, .colon, .string, .comma, .identifier,
        .colon, .regexp, .rightBrace, .endOfText] := by
    decide +kernel
  obtain ⟨tokens, cut, same⟩ := Option.map_eq_some_iff.mp kinds
  have balanced : TokenKind.Balanced (tokens.map Token.kind) := by
    rw [same]
    decide
  have cut := Except.eq_ok_of_toOption cut
  refine ⟨tokens, cut, balanced, (stands_in_template cut balanced).1.mpr ?_⟩
  exact Text.leads_of_ends (by decide +kernel)

/-- A regular expression that is a quote: its tokens are balanced, but it does not stand in a
template, because the quote is taken for the start of a string. -/
theorem not_standsInTemplate_quote :
    ∃ tokens, tokenize "/'/" 1 = .ok tokens ∧ TokenKind.Balanced (tokens.map Token.kind)
      ∧ ¬ Text.StandsInTemplate "/'/" := by
  have cut : tokenize "/'/" 1 =
      .ok [⟨.regexp, "/'/", 1, 1, false⟩, ⟨.endOfText, [], 1, 4, false⟩] :=
    Except.eq_ok_of_toOption (by decide +kernel)
  refine ⟨_, cut, by decide, fun stands => ?_⟩
  obtain ⟨first, last, same, -⟩ := stands 1
  have stuck : (tokenize (backtick :: (Text.interpolated "/'/" ++ [backtick])) 1).toOption = none := by
    decide +kernel
  rw [same] at stuck
  cases stuck

end Scriptlet
