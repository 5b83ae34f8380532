import Mathlib.Data.List.Lex
import Mathlib.Data.List.TakeWhile
import Scriptlet.Console.Completion
import Scriptlet.Console.Highlight
import Scriptlet.Proofs.Layout

/-!
# What is shown and offered while an entry is typed

The fragments of a line are cut out of it by the columns of its tokens. Whatever the columns are,
nothing gets lost and nothing is shown twice: each fragment begins where the last one ends, and a
token that would lie before that is passed over. So the fragments are the line again, also where
columns start anew in the middle of it. Where no code point of the line starts another one, columns
count all that is in front of a token. Then the line falls into *parts*, each a token with what lies
between it and the token before, and the fragments are those of the parts.

A completion goes on from what has been typed: what it takes the place of is the beginning of what
it offers. Where that part starts is reckoned from the length of a word alone, counted back from the
cursor, and the word itself is found at the end of the text. The end may be in front of a last line
feed, though, and then the two are not in the same place: what is taken out is one code point further
on than the word. So completions take the place of the word exactly where no line feed comes last.
-/

namespace Scriptlet.Console

/-! ## Fragments lose nothing -/

theorem flatMap_text_gap (line : Text) (start stop : Nat) :
    (gap line start stop).flatMap Fragment.text = line.slice start stop := by
  unfold gap
  split
  · exact List.append_nil _
  · rw [Text.slice, Nat.sub_eq_zero_of_le (by omega), List.take_zero]
    rfl

/-- The fragments from an offset on are what stands there, whatever the columns of the tokens. -/
theorem flatMap_text_fragmentsFrom (line : Text) (offset : Nat) (tokens : List Token) :
    (fragmentsFrom line offset tokens).flatMap Fragment.text = line.drop offset := by
  induction tokens generalizing offset with
  | nil => rw [fragmentsFrom, flatMap_text_gap, Text.slice_length]
  | cons t rest ih =>
    rw [fragmentsFrom]
    split
    · rw [flatMap_text_gap, Text.slice_length]
    split
    · exact ih offset
    rename_i shown
    simp only [Bool.or_eq_true, decide_eq_true_eq, not_or, Nat.not_lt, Nat.not_le] at shown
    rw [List.flatMap_append, flatMap_text_gap, List.flatMap_cons, ih,
      Text.slice_append_drop line (Nat.le_of_lt shown.2), Text.slice_append_drop line shown.1]

/-! ## The parts of a line -/

/-- A **part** of a line: a token and what lies between it and the token before. -/
structure Part where
  /-- What lies in front of the token. -/
  gap : Text
  /-- The token. -/
  token : Token

/-- What stands in the line for a part. -/
def Part.source (p : Part) : Text :=
  p.gap ++ p.token.source

/-- What belongs to no token is a fragment without a style, unless it is empty. -/
def unstyled (t : Text) : List Fragment :=
  if t.isEmpty then [] else [⟨.plain, t⟩]

/-- **The fragments of parts**: for each of them one without a style for what is in front of the
token, and one for the source of the token, which nothing is shown of at the end of the text. -/
def fragmentsOf : List Part → List Fragment
  | [] => []
  | p :: rest =>
    let shown : List Fragment :=
      if p.token.kind = .endOfText then []
      else [⟨styleOf p.token.kind (rest.head?.map (·.token.kind)), p.token.source⟩]
    unstyled p.gap ++ shown ++ fragmentsOf rest

theorem gap_eq_unstyled {line : Text} {start stop : Nat} (h : stop ≤ line.length) :
    gap line start stop = unstyled (line.slice start stop) := by
  have length : (line.slice start stop).length = stop - start := by
    unfold Text.slice
    rw [List.length_take, List.length_drop]
    omega
  unfold gap unstyled
  by_cases pos : start < stop
  · rw [if_pos pos, if_neg fun empty => ?_]
    rw [List.isEmpty_iff.mp empty, List.length_nil] at length
    omega
  · rw [if_neg pos, if_pos (List.isEmpty_iff.mpr (List.eq_nil_of_length_eq_zero (by omega)))]

/-- Where nothing starts another line, columns count what is in front of a token. -/
theorem column_eq_of_place {line : Text} (oneLine : ∀ c ∈ line, startsLine c = false)
    {token : Token} {offset : Nat} (inside : offset ≤ line.length)
    (place : ⟨token.line, token.column⟩ = placeAt line 1 offset) : token.column = 1 + offset := by
  have all : (line.take offset).reverse.takeWhile (!startsLine ·) = (line.take offset).reverse := by
    rw [List.takeWhile_eq_self_iff]
    intro c hc
    rw [oneLine c (List.mem_of_mem_take (List.mem_reverse.mp hc))]
    rfl
  have column := congrArg Place.column place
  unfold placeAt at column
  dsimp only at column
  rwa [all, List.length_reverse, List.length_take, Nat.min_eq_left inside] at column

/-- **A line divides into parts** for its tokens `tokens`: each token records as its column how much
of the line is in front of it. -/
structure Divides (line : Text) (tokens : List Token) (parts : List Part) : Prop where
  /-- The parts are those of the tokens. -/
  tokens : parts.map Part.token = tokens
  /-- Together they are the line. -/
  source : parts.flatMap Part.source = line
  /-- Tokens are found where they are. -/
  column : ∀ front p back, parts = front ++ p :: back →
    p.token.column = 1 + (front.flatMap Part.source ++ p.gap).length

/-- One more token divides more of the line. -/
theorem Divides.snoc {line : Text} {tokens : List Token} {parts : List Part} {stop offset : Nat}
    {token : Token} (h : Divides (line.take stop) tokens parts) (le : stop ≤ offset)
    (stands : token.source <+: line.drop offset) (inside : offset ≤ line.length)
    (column : token.column = 1 + offset) :
    Divides (line.take (offset + token.source.length)) (tokens ++ [token])
      (parts ++ [⟨line.slice stop offset, token⟩]) := by
  have gap : line.take stop ++ line.slice stop offset = line.take offset :=
    line.take_append_slice le
  have source : line.take offset ++ token.source = line.take (offset + token.source.length) := by
    rw [List.take_add, ← List.prefix_iff_eq_take.mp stands]
  refine ⟨?_, ?_, fun front p back same => ?_⟩
  · rw [List.map_append, h.tokens]
    rfl
  · rw [List.flatMap_append, h.source, List.flatMap_singleton, Part.source, ← List.append_assoc, gap,
      source]
  · rcases List.eq_nil_or_concat back with rfl | ⟨back, q, rfl⟩
    · obtain ⟨rfl, rfl⟩ := List.append_singleton_inj.mp same
      rw [h.source, gap, List.length_take, Nat.min_eq_left inside]
      exact column
    · rw [List.concat_eq_append, ← List.cons_append, ← List.append_assoc] at same
      exact h.column front p back (List.append_singleton_inj.mp same).1

/-- **Tokens that are laid out in one line are shown part by part.** Behind the parts of the tokens
the fragments go on as they do from where the last of them stops. -/
theorem fragmentsFrom_eq_of_laid {line : Text} {tokens : List Token} {stop : Nat}
    (h : Laid line 1 tokens stop) (oneLine : ∀ c ∈ line, startsLine c = false)
    (proper : ∀ token ∈ tokens, token.kind ≠ .endOfText ∧ token.source ≠ []) :
    stop ≤ line.length ∧ ∃ parts, Divides (line.take stop) tokens parts
      ∧ ∀ more : List Part, fragmentsFrom line stop (more.map Part.token) = fragmentsOf more →
        fragmentsFrom line 0 (tokens ++ more.map Part.token) = fragmentsOf (parts ++ more) := by
  -- What is shown of a token depends on the one behind it, so what follows is general.
  induction h with
  | nil => exact ⟨Nat.zero_le _, [], ⟨rfl, rfl, fun front p back same => by simp at same⟩,
      fun more same => same⟩
  | @snoc tokens token stop offset laid le gap stands place newline ih =>
    obtain ⟨-, parts, divides, shows⟩ :=
      ih fun token htoken => proper token (List.mem_append_left _ htoken)
    obtain ⟨noEnd, notEmpty⟩ := proper token (List.mem_append_right _ List.mem_cons_self)
    have pos := List.length_pos_iff.mpr notEmpty
    have inside : offset + token.source.length ≤ line.length := by
      have := stands.length_le
      rw [List.length_drop] at this
      omega
    have column := column_eq_of_place oneLine (by omega) place
    refine ⟨inside, _, divides.snoc le stands (by omega) column, fun more same => ?_⟩
    rw [List.append_assoc, List.append_assoc]
    refine shows (⟨line.slice stop offset, token⟩ :: more) ?_
    -- The column is that of the offset, so the token is not passed over.
    have start : token.column - 1 = offset := by omega
    have slice : line.slice offset (offset + token.source.length) = token.source :=
      Text.slice_eq_of_prefix stands
    rw [List.map_cons, fragmentsFrom, fragmentsOf, ← same]
    dsimp only
    have kept : ¬ (offset < stop || offset + token.source.length ≤ offset) = true := by
      rw [Bool.or_eq_true, decide_eq_true_eq, decide_eq_true_eq]
      omega
    rw [start, if_neg noEnd, if_neg noEnd, if_neg kept, slice, gap_eq_unstyled (by omega),
      List.append_assoc, List.head?_map, Option.map_map]
    rfl

/-- A line that can be cut into tokens, and in which nothing starts another line, divides into
parts, and the fragments of the parts are shown. -/
theorem exists_divides {line : Text} {tokens : List Token} (notEmpty : line ≠ [])
    (oneLine : ∀ c ∈ line, startsLine c = false) (cut : tokenize line 1 = .ok tokens) :
    ∃ parts, Divides line tokens parts ∧ highlight line = fragmentsOf parts := by
  have laid := tokenize_lays_out line 1
  rw [cut] at laid
  obtain ⟨laid, proper, last, rfl, isEnd, text, properly⟩ := laid
  have source : last.source = [] := by
    unfold Token.source
    rw [isEnd, if_neg (by decide), text]
  -- The end of the text is laid out like any other token, but nothing is shown of it.
  generalize same : proper ++ [last] = tokens at laid
  generalize stops : line.length = whole at laid
  cases laid with
  | nil => exact absurd same (List.append_ne_nil_of_right_ne_nil _ nofun)
  | @snoc proper' last' stop offset before le gap stands place newline =>
    obtain ⟨rfl, rfl⟩ := List.append_singleton_inj.mp same
    rw [source, List.length_nil, Nat.add_zero] at stops
    subst stops
    obtain ⟨-, parts, divides, shows⟩ := fragmentsFrom_eq_of_laid before oneLine properly
    have divides := divides.snoc le stands (Nat.le_refl _)
      (column_eq_of_place oneLine (Nat.le_refl _) place)
    rw [source, List.length_nil, Nat.add_zero, List.take_length] at divides
    have atEnd : fragmentsFrom line stop [last]
        = fragmentsOf [⟨line.slice stop line.length, last⟩] := by
      rw [fragmentsFrom, fragmentsOf, fragmentsOf]
      dsimp only
      rw [if_pos isEnd, if_pos isEnd, gap_eq_unstyled (Nat.le_refl _), List.append_nil,
        List.append_nil]
    refine ⟨_, divides, ?_⟩
    unfold highlight
    rw [if_neg (by rwa [List.isEmpty_iff]), cut]
    exact shows [⟨line.slice stop line.length, last⟩] atEnd

/-- **Highlighting preserves the text.** The fragments of a line of any code points are the line
again. And if none of the code points starts another line and the line can be cut into tokens, then
it divides into parts, a token each, and the fragments are those of the parts: every token but the
end of the text is shown as its source, in its style, and what lies between tokens has no style. -/
theorem highlight_preserves_text (line : Text) :
    (highlight line).flatMap Fragment.text = line
      ∧ (line ≠ [] → (∀ c ∈ line, startsLine c = false) → ∀ tokens, tokenize line 1 = .ok tokens →
        ∃ parts, Divides line tokens parts ∧ highlight line = fragmentsOf parts) := by
  refine ⟨?_, fun notEmpty oneLine tokens cut => exists_divides notEmpty oneLine cut⟩
  unfold highlight
  split
  · rename_i empty
    rw [List.isEmpty_iff.mp empty]
    rfl
  split
  · exact flatMap_text_fragmentsFrom line 0 _
  · exact List.append_nil _

/-- A call with a template, and a comment behind it, which belongs to no token. -/
theorem highlight_preserves_text_of_call :
    let line : Text := "f(`a`) //"
    let tokens : List Token := [⟨.identifier, "f", 1, 1, false⟩, ⟨.leftParen, "(", 1, 2, false⟩,
      ⟨.template, "a", 1, 3, false⟩, ⟨.rightParen, ")", 1, 6, false⟩,
      ⟨.endOfText, [], 1, 10, false⟩]
    tokenize line 1 = .ok tokens ∧ line ≠ [] ∧ (∀ c ∈ line, startsLine c = false)
      ∧ (highlight line).flatMap Fragment.text = line
      ∧ (∃ parts, Divides line tokens parts ∧ highlight line = fragmentsOf parts)
      ∧ highlight line = [⟨.function, "f"⟩, ⟨.plain, "("⟩, ⟨.string, "`a`"⟩, ⟨.plain, ")"⟩,
        ⟨.plain, " //"⟩] := by
  intro line tokens
  have cut : tokenize line 1 = .ok tokens := Except.eq_ok_of_toOption (by decide +kernel)
  have oneLine : ∀ c ∈ line, startsLine c = false := by decide
  obtain ⟨whole, divides⟩ := highlight_preserves_text line
  exact ⟨cut, by decide, oneLine, whole, divides (by decide) oneLine tokens cut, by decide +kernel⟩

/-! ## What a completion replaces -/

/-- The part of the text before the cursor that a completion **takes the place of**. -/
def Completion.replaced (c : Completion) (before : Text) : Text :=
  before.drop (before.length + c.start).toNat

/-! ## The order of names -/

/-- The order in which names are offered is the lexicographic one. -/
theorem isAtMost_iff (s t : Text) : isAtMost s t = true ↔ s < t ∨ s = t := by
  induction s generalizing t with
  | nil =>
    cases t with
    | nil => exact ⟨fun _ => .inr rfl, fun _ => by unfold isAtMost; rfl⟩
    | cons b t => exact ⟨fun _ => .inl (List.nil_lt_cons b t), fun _ => by unfold isAtMost; rfl⟩
  | cons a s ih =>
    cases t with
    | nil => exact ⟨nofun, fun h => h.elim nofun nofun⟩
    | cons b t =>
      unfold isAtMost
      rw [List.cons_lt_cons_iff, List.cons.injEq, Bool.or_eq_true, Bool.and_eq_true,
        decide_eq_true_iff, beq_iff_eq, ih, and_or_left, or_assoc]

theorem nodup_eraseDups [BEq α] [LawfulBEq α] (items : List α) : items.eraseDups.Nodup := by
  -- Behind the first item all that are the same are left out, so what is left is shorter.
  induction length : items.length using Nat.strongRecOn generalizing items with
  | ind n ih =>
    cases items with
    | nil => exact List.nodup_nil
    | cons a rest =>
      have shorter : (rest.filter fun b => !b == a).length < n := by
        rw [← length, List.length_cons]
        exact Nat.lt_succ_of_le (List.length_filter_le _ _)
      rw [List.eraseDups_cons, List.nodup_cons]
      refine ⟨fun again => ?_, ih _ shorter _ rfl⟩
      have other := (List.mem_filter.mp (List.mem_eraseDups.mp again)).2
      rw [beq_self_eq_true] at other
      cases other

/-- What is offered as a word is a bound name or a keyword. -/
theorem mem_offeredWords {bound : List Text} {name : Text} :
    name ∈ offeredWords bound ↔ name ∈ bound ∨ name ∈ keywords.map Prod.fst := by
  unfold offeredWords
  rw [List.mem_mergeSort, List.mem_eraseDups, List.mem_append]

/-- **Words are offered in order**, and each once. -/
theorem offeredWords_sorted (bound : List Text) : (offeredWords bound).Pairwise (· < ·) := by
  have ordered : (offeredWords bound).Pairwise fun s t => s < t ∨ s = t := by
    refine (List.pairwise_mergeSort (fun s t u hst htu => ?_) (fun s t => ?_) _).imp
      fun h => (isAtMost_iff _ _).mp h
    · rw [isAtMost_iff] at hst htu ⊢
      rcases hst with hst | rfl
      · exact .inl (htu.elim hst.trans fun same => same ▸ hst)
      · exact htu
    · rw [Bool.or_eq_true, isAtMost_iff, isAtMost_iff]
      rcases lt_trichotomy s t with first | same | second
      · exact .inl (.inl first)
      · exact .inl (.inr same)
      · exact .inr (.inl second)
  have once : (offeredWords bound).Nodup :=
    (List.mergeSort_perm _ _).nodup_iff.mpr (nodup_eraseDups _)
  exact (List.pairwise_and_iff.mpr ⟨ordered, once⟩).imp fun h => h.1.resolve_right h.2

/-! ## Where the word is -/

/-- A text has a last line feed, which is left out, or else nothing is left out of it. -/
theorem withoutFinalNewline_cases (text : Text) :
    text = withoutFinalNewline text ++ [('\n' : CodePoint)]
      ∨ text.getLast? ≠ some ('\n' : CodePoint) ∧ withoutFinalNewline text = text := by
  unfold withoutFinalNewline
  by_cases last : text.getLast? = some ('\n' : CodePoint)
  · obtain ⟨front, rfl⟩ := List.getLast?_eq_some_iff.mp last
    rw [last, beq_self_eq_true, if_pos rfl, List.dropLast_concat]
    exact .inl rfl
  · rw [if_neg (by rw [beq_iff_eq]; exact last)]
    exact .inr ⟨last, rfl⟩

/-- The word at the end of a text stands there, in front of a last line feed, and all of its code
points may be part of a name. -/
theorem wordAtEnd_stands (text : Text) :
    wordAtEnd text <:+ withoutFinalNewline text
      ∧ ∀ c ∈ wordAtEnd text, continuesName c = true := by
  have run : ((withoutFinalNewline text).reverse.takeWhile continuesName).reverse
      <:+ withoutFinalNewline text := by
    rw [← List.reverse_prefix, List.reverse_reverse]
    exact List.takeWhile_prefix _
  have part : wordAtEnd text
      <:+ ((withoutFinalNewline text).reverse.takeWhile continuesName).reverse :=
    List.dropWhile_suffix _
  refine ⟨part.trans run, fun c hc => ?_⟩
  exact List.all_eq_true.mp List.all_takeWhile c (List.mem_reverse.mp (part.subset hc))

/-! ## Completions -/

/-- The names that go on from a word are offered in front of it. -/
theorem mem_completeWord {bound : List Text} {word : Text} {c : Completion} :
    c ∈ completeWord bound word ↔
      ∃ name ∈ offeredWords bound, word <+: name ∧ name ≠ word ∧ c = ⟨name, -word.length, []⟩ := by
  unfold completeWord
  simp only [List.mem_map, List.mem_filter, Bool.and_eq_true, List.isPrefixOf_iff_prefix, bne_iff_ne,
    and_assoc, @eq_comm _ c]

/-- **A completion goes on from what stands at the end** of the text, in front of a last line
feed: it has no line feed in it, its length tells where it starts, and what is offered starts
with it. -/
theorem exists_of_mem_completions {bound : List Text} {before : Text} {c : Completion}
    (h : c ∈ completions bound before) :
    ∃ word, word <:+ withoutFinalNewline before ∧ word ≠ [] ∧ ('\n' : CodePoint) ∉ word
      ∧ c.start = -word.length ∧ word <+: c.text := by
  unfold completions at h
  split at h
  · rename_i slash
    -- A text that a command starts with holds no line feed, for no command does.
    obtain ⟨command, hcommand, rfl⟩ := List.mem_map.mp h
    have starts := List.isPrefixOf_iff_prefix.mp (List.mem_filter.mp hcommand).2
    have noFeed : ('\n' : CodePoint) ∉ before := fun feed =>
      absurd (starts.subset feed) (by cases command <;> decide)
    have whole : withoutFinalNewline before = before := by
      rcases withoutFinalNewline_cases before with feed | ⟨-, whole⟩
      · exact absurd (feed ▸ List.mem_append_right _ List.mem_cons_self) noFeed
      · exact whole
    refine ⟨before, whole.symm ▸ List.suffix_rfl, fun empty => ?_, noFeed, rfl, starts⟩
    rw [empty] at slash
    cases slash
  · dsimp only at h
    split at h
    · cases h
    rename_i notEmpty
    obtain ⟨name, -, starts, -, rfl⟩ := mem_completeWord.mp h
    obtain ⟨stands, part⟩ := wordAtEnd_stands before
    refine ⟨wordAtEnd before, stands, fun empty => notEmpty ?_, fun feed => ?_, rfl, starts⟩
    · rw [empty]; rfl
    · exact absurd (part _ feed) (by decide +kernel)

/-- What is taken out in place of what a text ends with is just that. -/
theorem replaced_eq_of_suffix {c : Completion} {text word : Text} (stands : word <:+ text)
    (start : c.start = -word.length) : c.replaced text = word := by
  obtain ⟨front, rfl⟩ := stands
  unfold Completion.replaced
  rw [start, List.length_append, show ((front.length + word.length : Nat) : Int) + -word.length
    = (front.length : Nat) by omega, Int.toNat_natCast, List.drop_left]

/-- What is taken out one code point too far on is not what a name starts with. -/
theorem not_prefix_of_shifted {word name : Text} (notEmpty : word ≠ [])
    (noFeed : ('\n' : CodePoint) ∉ word) (starts : word <+: name) :
    ¬ word.drop 1 ++ [('\n' : CodePoint)] <+: name := by
  intro shifted
  have length : (word.drop 1 ++ [('\n' : CodePoint)]).length = word.length := by
    have := List.length_pos_iff.mpr notEmpty
    rw [List.length_append, List.length_drop, List.length_singleton]
    omega
  -- Both are as long as each other and start the same name.
  have same := (List.prefix_of_prefix_length_le shifted starts (Nat.le_of_eq length)).eq_of_length
    length
  exact noFeed (same ▸ List.mem_append_right _ List.mem_cons_self)

/-- Completions take the place of something, and of no more than there is. -/
theorem completions_start {bound : List Text} {before : Text} {c : Completion}
    (h : c ∈ completions bound before) : c.start < 0 ∧ -c.start ≤ before.length := by
  obtain ⟨word, stands, notEmpty, -, start, -⟩ := exists_of_mem_completions h
  have pos := List.length_pos_iff.mpr notEmpty
  have le := stands.length_le
  have within : (withoutFinalNewline before).length ≤ before.length := by
    rcases withoutFinalNewline_cases before with feed | ⟨-, whole⟩
    · rw [congrArg List.length feed, List.length_append]
      exact Nat.le_add_right _ _
    · exact Nat.le_of_eq (congrArg List.length whole)
  omega

/-- Completions are in order, and each is offered once. -/
theorem completions_sorted (bound : List Text) (before : Text) :
    ((completions bound before).map Completion.text).Pairwise (· < ·) := by
  unfold completions
  split
  · -- The commands are few; all of them are in order, and so are those that are offered.
    have ordered : (Command.all.map Command.name).Pairwise (· < ·) := by decide
    unfold completeCommand
    rw [List.map_map]
    exact ordered.sublist (List.filter_sublist.map _)
  · dsimp only
    split
    · exact .nil
    · unfold completeWord
      rw [List.map_map, show Completion.text ∘ _ = id from rfl, List.map_id]
      exact (offeredWords_sorted bound).filter _

/-- Up to a last line feed, what is taken out is what is gone on from. -/
theorem replaced_withoutFinalNewline {bound : List Text} {before : Text} {c : Completion}
    (h : c ∈ completions bound before) : c.replaced (withoutFinalNewline before) <+: c.text := by
  obtain ⟨word, stands, -, -, start, starts⟩ := exists_of_mem_completions h
  rwa [replaced_eq_of_suffix stands start]

/-- With a last line feed, what is taken out is not what is gone on from. -/
theorem not_replaced_of_getLast? {bound : List Text} {before : Text} {c : Completion}
    (h : c ∈ completions bound before) (last : before.getLast? = some ('\n' : CodePoint)) :
    ¬ c.replaced before <+: c.text := by
  obtain ⟨word, ⟨front, same⟩, notEmpty, noFeed, start, starts⟩ := exists_of_mem_completions h
  rcases withoutFinalNewline_cases before with feed | ⟨noLast, -⟩
  · -- The part that is taken out starts behind the first code point of the word.
    have whole : before = (front ++ word.take 1) ++ (word.drop 1 ++ [('\n' : CodePoint)]) := by
      rw [List.append_assoc, ← List.append_assoc (word.take 1), List.take_append_drop,
        ← List.append_assoc, same]
      exact feed
    have shifted : c.replaced before = word.drop 1 ++ [('\n' : CodePoint)] := by
      refine replaced_eq_of_suffix ⟨_, whole.symm⟩ (start.trans ?_)
      have := List.length_pos_iff.mpr notEmpty
      rw [List.length_append, List.length_drop, List.length_singleton]
      omega
    rw [shifted]
    exact not_prefix_of_shifted notEmpty noFeed starts
  · exact absurd last noLast

/-- **Completions extend what was typed**, up to a last line feed. Whatever stands before the cursor
and whatever names are bound, each completion takes the place of something and of no more than there
is; they are in order, each name once; and what stands at the end of the text in front of a last line
feed, as many code points as are taken out, is what the name starts with. So the part that is taken
out is what the name starts with for all of the completions just where there are none or where the
text has no last line feed. -/
theorem completions_extend (bound : List Text) (before : Text) :
    (∀ c ∈ completions bound before, c.start < 0 ∧ -c.start ≤ before.length)
      ∧ ((completions bound before).map Completion.text).Pairwise (· < ·)
      ∧ (∀ c ∈ completions bound before, c.replaced (withoutFinalNewline before) <+: c.text)
      ∧ ((∀ c ∈ completions bound before, c.replaced before <+: c.text)
        ↔ completions bound before = [] ∨ before.getLast? ≠ some ('\n' : CodePoint)) := by
  refine ⟨fun c hc => completions_start hc, completions_sorted bound before,
    fun c hc => replaced_withoutFinalNewline hc, fun all => ?_, ?_⟩
  · cases offered : completions bound before with
    | nil => exact .inl rfl
    | cons c more =>
      have hc : c ∈ completions bound before := by rw [offered]; exact List.mem_cons_self
      exact .inr fun last => not_replaced_of_getLast? hc last (all c hc)
  · rintro (none | noLast) c hc
    · rw [none] at hc
      cases hc
    · have prefixed := replaced_withoutFinalNewline hc
      rcases withoutFinalNewline_cases before with feed | ⟨-, whole⟩
      · exact absurd (List.getLast?_eq_some_iff.mpr ⟨_, feed⟩) noLast
      · rwa [whole] at prefixed

/-- With a line feed behind a word, the part that is taken out is not what is gone on from. -/
theorem not_replaced_prefix_of_lineFeed :
    ∃ c ∈ completions [] "re\n", c.text = "return" ∧ c.replaced "re\n" = "e\n"
      ∧ ¬ c.replaced "re\n" <+: c.text := by
  have word : wordAtEnd "re\n" = "re" := by decide +kernel
  have offered : (⟨"return", -2, []⟩ : Completion) ∈ completions [] "re\n" := by
    unfold completions
    rw [if_neg (by decide), word]
    dsimp only
    rw [if_neg (by decide)]
    exact mem_completeWord.mpr ⟨"return", mem_offeredWords.mpr (.inr (by decide)), by decide,
      by decide, rfl⟩
  exact ⟨_, offered, rfl, by decide, by decide⟩

end Scriptlet.Console
