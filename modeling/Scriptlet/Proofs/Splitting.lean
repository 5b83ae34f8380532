import Scriptlet.Proofs.Nesting
import Scriptlet.Proofs.Pieces

/-!
# The parts of a template in its body

Two passes have to agree on where the expressions of a template are. One cuts the program
into tokens and looks for the backtick that ends the template; it passes over expressions on
its way. The other has only the body, between the backticks, and cuts out the expressions.

They agree because what an expression takes up is decided by the text of the expression, up
to its own closing brace. So the second pass finds each expression where the first has passed
over one, never fails, and splits the body into parts that *are laid out* in it: chunks,
expressions between them, and nothing else but the signs around an expression.

That no chunk opens an expression is said without reference to either pass: a backslash
hides what comes after it unless it is hidden itself, so what counts is how many backslashes
stand directly in front.
-/

namespace Scriptlet

/-! ## Clear texts -/

/-- The number of backslashes at the end of a text. -/
def Text.trailingBackslashes (t : Text) : Nat :=
  countWhile (· == '\\') t.reverse

/-- A text **hides what comes next** if it ends with an odd number of backslashes. -/
def Text.HidesNext (t : Text) : Prop :=
  t.trailingBackslashes % 2 = 1

/-- The sign that opens an expression in a template. -/
def dollarBrace : Text :=
  [('$' : CodePoint), openBrace]

/-- A text is **clear** if it does not open an expression: a dollar sign before a brace is
hidden wherever it stands. -/
def Text.IsClear (t : Text) : Prop :=
  ∀ before after : Text, t = before ++ dollarBrace ++ after → before.HidesNext

namespace Text

/-- A code point in front matters to the end only if nothing but backslashes follows it. -/
theorem trailingBackslashes_append (t u : Text) :
    (t ++ u).trailingBackslashes =
      if u.trailingBackslashes = u.length then u.length + t.trailingBackslashes
      else u.trailingBackslashes := by
  unfold trailingBackslashes countWhile
  rw [List.reverse_append, List.takeWhile_append, List.length_reverse]
  split
  · rw [List.length_append, List.length_reverse]
  · rfl

theorem hidesNext_cons {c : CodePoint} (plain : c ≠ '\\') (t : Text) :
    HidesNext (c :: t) ↔ t.HidesNext := by
  have none : trailingBackslashes [c] = 0 := by
    unfold trailingBackslashes countWhile
    rw [List.reverse_singleton, List.takeWhile_cons_of_neg (by simpa using plain)]
    rfl
  unfold HidesNext
  rw [show c :: t = [c] ++ t from rfl, trailingBackslashes_append, none]
  split
  · rename_i all
    rw [all]
    rfl
  · rfl

theorem hidesNext_escape (d : CodePoint) (t : Text) :
    HidesNext (('\\' : CodePoint) :: d :: t) ↔ t.HidesNext := by
  have even : trailingBackslashes [('\\' : CodePoint), d] % 2 = 0 := by
    unfold trailingBackslashes countWhile
    rw [show [('\\' : CodePoint), d].reverse = [d, ('\\' : CodePoint)] from rfl]
    by_cases hd : d = '\\'
    · subst hd
      rfl
    · rw [List.takeWhile_cons_of_neg (by simpa using hd)]
      rfl
  unfold HidesNext
  rw [show ('\\' : CodePoint) :: d :: t = [('\\' : CodePoint), d] ++ t from rfl,
    trailingBackslashes_append]
  split
  · rename_i all
    rw [all]
    omega
  · rfl

theorem isClear_nil : IsClear [] :=
  fun before after same => by cases before <;> cases same

/-- A clear text behind a code point is clear with it, unless the two open an expression. -/
theorem IsClear.cons {c : CodePoint} {t : Text} (h : t.IsClear) (plain : c ≠ '\\')
    (closed : c = '$' → t.head? ≠ some openBrace) : IsClear (c :: t) := by
  intro before after same
  cases before with
  | nil =>
    obtain ⟨rfl, rfl⟩ := List.cons.inj same
    exact absurd rfl (closed rfl)
  | cons d before =>
    obtain ⟨rfl, rest⟩ := List.cons.inj same
    exact (hidesNext_cons plain before).mpr (h before after rest)

/-- A clear text behind a backslash and what this hides is clear with them. -/
theorem IsClear.escape {t : Text} (h : t.IsClear) (d : CodePoint) :
    IsClear (('\\' : CodePoint) :: d :: t) := by
  intro before after same
  match before with
  | [] => cases (List.cons.inj same).1
  | [c] =>
    obtain ⟨rfl, -⟩ := List.cons.inj same
    rfl
  | c :: d' :: before =>
    obtain ⟨rfl, behind⟩ := List.cons.inj same
    obtain ⟨rfl, rest⟩ := List.cons.inj behind
    exact (hidesNext_escape d before).mpr (h before after rest)

end Text

/-! ## Bodies -/

/-- A text **is the body of a template**: a row of code points, of backslashes with what they
hide, and of expressions, each of which ends where its braces are closed. -/
inductive Text.IsBody : Text → Prop
  | nil : IsBody []
  | plain {c : CodePoint} {t : Text} (plain : c ≠ '\\')
    (closed : c = '$' → t.head? ≠ some openBrace) (more : IsBody t) : IsBody (c :: t)
  | escape (d : CodePoint) {t : Text} (more : IsBody t) : IsBody (('\\' : CodePoint) :: d :: t)
  | expression {source t : Text}
    (ends : bracesLength? (source ++ [closeBrace]) = some (source.length + 1))
    (more : IsBody t) : IsBody (dollarBrace ++ source ++ [closeBrace] ++ t)

/-- A text that goes on past a part of it keeps its last code point. -/
theorem Text.exists_of_concat_eq_append {t part more : Text} {c : CodePoint}
    (same : t ++ [c] = part ++ more) (some : more ≠ []) :
    ∃ more', more = more' ++ [c] ∧ t = part ++ more' := by
  obtain ⟨more', d, rfl⟩ := List.eq_nil_or_concat more |>.resolve_left some
  rw [List.concat_eq_append, ← List.append_assoc] at same
  obtain ⟨rfl, last⟩ := List.append_inj' same rfl
  cases last
  exact ⟨more', List.concat_eq_append .., rfl⟩

/-- What closes the braces of an expression **is its source and a closing brace**. -/
theorem Enclosure.Leads.exists_source {following read : Text}
    (h : Enclosure.Leads following [.braces 0] read []) :
    ∃ source, read = source ++ [closeBrace]
      ∧ bracesLength? (source ++ [closeBrace]) = some (source.length + 1) := by
  have measured : Enclosure.measure [.braces 0] 0 read = some read.length := by
    have anywhere := (h.elsewhere nofun []).measure_eq 0
    rwa [List.append_nil, Enclosure.measure_nil, Nat.zero_add] at anywhere
  have last := (Enclosure.recurs_measure measured).2
  rw [List.take_length] at last
  obtain ⟨source, rfl⟩ := List.getLast?_eq_some_iff.mp last
  rw [List.length_append] at measured
  exact ⟨source, rfl, measured⟩

/-- **What a backtick closes is a body.** -/
theorem Text.isBody_of_leads {following body : Text}
    (h : Enclosure.Leads following [.template] (body ++ [backtick]) []) : body.IsBody := by
  -- By induction on the length, since an expression takes up much of the body at once.
  induction hlength : body.length using Nat.strongRecOn generalizing body with
  | ind length ih =>
    cases body with
    | nil => exact .nil
    | cons c rest =>
      have shorter {t u : Text} (split : rest = u ++ t) : t.length < length := by
        have := congrArg List.length split
        rw [List.length_append] at this
        rw [← hlength, List.length_cons]
        omega
      obtain ⟨part, more, inner, whole, here, later⟩ := Enclosure.Leads.exists_step
        (show Enclosure.Leads following [.template] (c :: (rest ++ [backtick])) [] from h)
      rw [whole] at here
      rcases Enclosure.step?_template_cases here with ⟨rfl, two, rfl⟩ | ⟨rfl, one, rfl⟩ |
        ⟨rfl, brace, two, rfl⟩ | ⟨plain, closed, one, rfl⟩
      · obtain ⟨d, rfl⟩ := List.length_eq_one_iff.mp (Nat.succ.inj two)
        obtain ⟨t, rfl, split⟩ := exists_of_concat_eq_append whole later.ne_nil
        rw [split]
        exact .escape d (ih _ (shorter split) later rfl)
      · -- The text goes on behind this backtick, but with nothing open nothing more is read.
        obtain rfl := List.length_eq_zero_iff.mp (Nat.succ.inj one)
        cases later
        exact absurd whole (List.concat_ne_nil backtick rest)
      · obtain ⟨d, rfl⟩ := List.length_eq_one_iff.mp (Nat.succ.inj two)
        obtain rfl : d = openBrace := Option.some.inj brace
        obtain ⟨read, more, rfl, closes, outside⟩ := Enclosure.Leads.cut
          (show Enclosure.Leads following ([.braces 0] ++ [.template]) more [] from later)
        obtain ⟨source, rfl, ends⟩ := closes.exists_source
        rw [← List.append_assoc] at whole
        obtain ⟨t, rfl, split⟩ := exists_of_concat_eq_append whole outside.ne_nil
        rw [split]
        exact .expression ends (ih _ (shorter split) outside rfl)
      · obtain rfl := List.length_eq_zero_iff.mp (Nat.succ.inj one)
        refine .plain plain (fun dollar brace => closed dollar ?_)
          (ih _ (shorter (u := []) rfl) (by rwa [whole]) rfl)
        obtain ⟨t, rfl⟩ := List.head?_eq_some_iff.mp brace
        rw [← whole]
        rfl

/-! ## Parts in place -/

/-- The parts of a template **are laid out** in a text that stands at an offset: a chunk with
its escapes replaced, and so on, if an expression follows it, behind the sign for its start,
the expression itself, which ends where the braces that enclose it are closed, and their
closing brace. No chunk opens an expression. -/
inductive TemplateParts.LaidOut : Nat → Text → TemplateParts → Prop
  | last {offset : Nat} {chunk : Text} (clear : chunk.IsClear) :
    LaidOut offset chunk ⟨[unescape chunk], []⟩
  | next {offset : Nat} {chunk source rest : Text} {parts : TemplateParts}
    (clear : chunk.IsClear)
    (ends : bracesLength? (source ++ [closeBrace]) = some (source.length + 1))
    (more : LaidOut (offset + chunk.length + source.length + 3) rest parts) :
    LaidOut offset (chunk ++ dollarBrace ++ source ++ [closeBrace] ++ rest)
      ⟨unescape chunk :: parts.chunks,
        (source, offset + chunk.length + 2) :: parts.expressions⟩

/-- There is one more chunk than there are expressions. -/
theorem TemplateParts.LaidOut.length_chunks {offset : Nat} {body : Text} {parts : TemplateParts}
    (h : parts.LaidOut offset body) : parts.chunks.length = parts.expressions.length + 1 := by
  induction h with
  | last => rfl
  | next _ _ _ ih => rw [List.length_cons, List.length_cons, ih]

/-- Each expression ends where the braces that enclose it are closed. -/
theorem TemplateParts.LaidOut.ends {offset : Nat} {body : Text} {parts : TemplateParts}
    (h : parts.LaidOut offset body) : ∀ expression ∈ parts.expressions,
      bracesLength? (expression.1 ++ [closeBrace]) = some (expression.1.length + 1) := by
  induction h with
  | last => exact nofun
  | next _ ends _ ih =>
    intro expression member
    rcases List.mem_cons.mp member with rfl | member
    · exact ends
    · exact ih expression member

/-! ## Splitting -/

/-- Splitting passes over what belongs to an expression. -/
theorem splitTemplateFrom_hidden {offset hidden : Nat} {chunk t : Text} (h : hidden ≤ t.length) :
    splitTemplateFrom offset chunk hidden t =
      splitTemplateFrom (offset + hidden) chunk 0 (t.drop hidden) := by
  induction hidden generalizing offset t with
  | zero => rfl
  | succ hidden ih =>
    cases t with
    | nil => cases h
    | cons c rest =>
      rw [splitTemplateFrom, ih (Nat.le_of_succ_le_succ h), List.drop_succ_cons, Nat.add_assoc,
        Nat.add_comm 1]

theorem splitTemplateFrom_plain {offset : Nat} {chunk t : Text} {c : CodePoint}
    (plain : c ≠ '\\') (closed : c = '$' → t.head? ≠ some openBrace) :
    splitTemplateFrom offset chunk 0 (c :: t) = splitTemplateFrom (offset + 1) (c :: chunk) 0 t := by
  have none : ¬ (c == ('$' : CodePoint) && t.head? == some openBrace) = true := by
    rw [Bool.and_eq_true]
    exact fun opens => closed (beq_iff_eq.mp opens.1) (beq_iff_eq.mp opens.2)
  rw [splitTemplateFrom.eq_def]
  dsimp only
  rw [if_neg (by simpa using plain), if_neg none]

/-- Splitting cuts out an expression, with its offset, and starts the next chunk behind it. -/
theorem splitTemplateFrom_expression {offset : Nat} {chunk source t : Text} {parts : TemplateParts}
    (ends : bracesLength? (source ++ [closeBrace]) = some (source.length + 1))
    (more : splitTemplateFrom (offset + source.length + 3) [] 0 t = .ok parts) :
    splitTemplateFrom offset chunk 0 (dollarBrace ++ source ++ [closeBrace] ++ t) =
      .ok ⟨unescape chunk.reverse :: parts.chunks, (source, offset + 2) :: parts.expressions⟩ := by
  have found : bracesLength? (source ++ [closeBrace] ++ t) = some (source.length + 1) := by
    have closes := Enclosure.leads_of_measure_length (by rw [List.length_append]; exact ends) t
    have measured := closes.measure_eq 0
    rwa [Enclosure.measure_nil, Nat.zero_add, List.length_append] at measured
  have hidden : splitTemplateFrom (offset + 1) [] (source.length + 2)
      (openBrace :: (source ++ [closeBrace] ++ t)) = .ok parts := by
    rw [splitTemplateFrom_hidden (by simp), List.drop_succ_cons,
      List.drop_left' (by rw [List.length_append]; rfl), ← more]
    congr 1
    omega
  have whole : dollarBrace ++ source ++ [closeBrace] ++ t =
      ('$' : CodePoint) :: openBrace :: (source ++ [closeBrace] ++ t) := by
    simp [dollarBrace]
  rw [whole, splitTemplateFrom.eq_def]
  dsimp only
  have opens : (('$' : CodePoint) == '$' &&
      (openBrace :: (source ++ [closeBrace] ++ t)).head? == some openBrace) = true := rfl
  rw [if_neg (by decide), if_pos opens, List.drop_one, List.tail_cons, found]
  dsimp only
  rw [hidden]
  dsimp only
  rw [Nat.add_sub_cancel, List.append_assoc, List.take_left]

/-- **A body is split into the parts that are laid out in it.** `chunk` is what has been read
of the first chunk, backwards; it is clear with whatever clear text the body goes on with. -/
theorem splitTemplateFrom_laidOut {body : Text} (h : body.IsBody)
    {offset : Nat} {chunk : Text} (room : chunk.length ≤ offset)
    (clear : ∀ t : Text, t <+: body → t.IsClear → Text.IsClear (chunk.reverse ++ t)) :
    ∃ parts, splitTemplateFrom offset chunk 0 body = .ok parts
      ∧ parts.LaidOut (offset - chunk.length) (chunk.reverse ++ body) := by
  induction h generalizing offset chunk with
  | nil =>
    refine ⟨⟨[unescape chunk.reverse], []⟩, rfl, ?_⟩
    rw [List.append_nil]
    refine .last ?_
    rw [← List.append_nil chunk.reverse]
    exact clear [] List.nil_prefix Text.isClear_nil
  | @plain c t plain closed more ih =>
    obtain ⟨parts, same, laid⟩ := ih
      (show (c :: chunk).length ≤ offset + 1 from Nat.succ_le_succ room) fun u hu hclear => by
        rw [List.reverse_cons, List.append_assoc]
        refine clear (c :: u) ((List.prefix_cons_inj c).mpr hu) (hclear.cons plain fun dollar => ?_)
        -- A brace that starts the clear text stands behind the dollar sign in the body, too.
        cases u with
        | nil => exact nofun
        | cons d u =>
          obtain ⟨v, rfl⟩ := hu
          exact closed dollar
    refine ⟨parts, (splitTemplateFrom_plain plain closed).trans same, ?_⟩
    rwa [List.length_cons, Nat.add_sub_add_right, List.reverse_cons, List.append_assoc] at laid
  | @escape d t more ih =>
    obtain ⟨parts, same, laid⟩ := ih
      (show (d :: ('\\' : CodePoint) :: chunk).length ≤ offset + 2 from Nat.add_le_add_right room 2)
      fun u hu hclear => by
        rw [List.reverse_cons, List.reverse_cons, List.append_assoc, List.append_assoc]
        refine clear (('\\' : CodePoint) :: d :: u) ?_ (hclear.escape d)
        exact (List.prefix_cons_inj _).mpr ((List.prefix_cons_inj d).mpr hu)
    refine ⟨parts, same, ?_⟩
    rwa [List.length_cons, List.length_cons, Nat.add_sub_add_right, List.reverse_cons,
      List.reverse_cons, List.append_assoc, List.append_assoc] at laid
  | @expression source t ends more ih =>
    obtain ⟨parts, same, laid⟩ := ih
      (show ([] : Text).length ≤ offset + source.length + 3 from Nat.zero_le _) fun u _ hclear => hclear
    refine ⟨_, splitTemplateFrom_expression ends same, ?_⟩
    have clearChunk : Text.IsClear chunk.reverse := by
      rw [← List.append_nil chunk.reverse]
      exact clear [] List.nil_prefix Text.isClear_nil
    have laid : parts.LaidOut
        (offset - chunk.length + chunk.reverse.length + source.length + 3) t := by
      rwa [List.length_reverse, Nat.sub_add_cancel room]
    have whole := TemplateParts.LaidOut.next clearChunk ends laid
    rw [List.length_reverse, Nat.sub_add_cancel room] at whole
    rw [← List.append_assoc, ← List.append_assoc, ← List.append_assoc]
    exact whole

/-- A body is split into the parts that are laid out in it, from its start. -/
theorem splitTemplate_laidOut {body : Text} (h : body.IsBody) :
    ∃ parts, splitTemplate body = .ok parts ∧ parts.LaidOut 0 body :=
  splitTemplateFrom_laidOut h (Nat.le_refl 0) fun _ _ clear => clear

/-! ## The templates of a text -/

/-- A scan of a template **finds a body** between backticks. -/
theorem scan_isBody {regexpAllowed : Bool} {c : CodePoint} {rest : Text} {n : Nat}
    (h : scan regexpAllowed c rest = .ok (.token .template n)) :
    Text.IsBody (keptText .template ((c :: rest).take n)) := by
  obtain ⟨-, length⟩ := (scan_kind h).2 rfl
  obtain ⟨m, hm, rfl⟩ := Option.map_eq_some_iff.mp length
  obtain ⟨read, following, rfl, count, leads⟩ := Enclosure.leads_of_measure hm
  have last : read.getLast? = some backtick := by
    have last := (Enclosure.recurs_measure hm).2
    rwa [count, Nat.zero_add, List.take_left] at last
  obtain ⟨body, rfl⟩ := List.getLast?_eq_some_iff.mp last
  have kept : keptText .template ((c :: (body ++ [backtick] ++ following)).take (m + 1)) = body := by
    rw [count, Nat.zero_add, List.take_succ_cons, List.take_left, keptText, if_pos rfl,
      List.drop_one, List.tail_cons, List.dropLast_concat]
  rw [kept]
  exact Text.isBody_of_leads leads

/-- **Every template of a text has a body.** -/
theorem isBody_of_tokenize {source : Text} {line : Int} {tokens : List Token}
    (h : tokenize source line = .ok tokens) {token : Token} (member : token ∈ tokens)
    (template : token.kind = .template) : token.text.IsBody := by
  refine forall_of_tokenize (P := fun token => token.kind = .template → token.text.IsBody) ?_
    (fun _ _ _ => nofun) h token member template
  rintro _ _ _ _ _ found _ _ _ rfl
  exact scan_isBody found

/-- **Each template of a text is split into its parts.** The body of a template that a text has
been cut into never fails to be split. It is split into one more chunk than expressions, and
these are laid out in it: chunks with their escapes replaced, none of which opens an
expression, and between them the expressions as they are written, with their offsets. -/
theorem splits_templates {source : Text} {line : Int} {tokens : List Token}
    (h : tokenize source line = .ok tokens) :
    ∀ token ∈ tokens, token.kind = .template →
      ∃ parts, splitTemplate token.text = .ok parts
        ∧ parts.chunks.length = parts.expressions.length + 1
        ∧ parts.LaidOut 0 token.text := by
  intro token member template
  obtain ⟨parts, same, laid⟩ := splitTemplate_laidOut (isBody_of_tokenize h member template)
  exact ⟨parts, same, laid.length_chunks, laid⟩

/-- A template in which a dollar sign is hidden, with an expression that holds a brace in a
string and a template of its own. -/
theorem splits_templates_of_hidden_sign :
    ∃ tokens token parts, tokenize "`\\$\x7ba\x7d$\x7b '\x7d' + `$\x7bb\x7d` \x7d`" 1 = .ok tokens
      ∧ token ∈ tokens ∧ token.kind = .template
      ∧ splitTemplate token.text = .ok parts ∧ parts.LaidOut 0 token.text
      ∧ parts = ⟨["$\x7ba\x7d", ""], [(" '\x7d' + `$\x7bb\x7d` ", 7)]⟩ := by
  have cut : tokenize "`\\$\x7ba\x7d$\x7b '\x7d' + `$\x7bb\x7d` \x7d`" 1 =
      .ok [⟨.template, "\\$\x7ba\x7d$\x7b '\x7d' + `$\x7bb\x7d` \x7d", 1, 1, false⟩,
        ⟨.endOfText, [], 1, 25, false⟩] :=
    Except.eq_ok_of_toOption (by decide +kernel)
  have concrete : splitTemplate "\\$\x7ba\x7d$\x7b '\x7d' + `$\x7bb\x7d` \x7d" =
      .ok ⟨["$\x7ba\x7d", ""], [(" '\x7d' + `$\x7bb\x7d` ", 7)]⟩ :=
    Except.eq_ok_of_toOption (by decide +kernel)
  obtain ⟨parts, split, -, laid⟩ := splits_templates cut _ List.mem_cons_self rfl
  exact ⟨_, _, parts, cut, List.mem_cons_self, rfl, split, laid,
    Except.ok.inj (split.symm.trans concrete)⟩

end Scriptlet
