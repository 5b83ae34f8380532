import Scriptlet.Proofs.Phrase.Grammar

/-!
# The ends of lines that matter

The end of a line is no token, and most of the grammar does not know of it. Three productions
do. A step, `++` or `--`, belongs to the operand before it only on the line on which that ends; a
return has a value only if it begins on the line of the word; and the sign of an arrow belongs on
the line of its parameters. Each looks for itself, in code of its own, at the token behind which
the line may not end.

That they all look is shown for every list of tokens that forms a program, however deep in it
they are: the tokens are divided into phrases that form the program, and every phrase heeds the
ends of lines. There is one exception. Parameters in parentheses are found by a search that ends
at an arrow on the same line, but for a bare name nothing asks whether the arrow is.
-/

namespace Scriptlet

open Reader

/-- **The ends of lines that matter.** Tokens that form a program, up to the end of the text, are
those of a phrase that forms the program, and in all parts of the phrase the ends of lines are
heeded: a step after an operand stands on the line on which that ends, and a value that is
returned begins on the line of its word. The sign of an arrow is not on a new line either, if its
parameters stand in parentheses. Where it is on one, it stands directly behind a name. -/
theorem parseTokens_keepsToLines {tokens : List Token} {program : Node}
    (accepted : parseTokens tokens = .ok program) :
    (∃ whole : Phrase, whole.tokens = beforeEnd tokens ∧ Forms [whole] [program]
      ∧ whole.KeepsToLines)
    ∧ ArrowsStandBehindNames (beforeEnd tokens) := by
  obtain ⟨statements, rest, reads, rfl⟩ := statements_of_readProgram accepted
  have ended := head_of_manyUntil_check reads
  have ends : HasEnd tokens := by
    refine (balanced_of_parseTokens accepted).1 ?_
    rintro rfl
    cases reads
  have takes : (manyUntil (check .endOfText) (readRule (depthFor tokens) .statement)
      tokens.length).Takes tokens SpellAll :=
    .spellManyUntil (fun _ => .check) fun inner => readRule_spells _ .statement inner trivial
  obtain ⟨taken, split, proper, phrases, rfl, forms, keeps⟩ := takes ends statements rest reads
  -- No token that was taken is the end, so what was taken is all that comes before it.
  have before : beforeEnd tokens = Phrase.tokensOf phrases := by
    rw [split, beforeEnd, List.takeWhile_append_of_pos fun t ht => by simpa using proper t ht]
    have none : rest.takeWhile (·.kind != .endOfText) = [] := beforeEnd_of_ended ended
    rw [none, List.append_nil]
  rw [before]
  refine ⟨⟨.plain .program phrases, by rw [Phrase.tokens], ?_, ?_⟩,
    forms.arrowsStandBehindNames keeps⟩
  · exact .plain (head tokens) ⟨by decide, fun returns => absurd returns (by decide)⟩ forms .nil
  · exact Phrase.keepsToLines_iff.mpr ⟨trivial, keeps⟩

/-- The tokens of an arrow with a block in which its parameter is stepped and returned. -/
def stepTokens : List Token :=
  [⟨.leftParen, "(", 1, 1, false⟩, ⟨.identifier, "x", 1, 2, false⟩, ⟨.rightParen, ")", 1, 3, false⟩,
    ⟨.arrow, "=>", 1, 5, false⟩, ⟨.leftBrace, [openBrace], 1, 8, false⟩,
    ⟨.returnWord, "return", 2, 3, true⟩, ⟨.identifier, "x", 2, 10, false⟩,
    ⟨.increment, "++", 2, 11, false⟩, ⟨.rightBrace, [closeBrace], 3, 1, true⟩,
    ⟨.endOfText, [], 3, 2, false⟩]

/-- An arrow that steps its parameter and returns it keeps to the lines. -/
theorem parseTokens_keepsToLines_of_step :
    ∃ program, parseTokens stepTokens = .ok program
      ∧ ∃ whole : Phrase, whole.tokens = beforeEnd stepTokens ∧ Forms [whole] [program]
        ∧ whole.KeepsToLines :=
  ⟨_, rfl, (parseTokens_keepsToLines rfl).1⟩

/-- The tokens of an arrow on a new line, behind a bare name. -/
def bareTokens : List Token :=
  [⟨.identifier, "x", 1, 1, false⟩, ⟨.arrow, "=>", 2, 1, true⟩, ⟨.number, "1", 2, 4, false⟩,
    ⟨.endOfText, [], 2, 5, false⟩]

/-- **An arrow may be on a new line** behind a bare name. -/
theorem arrow_on_new_line_of_bareTokens :
    (∃ program, parseTokens bareTokens = .ok program)
      ∧ ∃ t ∈ bareTokens, t.kind = .arrow ∧ t.newlineBefore = true :=
  ⟨⟨_, rfl⟩, _, .tail _ (.head _), rfl, rfl⟩

end Scriptlet
