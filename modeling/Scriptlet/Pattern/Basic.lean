import Scriptlet.Number.Binary64
import Scriptlet.Pattern.CharTest

/-!
# Patterns

A pattern describes texts. It is built from tests of single code points and
conditions on a place by sequence, choice and repetition; a group notes what it
matched, and later parts can refer to it. Which way a choice or a repetition goes
first is part of the pattern, because only the first way that leads to a match
counts.

The *width* of a pattern is the least and the greatest number of code points it
can match. What looks behind has to have one width only.
-/

namespace Scriptlet

/-- A condition on a place in the text. -/
inductive Anchor where
  /-- The start of the text. -/
  | textStart
  /-- The start of a line. -/
  | lineStart
  /-- The end of the text, or just before a line feed that ends it. -/
  | textEnd
  /-- The end of a line. -/
  | lineEnd
  /-- The very end of the text. -/
  | lastEnd
  /-- Where a word starts or ends, or, negated, where none does. -/
  | boundary (asciiOnly negated : Bool)
  deriving DecidableEq, Repr

/-- How a repetition goes about it. -/
inductive RepeatStyle where
  /-- As often as possible first. -/
  | greedy
  /-- As rarely as possible first. -/
  | lazy
  /-- As often as possible, and no other way. -/
  | possessive
  deriving DecidableEq, Repr

/-- A **pattern**. -/
inductive Pattern where
  /-- The empty text. -/
  | empty
  /-- One pattern and then another. -/
  | seq (first rest : Pattern)
  /-- One pattern or, failing that, another. -/
  | alt (first rest : Pattern)
  /-- One code point that passes a test. -/
  | char (test : CharTest)
  /-- A condition on the place. -/
  | anchor (condition : Anchor)
  /-- A pattern whose match is noted under a number. -/
  | group (number : Nat) (body : Pattern)
  /-- A pattern several times over. -/
  | many (style : RepeatStyle) (least : Nat) (most : Option Nat) (body : Pattern)
  /-- A condition on the text ahead or, given the width of the pattern, behind. -/
  | look (behind : Option (Nat × Nat)) (negated : Bool) (body : Pattern)
  /-- A pattern for which the first way to match is the only one. -/
  | atomic (body : Pattern)
  /-- What a group matched. -/
  | backref (folding : Folding) (number : Nat)
  /-- One pattern if a group matched, another if not. -/
  | ifGroup (number : Nat) (yes no : Pattern)
  deriving DecidableEq, Repr

namespace Pattern

/-- The greatest width that is told from others. -/
def maxWidth : Nat := twoTo 64

/-- The **width** of a pattern, given those of the groups by number. -/
def width (groups : Nat → Nat × Nat) : Pattern → Nat × Nat
  | empty => (0, 0)
  | anchor _ => (0, 0)
  | look .. => (0, 0)
  | char _ => (1, 1)
  | seq first rest =>
    let (a, b) := first.width groups
    let (c, d) := rest.width groups
    (min (a + c) maxWidth, min (b + d) maxWidth)
  | alt first rest =>
    let (a, b) := first.width groups
    let (c, d) := rest.width groups
    (min a c, max b d)
  | group _ body => body.width groups
  | atomic body => body.width groups
  | many _ least most body =>
    let (a, b) := body.width groups
    let top := match most with
      | none => if b == 0 then 0 else maxWidth
      | some n => b * n
    (min (a * least) maxWidth, min top maxWidth)
  | backref _ number => groups number
  | ifGroup _ yes no =>
    let (a, b) := yes.width groups
    let (c, d) := no.width groups
    (min a c, max b d)

/-- Patterns one after another. -/
def sequence : List Pattern → Pattern
  | [] => empty
  | [p] => p
  | p :: q :: rest => seq p (sequence (q :: rest))

/-- A choice among patterns, the first first. -/
def choice : List Pattern → Pattern
  | [] => empty
  | [p] => p
  | p :: q :: rest => alt p (choice (q :: rest))

end Pattern

end Scriptlet
