import Scriptlet.Demand
import Scriptlet.Text.Quoted

/-!
# Errors in patterns

A malformed pattern is reported with a reason and, in most cases, the offset of
the trouble; where the pattern has several lines, the line and the column follow.
-/

namespace Scriptlet

/-- What is wrong with the text of a pattern. -/
inductive PatternFlaw where
  | openEscape | badEscape (escape : Text) | incompleteEscape (escape : Text)
  | octalTooLarge (escape : Text) | missing (what : Text) | missingUnterminated (terminator : Text)
  | unknownCharacterName (name : Text)
  | openGroupReference | sameLookbehindReference | invalidReference (number : Nat)
  | badGroupName (name : Text) | unknownGroupName (name : Text) | zeroGroupNumber
  | redefinedGroup (name : Text) (number former : Nat)
  | openSet | badRange (first last : Text)
  | nothingToRepeat | multipleRepeat | crossedRepeat
  | endOfPattern | unknownExtension (extension : Text) | openComment | openSubpattern
  | extraBranches | lateFlags | unbalanced
  | localeFlag | incompatibleFlags | unknownFlag | missingFlag
  | globalFlagOn | globalFlagOff | flagOff | flagOnAndOff
  | farLookbehind | variableLookbehind | templateRepeat (operator : Text)
  deriving DecidableEq, Repr

/-- The wording of a flaw. -/
def PatternFlaw.message : PatternFlaw → Text
  | openEscape => "bad escape (end of pattern)"
  | badEscape escape => "bad escape " ++ escape
  | incompleteEscape escape => "incomplete escape " ++ escape
  | octalTooLarge escape => "octal escape value " ++ escape ++ " outside of range 0-0o377"
  | missing what => "missing " ++ what
  | missingUnterminated terminator => "missing " ++ terminator ++ ", unterminated name"
  | unknownCharacterName name => "undefined character name " ++ name.quoted
  | openGroupReference => "cannot refer to an open group"
  | sameLookbehindReference => "cannot refer to group defined in the same lookbehind subpattern"
  | invalidReference number => "invalid group reference " ++ Text.ofNat number
  | badGroupName name => "bad character in group name " ++ name.quoted
  | unknownGroupName name => "unknown group name " ++ name.quoted
  | zeroGroupNumber => "bad group number"
  | redefinedGroup name number former =>
    "redefinition of group name " ++ name.quoted ++ " as group " ++ Text.ofNat number
      ++ "; was group " ++ Text.ofNat former
  | openSet => "unterminated character set"
  | badRange first last => "bad character range " ++ first ++ "-" ++ last
  | nothingToRepeat => "nothing to repeat"
  | multipleRepeat => "multiple repeat"
  | crossedRepeat => "min repeat greater than max repeat"
  | endOfPattern => "unexpected end of pattern"
  | unknownExtension extension => "unknown extension ?" ++ extension
  | openComment => "missing ), unterminated comment"
  | openSubpattern => "missing ), unterminated subpattern"
  | extraBranches => "conditional backref with more than two branches"
  | lateFlags => "global flags not at the start of the expression"
  | unbalanced => "unbalanced parenthesis"
  | localeFlag => "bad inline flags: cannot use 'L' flag with a str pattern"
  | incompatibleFlags => "bad inline flags: flags 'a', 'u' and 'L' are incompatible"
  | unknownFlag => "unknown flag"
  | missingFlag => "missing flag"
  | globalFlagOn => "bad inline flags: cannot turn on global flag"
  | globalFlagOff => "bad inline flags: cannot turn off global flag"
  | flagOff => "bad inline flags: cannot turn off flags 'a', 'u' and 'L'"
  | flagOnAndOff => "bad inline flags: flag turned on and off"
  | farLookbehind => "looks too much behind"
  | variableLookbehind => "look-behind requires fixed-width pattern"
  | templateRepeat operator => "internal: unsupported template operator " ++ operator

/-- Why a text is no pattern. -/
inductive PatternError where
  /-- A flaw, with the offset of the trouble where it has one. -/
  | flawed (flaw : PatternFlaw) (offset : Option Nat)
  /-- A demand that is not met. -/
  | unmet (u : Unmet)
  deriving DecidableEq, Repr

/-- The **message** for a flaw in the text of a pattern. -/
def PatternFlaw.report (flaw : PatternFlaw) (source : Text) (offset : Option Nat) : Text :=
  match offset with
  | none => flaw.message
  | some offset =>
    let newline : CodePoint := '\n'
    let before := source.take offset
    let column := (before.reverse.takeWhile (· != newline)).length + 1
    flaw.message ++ " at position " ++ Text.ofNat offset ++
      if source.contains newline then
        " (line " ++ Text.ofNat (before.count newline + 1) ++ ", column " ++ Text.ofNat column ++ ")"
      else ([] : Text)

end Scriptlet
