import Scriptlet.Pattern.Scan
import Scriptlet.Token.Escape

/-!
# Escapes in patterns

A backslash and a letter are a class, a condition on the place, a control
character or a code point by number or by name; a backslash and digits are a
reference to a group or a code point by its octal number. Other letters are
refused, and everything else stands for itself.
-/

namespace Scriptlet

open PatternReader

/-- What is read as one item of a sequence. -/
structure Piece where
  /-- Whether it is a condition on the place, which cannot be repeated. -/
  isAnchor : Bool
  /-- Whether it is a repetition, which cannot be repeated again. -/
  isRepeat : Bool
  /-- The pattern itself. -/
  pattern : Pattern

/-- An item that can be repeated. -/
def Piece.plain (p : Pattern) : Piece := ⟨false, false, p⟩

/-- How letters are compared under the given flags. -/
def foldingOf (flags : List CodePoint) : Folding :=
  if flags.contains 'i' then (if flags.contains 'a' then .ascii else .unicode) else .exact

/-- Whether the classes hold code points of ASCII only. -/
def asciiOf (flags : List CodePoint) : Bool :=
  flags.contains 'a'

/-- The item for a given code point. -/
def literalPiece (flags : List CodePoint) (c : CodePoint) : Piece :=
  .plain (.char (.literal (foldingOf flags) c false))

/-- The class that a letter after a backslash names. -/
def classOf? (c : CodePoint) : Option SetMember :=
  if c == 'd' then some (.charClass .digit false)
  else if c == 'D' then some (.charClass .digit true)
  else if c == 's' then some (.charClass .blank false)
  else if c == 'S' then some (.charClass .blank true)
  else if c == 'w' then some (.charClass .word false)
  else if c == 'W' then some (.charClass .word true)
  else none

/-- The condition that a letter after a backslash names. -/
def anchorOf? (flags : List CodePoint) (c : CodePoint) : Option Anchor :=
  if c == 'A' then some .textStart
  else if c == 'Z' then some .lastEnd
  else if c == 'b' then some (.boundary (asciiOf flags) false)
  else if c == 'B' then some (.boundary (asciiOf flags) true)
  else none

/-- The code point that a letter after a backslash stands for. -/
def controlEscape? (c : CodePoint) : Option CodePoint :=
  if c == 'a' then some 0x07
  else if c == 'b' then some 0x08
  else if c == 'f' then some 0x0C
  else if c == 'n' then some 0x0A
  else if c == 'r' then some 0x0D
  else if c == 't' then some 0x09
  else if c == 'v' then some 0x0B
  else if c == '\\' then some '\\'
  else none

/-- A digit of an octal number. -/
def isOctal (c : CodePoint) : Bool :=
  '0'.toNat ≤ c && c ≤ '7'.toNat

/-- A letter of ASCII. -/
def isPlainLetter (c : CodePoint) : Bool :=
  ('a'.toNat ≤ c && c ≤ 'z'.toNat) || ('A'.toNat ≤ c && c ≤ 'Z'.toNat)

/-- The value of octal digits. -/
def valueOfOctal (digits : Text) : Nat :=
  digits.foldl (fun n c => 8 * n + (c - '0'.toNat)) 0

/-- Reads an escape by hexadecimal number that takes `width` digits. -/
def readHexEscape (escape : Text) (width : Nat) : PatternReader CodePoint := do
  let digits ← takeWhile (fun c => (hexValue? c).isSome) width
  let whole := escape ++ digits
  if digits.length != width then fail (.incompleteEscape whole) whole.length
  else
    let code := (valueOfHex? digits).getD 0
    if 0x10FFFF < code then fail (.badEscape whole) whole.length else return code

/-- Reads an escape by the name of a character. -/
def readNamedEscape : PatternReader CodePoint := do
  if ← accept [openBrace] then
    let name ← takeUntil [closeBrace] "character name" [] (← room)
    match (← get).characterNamed? name with
    | some c => return c
    | none => fail (.unknownCharacterName name) (name.length + 4)
  else fail (.missing [openBrace]) 0

/-- Reads what follows the letter of an escape by number or name, if it is one. -/
def readCodeEscape? (escape : Text) (c : CodePoint) : PatternReader (Option CodePoint) := do
  if c == 'x' then return some (← readHexEscape escape 2)
  else if c == 'u' then return some (← readHexEscape escape 4)
  else if c == 'U' then return some (← readHexEscape escape 8)
  else if c == 'N' then return some (← readNamedEscape)
  else return none

/-- Reads an escape **in a set**: a class or a code point. -/
def readSetEscape (escape : Text) : PatternReader SetMember := do
  let c := escape.getD 1 0
  match controlEscape? c with
  | some code => return .single code
  | none =>
    match classOf? c with
    | some member => return member
    | none =>
      match ← readCodeEscape? escape c with
      | some code => return .single code
      | none =>
        if isOctal c then
          let whole := escape ++ (← takeWhile isOctal 2)
          let code := valueOfOctal (whole.drop 1)
          if 0o377 < code then fail (.octalTooLarge whole) whole.length else return .single code
        else if Text.isPlainDigit c || isPlainLetter c then fail (.badEscape escape) escape.length
        else return .single c

/-- Reads a reference to a group by its number. -/
def readReference (flags : List CodePoint) (escape : Text) : PatternReader Piece := do
  let number := valueOfDecimals (escape.drop 1)
  if number < (← get).groups then
    if ← isClosed number then
      checkBehind number
      return .plain (.backref (foldingOf flags) number)
    else fail .openGroupReference escape.length
  else fail (.invalidReference number) (escape.length - 1)

/-- Reads an escape that starts with a digit other than zero: three octal digits
are a code point, one or two digits a reference. -/
def readDigitEscape (flags : List CodePoint) (escape : Text) : PatternReader Piece := do
  if ← nextIs Text.isPlainDigit then
    let two := escape ++ ((← take).getD [])
    if (two.drop 1).all isOctal && (← nextIs isOctal) then
      let three := two ++ ((← take).getD [])
      let code := valueOfOctal (three.drop 1)
      if 0o377 < code then fail (.octalTooLarge three) three.length
      else return literalPiece flags code
    else readReference flags two
  else readReference flags escape

/-- Reads an escape **outside sets**. -/
def readEscapePiece (flags : List CodePoint) (escape : Text) : PatternReader Piece := do
  let c := escape.getD 1 0
  match anchorOf? flags c with
  | some condition => return ⟨true, false, .anchor condition⟩
  | none =>
    match classOf? c with
    | some member => return .plain (.char (.ofSet (foldingOf flags) (asciiOf flags) [member] false))
    | none =>
      match controlEscape? c with
      | some code => return literalPiece flags code
      | none =>
        match ← readCodeEscape? escape c with
        | some code => return literalPiece flags code
        | none =>
          if c == '0' then
            return literalPiece flags (valueOfOctal (← takeWhile isOctal 2))
          else if Text.isPlainDigit c then readDigitEscape flags escape
          else if isPlainLetter c then fail (.badEscape escape) escape.length
          else return literalPiece flags c

end Scriptlet
