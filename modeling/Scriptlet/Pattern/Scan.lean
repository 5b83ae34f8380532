import Scriptlet.Pattern.Basic
import Scriptlet.Pattern.Error
import Scriptlet.Number.Numeral
import Scriptlet.Text.Identifier

/-!
# Scanning the text of a pattern

The text of a pattern is scanned one sign at a time, where a backslash and the
code point after it are one sign. The scanner is always one sign ahead, so a
backslash at the very end is noticed as soon as the sign before it is taken.

Besides its place, the scanner keeps what the reader of patterns has to know of
the part already read: the groups, their names and widths. The names of characters
that a pattern may use are given from outside.
-/

namespace Scriptlet

/-- The **state of the scanner**. -/
structure PatternScan where
  /-- The text after the next sign. -/
  rest : Text
  /-- The offset of that text. -/
  index : Nat
  /-- The next sign. -/
  next : Option Text
  /-- The number of groups opened so far, the whole match included. -/
  groups : Nat
  /-- The names of groups. -/
  names : List (Text × Nat)
  /-- The widths of the groups that are closed. -/
  widths : List (Nat × (Nat × Nat))
  /-- The number of groups when the outermost condition on the text behind was
  opened, inside one. -/
  behindGroups : Option Nat
  /-- The groups that conditions refer to by number, with the offset of the first
  such reference. -/
  tested : List (Nat × Nat)
  /-- The letters of the flags that hold for the whole pattern. -/
  flags : List CodePoint
  /-- The characters that the pattern may call by a name. -/
  characterNamed? : Text → Option CodePoint

/-- A reader of a part of a pattern. -/
abbrev PatternReader (α : Type) := StateT PatternScan (Except PatternError) α

namespace PatternReader

/-- The offset of the next sign. -/
def tell : PatternReader Nat := do
  let s ← get
  return s.index - (s.next.getD []).length

/-- Fails with a flaw `back` code points before the next sign. -/
def fail (flaw : PatternFlaw) (back : Nat) : PatternReader α := do
  throw (.flawed flaw (some ((← tell) - back)))

/-- Moves on by a sign. -/
def advance : PatternReader Unit := do
  let s ← get
  match s.rest with
  | [] => set { s with next := none }
  | c :: rest =>
    if c == '\\' then
      match rest with
      | [] => throw (.flawed .openEscape (some s.index))
      | d :: rest => set { s with rest := rest, index := s.index + 2, next := some [c, d] }
    else set { s with rest := rest, index := s.index + 1, next := some [c] }

/-- The next sign. -/
def peek : PatternReader (Option Text) := do
  return (← get).next

/-- Takes the next sign. -/
def take : PatternReader (Option Text) := do
  let sign ← peek
  advance
  return sign

/-- Takes the next sign if it is the given one. -/
def accept (sign : Text) : PatternReader Bool := do
  if (← peek) == some sign then
    advance
    return true
  else return false

/-- Whether the next sign is a single code point that satisfies `p`. -/
def nextIs (p : CodePoint → Bool) : PatternReader Bool := do
  match ← peek with
  | some [c] => return p c
  | _ => return false

/-- Takes at most `n` signs that are single code points satisfying `p`. -/
def takeWhile (p : CodePoint → Bool) : Nat → PatternReader Text
  | 0 => return []
  | n + 1 => do
    if ← nextIs p then
      let sign ← take
      return sign.getD [] ++ (← takeWhile p n)
    else return []

/-- The number of code points left, which bounds every loop. -/
def room : PatternReader Nat := do
  let s ← get
  return s.rest.length + 3

/-- Takes signs up to a terminator, which is taken as well; `read` are those taken
before, and `n` bounds their number. The text must not be empty. -/
def takeUntil (terminator what : Text) (read : Text) : Nat → PatternReader Text
  | 0 => fail (.missing what) 0
  | n + 1 => do
    match ← take with
    | none =>
      if read.isEmpty then fail (.missing what) 0
      else fail (.missingUnterminated terminator) read.length
    | some sign =>
      if sign == terminator then
        if read.isEmpty then fail (.missing what) 1 else return read
      else takeUntil terminator what (read ++ sign) n

/-! ## Groups -/

/-- Whether a group is closed. -/
def isClosed (number : Nat) : PatternReader Bool := do
  return ((← get).widths.lookup number).isSome

/-- Opens a group, with a name if it has one; answers its number. -/
def openGroup (name : Option Text) : PatternReader Nat := do
  let s ← get
  let number := s.groups
  match name with
  | none => set { s with groups := number + 1 }
  | some name =>
    match s.names.lookup name with
    | some former => fail (.redefinedGroup name number former) (name.length + 1)
    | none => set { s with groups := number + 1, names := (name, number) :: s.names }
  return number

/-- The width of a pattern that refers to closed groups only. -/
def widthOf (p : Pattern) : PatternReader (Nat × Nat) := do
  let s ← get
  return p.width fun number => (s.widths.lookup number).getD (0, 0)

/-- Closes a group with the given body. -/
def closeGroup (number : Nat) (body : Pattern) : PatternReader Unit := do
  let width ← widthOf body
  modify fun s => { s with widths := (number, width) :: s.widths }

/-- Inside a condition on the text behind, only groups that were closed before it
may be referred to. -/
def checkBehind (number : Nat) : PatternReader Unit := do
  match (← get).behindGroups with
  | none => return ()
  | some limit =>
    if !(← isClosed number) then fail .openGroupReference 0
    else if limit ≤ number then fail .sameLookbehindReference 0
    else return ()

/-- The name of a group must be an identifier. -/
def checkName (name : Text) : PatternReader Unit := do
  if name.isIdentifier then return () else fail (.badGroupName name) (name.length + 1)

/-- The group of a given name, whose text has just been taken. -/
def groupNamed (name : Text) : PatternReader Nat := do
  match (← get).names.lookup name with
  | some number => return number
  | none => fail (.unknownGroupName name) (name.length + 1)

end PatternReader

end Scriptlet
