import Scriptlet.Text

/-!
# Escapes

What a backslash means in a string or a template. A letter may stand for a
control character, `\x41` and `\u0041` give a code point by its number, `\u{41}`
does so with any number of digits, and a backslash before the end of a line joins
it to the next. Two escapes of four digits that make a surrogate pair become one
code point. Everything that does not fit a rule stands for itself, without the
backslash.
-/

namespace Scriptlet

/-- The value of a hexadecimal digit, of either case. -/
def hexValue? (c : CodePoint) : Option Nat :=
  if '0'.toNat ≤ c ∧ c ≤ '9'.toNat then some (c - '0'.toNat)
  else if 'a'.toNat ≤ c ∧ c ≤ 'f'.toNat then some (c - 'a'.toNat + 10)
  else if 'A'.toNat ≤ c ∧ c ≤ 'F'.toNat then some (c - 'A'.toNat + 10)
  else none

/-- The value of a row of hexadecimal digits, all of which must be such. -/
def valueOfHex? (digits : Text) : Option Nat :=
  digits.foldlM (fun n c => (hexValue? c).map (16 * n + ·)) 0

/-- The value of the first `width` code points as hexadecimal digits. -/
def hexPrefix? (width : Nat) (t : Text) : Option Nat :=
  if t.length < width then none else valueOfHex? (t.take width)

/-- The control character that a letter after a backslash stands for. -/
def controlOf? (c : CodePoint) : Option CodePoint :=
  if c == 'n' then some 0x0A
  else if c == 't' then some 0x09
  else if c == 'r' then some 0x0D
  else if c == 'b' then some 0x08
  else if c == 'f' then some 0x0C
  else if c == 'v' then some 0x0B
  else if c == '0' then some 0
  else none

/-- What a high surrogate makes with the escape that follows it: the code point
of the pair and the length of that escape, or the surrogate alone. -/
def joinSurrogates (high : Nat) (rest : Text) : CodePoint × Nat :=
  if 0xD800 ≤ high ∧ high < 0xDC00 ∧ (("\\u" : Text).isPrefixOf rest) then
    match hexPrefix? 4 (rest.drop 2) with
    | some low =>
      if 0xDC00 ≤ low ∧ low < 0xE000 then (0x10000 + (high - 0xD800) * 0x400 + (low - 0xDC00), 6)
      else (high, 0)
    | none => (high, 0)
  else (high, 0)

/-- The code point of an escape with braces whose digits start the text, and how
many code points it takes, the closing brace included. -/
def bracedCode? (t : Text) : Option (CodePoint × Nat) :=
  let digits := t.takeWhile (· != closeBrace)
  if digits.length < t.length ∧ digits ≠ [] then
    match valueOfHex? digits with
    | some code => if code ≤ 0x10FFFF then some (code, digits.length + 1) else none
    | none => none
  else none

/-- What follows a backslash: the text it stands for, and how many code points of
it are used up. -/
def readEscape : Text → Text × Nat
  | [] => (['\\'], 0)
  | c :: rest =>
    match controlOf? c with
    | some control => ([control], 1)
    | none =>
      if c == 'x' then
        match hexPrefix? 2 rest with
        | some code => ([code], 3)
        | none => ([c], 1)
      else if c == 'u' then
        if rest.head? == some openBrace then
          match bracedCode? (rest.drop 1) with
          | some (code, used) => ([code], used + 2)
          | none => ([c], 1)
        else
          match hexPrefix? 4 rest with
          | some code =>
            let (joined, used) := joinSurrogates code (rest.drop 4)
            ([joined], used + 5)
          | none => ([c], 1)
      else if c == '\r' then ([], if rest.head? == some ('\n' : CodePoint) then 2 else 1)
      else if c == '\n' || c == 0x2028 || c == 0x2029 then ([], 1)
      else ([c], 1)

/-- Replaces escapes; `used` code points still belong to the last one. -/
def unescapeFrom : Nat → Text → Text
  | _, [] => []
  | used + 1, _ :: rest => unescapeFrom used rest
  | 0, c :: rest =>
    if c == '\\' then
      let (meaning, used) := readEscape rest
      meaning ++ unescapeFrom used rest
    else c :: unescapeFrom 0 rest

/-- A text with its **escapes replaced** by what they stand for. -/
def unescape (t : Text) : Text :=
  unescapeFrom 0 t

end Scriptlet
