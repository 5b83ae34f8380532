import Scriptlet.Number.Numeral
import Scriptlet.Store
import Scriptlet.Token.Escape

/-!
# Contexts given as JSON

The names a program starts with can be given as a JSON object. The reader takes
the usual liberties: `NaN`, `Infinity` and `-Infinity` are numbers, a lone
surrogate may be written as an escape, and a repeated key keeps its first place
and its last value. An integer stays an integer, whatever its size.

Where a text is no JSON, the message says what was expected and at which line,
column and offset.

The arrays and objects of a context become new lists and objects in the store, and
its numbers stay what they are.
-/

namespace Scriptlet

/-- A **JSON value**. The keys of an object are all different. -/
inductive Json where
  | null
  | bool (b : Bool)
  | number (n : Number)
  | text (t : Text)
  | array (items : List Json)
  | object (members : List (Text × Json))

/-- Why a text was not read. -/
inductive JsonFailure where
  /-- It is no JSON: what is wrong, and at which offset. -/
  | malformed (reason : Text) (offset : Nat)
  /-- A number in it cannot be converted. -/
  | unmet (u : Unmet)

/-- The message for a failure at an offset of a text, with its line and column. -/
def malformedMessage (source : Text) (reason : Text) (offset : Nat) : Text :=
  let before := source.take offset
  let newline : CodePoint := '\n'
  let line := before.count newline + 1
  let column := (before.reverse.takeWhile (· != newline)).length + 1
  reason ++ ": line " ++ Text.ofNat line ++ " column " ++ Text.ofNat column
    ++ " (char " ++ Text.ofNat offset ++ ")"

namespace Json

/-- What is left of a text, and the offset of its start. -/
structure Cursor where
  /-- The rest of the text. -/
  rest : Text
  /-- The number of code points before it. -/
  offset : Nat

/-- The cursor `n` code points on. -/
def Cursor.skip (c : Cursor) (n : Nat) : Cursor :=
  ⟨c.rest.drop n, c.offset + n⟩

/-- The blanks of JSON. -/
def isBlank (c : CodePoint) : Bool :=
  c == ' ' || c == '\t' || c == '\n' || c == '\r'

/-- The cursor after blanks. -/
def Cursor.skipBlanks (c : Cursor) : Cursor :=
  c.skip (c.rest.takeWhile isBlank).length

/-- Whether the rest of the text starts with a code point. -/
def Cursor.at (c : Cursor) (x : CodePoint) : Bool :=
  c.rest.head? == some x

/-- The result of reading a part of the text. -/
abbrev Reading (α : Type) := Except JsonFailure (α × Cursor)

/-- Fails for a reason at an offset. -/
def fail (reason : String) (offset : Nat) : Except JsonFailure α :=
  .error (.malformed reason offset)

/-! ## Strings -/

/-- What a letter after a backslash stands for, but for `u`. -/
def escaped? (c : CodePoint) : Option CodePoint :=
  if c == doubleQuote || c == '\\' || c == '/' then some c
  else if c == 'b' then some 0x08
  else if c == 'f' then some 0x0C
  else if c == 'n' then some 0x0A
  else if c == 'r' then some 0x0D
  else if c == 't' then some 0x09
  else none

/-- The second half of a surrogate pair, read from the escape after a high
surrogate. The escape is only looked at where something follows it. -/
def readLow (high : Nat) (start : Cursor) : Except JsonFailure (CodePoint × Nat) :=
  if 0xD800 ≤ high && high < 0xDC00 && 6 < start.rest.length
      && ("\\u" : Text).isPrefixOf start.rest then
    match hexPrefix? 4 (start.rest.drop 2) with
    | none => fail "Invalid \\uXXXX escape" (start.offset + 1)
    | some low =>
      if 0xDC00 ≤ low ∧ low < 0xE000 then
        .ok (0x10000 + (high - 0xD800) * 0x400 + (low - 0xDC00), 6)
      else .ok (high, 0)
  else .ok (high, 0)

/-- The code point of an escape by number, whose digits start at the cursor, and
how many code points it takes. -/
def readCode (digits : Cursor) : Except JsonFailure (CodePoint × Nat) :=
  if digits.rest.length ≤ 4 then fail "Invalid \\uXXXX escape" (digits.offset - 1)
  else
    match hexPrefix? 4 digits.rest with
    | none => fail "Invalid \\uXXXX escape" (digits.offset - 1)
    | some code => do
      let (joined, used) ← readLow code (digits.skip 4)
      return (joined, used + 4)

/-- Reads a string after its opening quote, which stands at offset `start`;
`read` holds what has been read, backwards. -/
def readString (start : Nat) : Nat → Text → Cursor → Reading Text
  | 0, _, _ => fail "Unterminated string starting at" start
  | steps + 1, read, cursor =>
    match cursor.rest with
    | [] => fail "Unterminated string starting at" start
    | c :: rest =>
      if c == doubleQuote then .ok (read.reverse, cursor.skip 1)
      else if c == '\\' then
        match rest with
        | [] => fail "Unterminated string starting at" start
        | d :: _ =>
          if d == 'u' then
            match readCode (cursor.skip 2) with
            | .error e => .error e
            | .ok (code, used) => readString start steps (code :: read) (cursor.skip (used + 2))
          else
            match escaped? d with
            | some meaning => readString start steps (meaning :: read) (cursor.skip 2)
            | none => fail "Invalid \\escape" cursor.offset
      else if c ≤ 0x1F then fail "Invalid control character at" cursor.offset
      else readString start steps (c :: read) (cursor.skip 1)

/-! ## Numbers -/

/-- The length of the fraction of a number, 0 if there is none. -/
def fractionLength (t : Text) : Nat :=
  match t with
  | c :: d :: _ =>
    if c == '.' && Text.isPlainDigit d then 1 + ((t.drop 1).takeWhile Text.isPlainDigit).length else 0
  | _ => 0

/-- The length of the exponent of a number, 0 if there is none. -/
def exponentLength (t : Text) : Nat :=
  match t with
  | c :: d :: _ =>
    if c == 'e' || c == 'E' then
      let sign := if d == '+' || d == '-' then 1 else 0
      let digits := ((t.drop (1 + sign)).takeWhile Text.isPlainDigit).length
      if digits == 0 then 0 else 1 + sign + digits
    else 0
  | _ => 0

/-- Reads a number; anything else is not a value. -/
def readNumber (cursor : Cursor) : Reading Json :=
  let sign := if cursor.at '-' then 1 else 0
  let t := cursor.rest.drop sign
  let digits := (t.takeWhile Text.isPlainDigit).length
  let whole := if t.head? == some ('0' : CodePoint) then 1 else digits
  if digits == 0 then fail "Expecting value" cursor.offset
  else
    let fraction := fractionLength (t.drop whole)
    let exponent := exponentLength (t.drop (whole + fraction))
    let length := sign + whole + fraction + exponent
    let numeral := cursor.rest.take length
    if fraction + exponent == 0 then
      match intOfDigits (t.take whole) with
      | .error u => .error (.unmet u)
      | .ok n => .ok (.number (.int (if sign == 1 then -n else n)), cursor.skip length)
    else
      match numberOfText numeral with
      | .error u => .error (.unmet u)
      | .ok n => .ok (.number n, cursor.skip length)

/-! ## Values -/

/-- Puts a member into an object: a key that is there keeps its place. -/
def putMember (members : List (Text × Json)) (key : Text) (value : Json) : List (Text × Json) :=
  if members.any (·.1 == key) then
    members.map fun m => if m.1 == key then (key, value) else m
  else members ++ [(key, value)]

/-- The values that are written as one word. -/
def words : List (Text × Json) :=
  [("null", .null), ("true", .bool true), ("false", .bool false),
   ("NaN", .number (.float notANumber)), ("Infinity", .number (.float infinity)),
   ("-Infinity", .number (.float (-infinity)))]

mutual

/-- Reads a **value**, nested at most as deep as the first argument says. -/
def readValue : Nat → Cursor → Reading Json
  | 0, cursor => fail "Expecting value" cursor.offset
  | steps + 1, cursor =>
    if cursor.at doubleQuote then
      match readString cursor.offset cursor.rest.length [] (cursor.skip 1) with
      | .error e => .error e
      | .ok (t, cursor) => .ok (.text t, cursor)
    else if cursor.at openBrace then
      let cursor := (cursor.skip 1).skipBlanks
      if cursor.at closeBrace then .ok (.object [], cursor.skip 1)
      else readMembers steps [] cursor
    else if cursor.at '[' then
      let cursor := (cursor.skip 1).skipBlanks
      if cursor.at ']' then .ok (.array [], cursor.skip 1)
      else readItems steps [] cursor
    else
      match words.find? fun word => word.1.isPrefixOf cursor.rest with
      | some (word, value) => .ok (value, cursor.skip word.length)
      | none => readNumber cursor

/-- Reads the items of an array from one item on; those read are given backwards. -/
def readItems : Nat → List Json → Cursor → Reading Json
  | 0, _, cursor => fail "Expecting value" cursor.offset
  | steps + 1, items, cursor =>
    match readValue steps cursor with
    | .error e => .error e
    | .ok (item, cursor) =>
      let cursor := cursor.skipBlanks
      if cursor.at ']' then .ok (.array (item :: items).reverse, cursor.skip 1)
      else if cursor.at ',' then readItems steps (item :: items) (cursor.skip 1).skipBlanks
      else fail "Expecting ',' delimiter" cursor.offset

/-- Reads the members of an object from one member on. -/
def readMembers : Nat → List (Text × Json) → Cursor → Reading Json
  | 0, _, cursor => fail "Expecting value" cursor.offset
  | steps + 1, members, cursor =>
    if cursor.at doubleQuote then
      match readString cursor.offset cursor.rest.length [] (cursor.skip 1) with
      | .error e => .error e
      | .ok (key, cursor) =>
        let cursor := cursor.skipBlanks
        if cursor.at ':' then
          match readValue steps (cursor.skip 1).skipBlanks with
          | .error e => .error e
          | .ok (value, cursor) =>
            let cursor := cursor.skipBlanks
            let members := putMember members key value
            if cursor.at closeBrace then .ok (.object members, cursor.skip 1)
            else if cursor.at ',' then readMembers steps members (cursor.skip 1).skipBlanks
            else fail "Expecting ',' delimiter" cursor.offset
        else fail "Expecting ':' delimiter" cursor.offset
    else fail "Expecting property name enclosed in double quotes" cursor.offset

end

/-- Reads a text that is **one JSON value** with blanks around it. -/
def read (source : Text) : Except JsonFailure Json :=
  if source.head? == some 0xFEFF then fail "Unexpected UTF-8 BOM (decode using utf-8-sig)" 0
  else
    match readValue (2 * source.length + 2) (Cursor.skipBlanks ⟨source, 0⟩) with
    | .error e => .error e
    | .ok (value, cursor) =>
      let cursor := cursor.skipBlanks
      if cursor.rest.isEmpty then .ok value else fail "Extra data" cursor.offset

end Json

/-! ## Contexts -/

mutual

/-- The **value** of a JSON value, and the store that holds its parts. -/
def Json.toValue (s : Store) : Json → Value × Store
  | .null => (.null, s)
  | .bool b => (.bool b, s)
  | .number n => (.number n, s)
  | .text t => (.text t, s)
  | .array items =>
    let (values, s) := Json.toValues s items
    let (ref, s) := s.newList values
    (.list ref, s)
  | .object members =>
    let (entries, s) := Json.toEntries s members
    let (ref, s) := s.newObject entries
    (.object ref, s)

/-- The values of JSON values. -/
def Json.toValues (s : Store) : List Json → List Value × Store
  | [] => ([], s)
  | x :: rest =>
    let (v, s) := Json.toValue s x
    let (values, s) := Json.toValues s rest
    (v :: values, s)

/-- The entries of the members of a JSON object. -/
def Json.toEntries (s : Store) : List (Text × Json) → Entries × Store
  | [] => ([], s)
  | (key, x) :: rest =>
    let (v, s) := Json.toValue s x
    let (entries, s) := Json.toEntries s rest
    ((.text key, v) :: entries, s)

end

/-- The **context** with the members of a JSON object. -/
def Store.newContext (s : Store) (members : List (Text × Json)) : ObjectRef × Store :=
  let (entries, s) := Json.toEntries s members
  s.newObject entries

end Scriptlet
