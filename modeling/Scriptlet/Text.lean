/-!
# Text as a sequence of code points

A program, and every string a program computes with, is a sequence of *code
points*: numbers from 0 to 0x10FFFF, of which a lone surrogate is one like any
other. Lengths, indices and columns all count code points. Lean's `String`
cannot hold a surrogate, so it is not the type of text here; it only spells
the fixed texts of the program, and `Text.ofString` brings those over.

Because a text is a list, what lists already offer (`++`, `take`, `drop`,
`isPrefixOf`, `reverse`, the lexicographic `<`) is the vocabulary of text as
well. This module adds the searches, cuts and joins that lists lack.
-/

namespace Scriptlet

/-- A **code point**: one character, or half of a surrogate pair. -/
abbrev CodePoint := Nat

/-- A **text**: code points in reading order. -/
abbrev Text := List CodePoint

/-- The code points of a string. -/
def Text.ofString (s : String) : Text :=
  s.toList.map Char.toNat

instance : Coe String Text := ⟨Text.ofString⟩

instance : Coe Char CodePoint := ⟨Char.toNat⟩

/-- The backtick. -/
def backtick : CodePoint := 0x60

/-- The single quote. -/
def singleQuote : CodePoint := 0x27

/-- The double quote. -/
def doubleQuote : CodePoint := 0x22

/-- The opening brace. -/
def openBrace : CodePoint := 0x7B

/-- The closing brace. -/
def closeBrace : CodePoint := 0x7D

namespace Text

/-- The decimal numeral of a natural number. -/
def ofNat (n : Nat) : Text :=
  ofString (toString n)

/-- The decimal numeral of an integer, with a minus sign where it is negative. -/
def ofInt (n : Int) : Text :=
  ofString (toString n)

/-! ## Cutting -/

/-- The code points from offset `start` up to, not including, offset `stop`. -/
def slice (t : Text) (start stop : Nat) : Text :=
  (t.drop start).take (stop - start)

theorem slice_self (t : Text) (n : Nat) : t.slice n n = [] := by
  rw [slice, Nat.sub_self, List.take_zero]

theorem slice_length (t : Text) (start : Nat) : t.slice start t.length = t.drop start := by
  rw [slice, ← List.length_drop, List.take_length]

theorem take_append_slice (t : Text) {start stop : Nat} (h : start ≤ stop) :
    t.take start ++ t.slice start stop = t.take stop := by
  rw [slice, ← List.take_add, Nat.add_sub_cancel' h]

theorem slice_append_drop (t : Text) {start stop : Nat} (h : start ≤ stop) :
    t.slice start stop ++ t.drop stop = t.drop start := by
  obtain ⟨n, rfl⟩ := Nat.exists_eq_add_of_le h
  rw [slice, Nat.add_sub_cancel_left, ← List.drop_drop, List.take_append_drop]

theorem slice_eq_of_prefix {t u : Text} {start : Nat} (h : u <+: t.drop start) :
    t.slice start (start + u.length) = u := by
  rw [slice, Nat.add_sub_cancel_left, ← List.prefix_iff_eq_take.mp h]

/-- `times` copies of a text, one after another. -/
def replicate (times : Nat) (t : Text) : Text :=
  (List.replicate times t).flatten

/-- Texts joined with a separator between neighbours. -/
def join (separator : Text) : List Text → Text
  | [] => []
  | [t] => t
  | t :: u :: rest => t ++ separator ++ join separator (u :: rest)

@[simp] theorem join_nil (separator : Text) : join separator [] = [] := rfl

@[simp] theorem join_singleton (separator t : Text) : join separator [t] = t := rfl

@[simp] theorem join_cons_cons (separator t u : Text) (rest : List Text) :
    join separator (t :: u :: rest) = t ++ separator ++ join separator (u :: rest) := rfl

/-! ## Searching -/

/-- The offset of the first occurrence of `needle`, counted from `base`. -/
def findFrom (needle : Text) (base : Nat) : Text → Option Nat
  | [] => if needle.isEmpty then some base else none
  | c :: rest =>
    if needle.isPrefixOf (c :: rest) then some base
    else findFrom needle (base + 1) rest

/-- The offset of the **first occurrence** of `needle`, if there is one. -/
def find? (t needle : Text) : Option Nat :=
  findFrom needle 0 t

/-- Whether `needle` occurs in the text; the empty text occurs in every text. -/
def hasInfix (t needle : Text) : Bool :=
  (t.find? needle).isSome

/-- Splits off pieces at a separator. `skip` counts the code points of a
separator still to be passed over, `piece` holds the open piece backwards. -/
def splitAux (separator : Text) : Nat → Text → Text → List Text
  | _, piece, [] => [piece.reverse]
  | skip + 1, piece, _ :: rest => splitAux separator skip piece rest
  | 0, piece, c :: rest =>
    if separator.isPrefixOf (c :: rest) then
      piece.reverse :: splitAux separator (separator.length - 1) [] rest
    else
      splitAux separator 0 (c :: piece) rest

/-- The **pieces between the occurrences** of a non-empty separator, which are
found from left to right without overlap. -/
def splitOn (t separator : Text) : List Text :=
  splitAux separator 0 [] t

/-- The offset of the last occurrence of a code point. -/
def lastIndexOf? (t : Text) (c : CodePoint) : Option Nat :=
  (t.reverse.findIdx? (· == c)).map (t.length - 1 - ·)

/-! ## Trimming and lines -/

/-- The text without the leading code points that satisfy `p`. -/
def trimLeft (p : CodePoint → Bool) (t : Text) : Text :=
  t.dropWhile p

/-- The text without the trailing code points that satisfy `p`. -/
def trimRight (p : CodePoint → Bool) (t : Text) : Text :=
  (t.reverse.dropWhile p).reverse

/-- The text without the code points at either end that satisfy `p`. -/
def trimBoth (p : CodePoint → Bool) (t : Text) : Text :=
  trimRight p (trimLeft p t)

/-- A **line boundary**: line feed, vertical tab, form feed, carriage return,
the three information separators 0x1C to 0x1E, next line, and the line and
paragraph separators. -/
def isLineBoundary (c : CodePoint) : Bool :=
  (0x0A ≤ c && c ≤ 0x0D) || (0x1C ≤ c && c ≤ 0x1E) || c == 0x85 || c == 0x2028 || c == 0x2029

/-- Collects lines; `line` holds the open line backwards and `afterReturn`
tells that a carriage return has just closed one. -/
def linesAux (line : Text) (afterReturn : Bool) : Text → List Text
  | [] => if line.isEmpty then [] else [line.reverse]
  | c :: rest =>
    if afterReturn && c == '\n' then linesAux [] false rest
    else if isLineBoundary c then line.reverse :: linesAux [] (c == '\r') rest
    else linesAux (c :: line) false rest

/-- The **lines** of a text without their boundaries. A carriage return and the
line feed after it are one boundary, and a boundary at the very end opens no
further line. -/
def lines (t : Text) : List Text :=
  linesAux [] false t

/-- Every carriage return, with the line feed after it if there is one, becomes
a single line feed. -/
def normalizeNewlines : Text → Text
  | [] => []
  | [c] => if c == '\r' then ['\n'] else [c]
  | c :: d :: rest =>
    if c == '\r' then
      if d == '\n' then '\n' :: normalizeNewlines rest
      else '\n' :: normalizeNewlines (d :: rest)
    else c :: normalizeNewlines (d :: rest)

end Text

end Scriptlet
