import Scriptlet.Text.Alphabetic
import Scriptlet.Text.Blank
import Scriptlet.Text.Casing
import Scriptlet.Text.Digit

/-!
# Tests of a single code point

The smallest patterns ask one question of one code point: whether it is a given
one, whether it belongs to a class, whether it is in a set. Where case is
ignored, the question is put to the lower case of the code point, and what it is
compared with is brought to lower case as well; the few letters that are equal
without sharing a lower case, such as the two small sigmas, are listed.
-/

namespace Scriptlet

/-- How letters are compared. -/
inductive Folding where
  /-- As they are. -/
  | exact
  /-- Without regard to case, for the letters of ASCII only. -/
  | ascii
  /-- Without regard to case. -/
  | unicode
  deriving DecidableEq, Repr

namespace Folding

/-- The lower case of a letter of ASCII. -/
def lowerAscii (c : CodePoint) : CodePoint :=
  if 'A'.toNat ≤ c ∧ c ≤ 'Z'.toNat then c + 32 else c

/-- The code point by which `c` is compared. -/
def fold : Folding → CodePoint → CodePoint
  | exact, c => c
  | ascii, c => lowerAscii c
  | unicode, c => Text.lowerOne c

/-- Whether `c` has a counterpart in the other case. -/
def isCased : Folding → CodePoint → Bool
  | exact, _ => false
  | ascii, c => lowerAscii c != c || ('a'.toNat ≤ c && c ≤ 'z'.toNat)
  | unicode, c => Text.hasCase c

/-- Groups of lower-case letters that are equal without regard to case. -/
def kin : List (List CodePoint) :=
  [[0x69, 0x131], [0x73, 0x17F], [0xB5, 0x3BC], [0x345, 0x3B9, 0x1FBE], [0x390, 0x1FD3],
   [0x3B0, 0x1FE3], [0x3B2, 0x3D0], [0x3B5, 0x3F5], [0x3B8, 0x3D1], [0x3BA, 0x3F0],
   [0x3C0, 0x3D6], [0x3C1, 0x3F1], [0x3C2, 0x3C3], [0x3C6, 0x3D5], [0x432, 0x1C80],
   [0x434, 0x1C81], [0x43E, 0x1C82], [0x441, 0x1C83], [0x442, 0x1C84, 0x1C85], [0x44A, 0x1C86],
   [0x463, 0x1C87], [0x1C88, 0xA64B], [0x1E61, 0x1E9B], [0xFB05, 0xFB06]]

/-- A folded code point and those that equal it. -/
def equals (folding : Folding) (folded : CodePoint) : List CodePoint :=
  match folding with
  | unicode => (kin.find? (·.contains folded)).getD [folded]
  | _ => [folded]

/-- The code points that fold to `folded`. -/
def sources (folding : Folding) (folded : CodePoint) : List CodePoint :=
  match folding with
  | exact => [folded]
  | ascii =>
    if 'a'.toNat ≤ folded ∧ folded ≤ 'z'.toNat then [folded, folded - 32]
    else if lowerAscii folded = folded then [folded] else []
  | unicode => Text.lowerPreimages folded

end Folding

/-- The classes that have an escape of their own. -/
inductive CharClass where
  | digit | blank | word
  deriving DecidableEq, Repr

/-- Whether a code point is in a class; the classes of ASCII hold no others. -/
def CharClass.contains (asciiOnly : Bool) (c : CodePoint) : CharClass → Bool
  | digit => if asciiOnly then Text.isPlainDigit c else Text.isDecimal c
  | blank => if asciiOnly then (0x09 ≤ c && c ≤ 0x0D) || c == 0x20 else Text.isBlank c
  | word => Text.isWordPart c && (!asciiOnly || c < 128)

/-- A member of a set. -/
inductive SetMember where
  /-- One code point. -/
  | single (c : CodePoint)
  /-- All code points from one to another. -/
  | range (first last : CodePoint)
  /-- A class, or all code points outside it. -/
  | charClass (cls : CharClass) (negated : Bool)
  deriving DecidableEq, Repr

namespace SetMember

/-- Whether the member holds a code point with case. Members beyond the first
65536 code points are taken to. -/
def isCased (folding : Folding) : SetMember → Bool
  | single c => folding.isCased c || 0xFFFF < c
  | range first last =>
    0xFFFF < last || (List.range (last + 1 - first)).any fun i => folding.isCased (first + i)
  | charClass .. => false

/-- Whether a folded code point equals one of a range without regard to case. -/
def rangeEquals (folding : Folding) (first last folded : CodePoint) : Bool :=
  (folding.equals folded).any fun x =>
    (folding.sources x).any fun source => first ≤ source && source ≤ last

/-- Whether the member holds the code point that folds to `folded`. Beyond the
first 65536 code points a single one stands for itself only, and a range is asked
for either case. -/
def contains (folding : Folding) (asciiOnly : Bool) (folded : CodePoint) : SetMember → Bool
  | charClass cls negated => cls.contains asciiOnly folded != negated
  | single c =>
    match folding with
    | .exact => folded == c
    | _ => if 0xFFFF < c then folded == c else (folding.equals (folding.fold c)).contains folded
  | range first last =>
    match folding with
    | .exact => first ≤ folded && folded ≤ last
    | _ =>
      rangeEquals folding first (min last 0xFFFF) folded
        || (0xFFFF < last && ((first ≤ folded && folded ≤ last)
          || (first ≤ Text.upperOne folded && Text.upperOne folded ≤ last)))

end SetMember

/-- A **test of a code point**. -/
inductive CharTest where
  /-- Any code point, or any but a line feed. -/
  | any (lineFeed : Bool)
  /-- Whether the code point folds to one of those listed, or to none of them. -/
  | oneOf (folding : Folding) (folded : List CodePoint) (negated : Bool)
  /-- Whether a set holds the code point, or does not. -/
  | set (folding : Folding) (asciiOnly : Bool) (members : List SetMember) (negated : Bool)
  deriving DecidableEq, Repr

namespace CharTest

/-- The test for a given code point. -/
def literal (folding : Folding) (c : CodePoint) (negated : Bool) : CharTest :=
  if folding.isCased c then .oneOf folding (folding.equals (folding.fold c)) negated
  else .oneOf .exact [c] negated

/-- The test for a set of members. -/
def ofSet (folding : Folding) (asciiOnly : Bool) (members : List SetMember) (negated : Bool) :
    CharTest :=
  .set (if members.any (·.isCased folding) then folding else .exact) asciiOnly members negated

/-- Whether a code point **passes** a test. -/
def passes (c : CodePoint) : CharTest → Bool
  | any lineFeed => lineFeed || c != '\n'
  | oneOf folding folded negated => folded.contains (folding.fold c) != negated
  | set folding asciiOnly members negated =>
    members.any (·.contains folding asciiOnly (folding.fold c)) != negated

end CharTest

end Scriptlet
