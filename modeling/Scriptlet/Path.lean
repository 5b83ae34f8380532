import Scriptlet.Demand
import Scriptlet.Text

/-!
# Paths

Whether a text names a file is for the file system to say, but for some texts the
answer is known before it is asked. A path is a sequence of names with slashes
between them; empty names and single points add nothing to it. The file system takes
no name of more than 255 bytes and no path of 4096 bytes or more: to look for one is
a fault. A text with a null character, or that cannot be written in bytes, is no
path at all.
-/

namespace Scriptlet.Path

/-- The number of bytes of a code point, if it can be written in bytes. A surrogate
from the range that stands for a stray byte is that byte; no other surrogate can. -/
def byteCount? (c : CodePoint) : Option Nat :=
  if c == 0 then none
  else if c < 0x80 then some 1
  else if c < 0x800 then some 2
  else if 0xDC80 ≤ c && c ≤ 0xDCFF then some 1
  else if 0xD800 ≤ c && c ≤ 0xDFFF then none
  else if c < 0x10000 then some 3
  else some 4

/-- The number of bytes of a text, if it can be written in bytes. -/
def byteLength? : Text → Option Nat
  | [] => some 0
  | c :: rest => do
    let first ← byteCount? c
    let others ← byteLength? rest
    return first + others

/-- The names that a path is made of. -/
def parts (path : Text) : List Text :=
  (Text.splitOn path "/").filter fun part => !part.isEmpty && part != "."

/-- Whether a path starts at the root. -/
def isAbsolute (path : Text) : Bool :=
  path.head? == some ('/' : CodePoint)

/-- A path in its plain form, without the names that add nothing to it. -/
def plain (path : Text) : Text :=
  (if isAbsolute path then ("/" : Text) else []) ++ Text.join "/" (parts path)

/-- The most bytes that a name may have. -/
def nameLimit : Nat := 255

/-- The fewest bytes of a path that is too long. -/
def pathLimit : Nat := 4096

/-- Whether a part of a path is too long for a name. -/
def isTooLong (part : Text) : Bool :=
  (byteLength? part).any (nameLimit < ·)

/-- **The path under which to look for a file**, if a text can be a path at all. The
file system is asked name by name, so it takes no offence at a long name inside of
something that is not there. -/
def lookupPath? (path : Text) : Except HostFault (Option Text) :=
  match byteLength? (plain path) with
  | none => .ok none
  | some n =>
    let inner := (parts path).dropWhile (· == (".." : Text))
    if pathLimit ≤ n || inner.head?.any isTooLong then .error .badFileName
    else if inner.isEmpty then .ok none
    else .ok (some (plain path))

end Scriptlet.Path
