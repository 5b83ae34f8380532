import Scriptlet.Text.Ranges

/-!
# Blanks

What trimming removes from the ends of a text, and what `\s` matches in a
pattern: the spaces of Unicode, the control characters that separate, and the
line and paragraph separators.
-/

namespace Scriptlet.Text

/-- The blanks, as ranges. -/
def blanks : Ranges :=
  ⟨#[
    0x9, 0xE, 0x1C, 0x21, 0x85, 0x86, 0xA0, 0xA1, 0x1680, 0x1681, 0x2000, 0x200B,
    0x2028, 0x202A, 0x202F, 0x2030, 0x205F, 0x2060, 0x3000, 0x3001]⟩

/-- Whether a code point is **blank**. -/
def isBlank (c : CodePoint) : Bool :=
  blanks.contains c

/-- The text without blanks at either end. -/
def trim (t : Text) : Text :=
  t.trimBoth isBlank

end Scriptlet.Text
