import Scriptlet.Interrupt

/-!
# Reports of errors

An error of a program or of its spelling is reported with its message and, where its
line is known and the source has such a line, with that line and a caret below the
column. Other interrupts are not reported.
-/

namespace Scriptlet

/-- A **report** of an error. -/
structure Report where
  /-- What is wrong. -/
  message : Text
  /-- The line. -/
  line : Option Int
  /-- The column. -/
  column : Option Int
  deriving DecidableEq, Repr

namespace Report

/-- The line of a source with a given number, if there is one. -/
def sourceLine? (source : Text) (line : Int) : Option Text :=
  if 1 ≤ line then (Text.lines source)[line.toNat - 1]? else none

/-- A caret below a column. -/
def caret (column : Int) : Text :=
  List.replicate (column - 1).toNat (' ' : CodePoint) ++ "^"

/-- A report **as it is shown**, next to the source it is about. -/
def render (r : Report) (source : Option Text) : Text :=
  let text := "Error: " ++ r.message
  match source, r.line with
  | some source, some line =>
    match sourceLine? source line with
    | none => text
    | some shown =>
      text ++ "\n  " ++ shown ++
        match r.column with
        | none => ([] : Text)
        | some column => "\n  " ++ caret column
  | _, _ => text

end Report

/-- The report of an interrupt that is reported. -/
def Interrupt.report? : Interrupt → Option Report
  | .error e =>
    some ⟨e.message, e.position.map Position.line, e.position.bind Position.column⟩
  | .malformed e => some ⟨e.message, e.place?.map Place.line, e.place?.map fun p => p.column⟩
  | _ => none

end Scriptlet
