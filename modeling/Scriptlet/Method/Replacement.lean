import Scriptlet.Method.List

/-!
# Replacing matches

What is put in place of a match is either what a callback gives, which is told the
match, its groups, its offset and the whole text, or a template. In a template a
dollar sign introduces a reference: two of them are a dollar sign, `&` is the match,
a backtick and a single quote are the text before and after it, and one or two
digits are a group. A reference to a group that does not exist stands for itself.
-/

namespace Scriptlet

/-- The digits at the start of a text, two at most. -/
def groupDigits (t : Text) : Text :=
  (t.take 2).takeWhile Text.isDecimal

/-- What a reference stands for, given the text after its dollar sign, and how long it
is without that sign; none where there is no reference. -/
def Match.reference? (m : Match) (after : Text) : Option (Text × Nat) :=
  match after with
  | [] => none
  | c :: _ =>
    if c == '$' then some ("$", 1)
    else if c == '&' then some (m.text, 1)
    else if c == backtick then some (m.before, 1)
    else if c == singleQuote then some (m.after, 1)
    else
      let digits := groupDigits after
      if digits.isEmpty then none
      else
        let number := valueOfDecimals digits
        if 1 ≤ number && number ≤ m.groups.length then
          some (((m.captures.getD (number - 1) none).getD []), digits.length)
        else some ("$" ++ digits, digits.length)

/-- Expands a template; `hidden` counts the code points of a reference still to be
passed over. -/
def Match.expandFrom (m : Match) (hidden : Nat) : Text → Text
  | [] => []
  | c :: rest =>
    match hidden with
    | hidden + 1 => m.expandFrom hidden rest
    | 0 =>
      if c == '$' then
        match m.reference? rest with
        | some (meaning, length) => meaning ++ m.expandFrom length rest
        | none => c :: m.expandFrom 0 rest
      else c :: m.expandFrom 0 rest

/-- A template **with its references replaced** by what they stand for. -/
def Match.expand (m : Match) (template : Text) : Text :=
  m.expandFrom 0 template

/-- The captures of a match as values. -/
def captureValues (captures : List (Option Text)) : List Value :=
  captures.map fun capture => Value.ofOption (capture.map Value.text)

/-- What is put in place of a match. -/
def Match.replacement (run : Runner) (m : Match) (replacement : Value) : Step Text := do
  if replacement.isCallable then
    let v ← Step.invoke run replacement
      (.text m.text :: captureValues m.captures ++ [.int m.start, .text m.subject])
    Step.textOf v
  else return m.expand (← Step.textOf replacement)

/-- The pattern that is searched for, and whether all matches are meant: a regular
expression says so itself, and anything else is searched for as it stands. -/
def searched (pattern : Value) (all : Bool) : Step (ReadPattern × Bool) := do
  match pattern with
  | .regexp _ r =>
    if all && !r.isGlobal then
      Step.wrongType "replaceAll must be called with a global RegExp"
    else return (r.pattern, r.isGlobal)
  | v => return (ReadPattern.ofText (← Step.textOf v), all)

/-- A text with the first match, or **all matches, replaced**. -/
def replaceIn (run : Runner) (subject : Text) (args : List Value) (all : Bool) : Step Text := do
  let (pattern, all) ← searched (argument args 0) all
  let found := pattern.matchesOf subject (if all then none else some 1)
  let replaced ← found.mapM fun m => do
    return (m, ← m.replacement run (argument args 1))
  return replaceMatches subject 0 replaced

end Scriptlet
