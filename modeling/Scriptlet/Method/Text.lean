import Scriptlet.Method.Replacement

/-!
# The methods of texts

Texts never change; every method gives a new one, or a number, a truth value or a
list. Offsets count code points.
-/

namespace Scriptlet

namespace TextMethod

/-- The pieces of a text between the occurrences of a separator, or of a pattern. The
empty separator stands between any two code points. -/
def pieces (s : Store) (t : Text) (separator : Value) : Except Unmet (List Value) :=
  match separator with
  | .undefined => .ok [.text t]
  | .regexp _ r => .ok (captureValues (r.pattern.split t))
  | v => do
    let between ← s.textOf v
    if between.isEmpty then return t.map fun c => .text [c]
    else return (t.splitOn between).map Value.text

/-- Values up to a limit, if one is given. -/
def limited (s : Store) (limit : Value) (values : List Value) : Except Unmet (List Value) :=
  if limit.isUndefined then .ok values
  else do
    let n ← (← s.extentOf limit).toInt
    return values.take n.toNat

/-- The offset of the first occurrence of a text, from an offset on; -1 if there is
none. -/
def indexFrom (t needle : Text) (offset : Nat) : Int :=
  match Text.findFrom needle offset (t.drop offset) with
  | some index => index
  | none => -1

/-- An integer that some arithmetic of floats is about to see: it must fit. -/
def fitting (e : Extent) : Except Unmet Extent :=
  match e with
  | .finite n => (fun _ => e) <$> floatOfInt n
  | .infinite _ => .ok e

/-- A text repeated as often as a value says. -/
def repeatedBy (t : Text) (times : Value) : Step Text := do
  let e ← Step.read (·.extentOf times)
  let invalid : Step Text := do
    Step.wrongType ("Invalid count value: " ++ (← Step.ofExcept e.toNumber.display))
  if e.isNegative then invalid
  else
    match ← Step.ofExcept (fitting e) with
    | .infinite _ => invalid
    | .finite n => Step.ofExcept (repeatText t n)

/-- What is missing to a text for a given length, made of copies of a filling. -/
def padding (s : Store) (t : Text) (args : List Value) : Except Unmet Text := do
  let target ← s.extentOf (argument args 0)
  let filling := argument args 1
  let fill ← if filling.isUndefined then pure (Text.ofString " ") else s.textOf filling
  match ← fitting target with
  | .infinite _ => return []
  | .finite n =>
    let missing := n - t.length
    if missing ≤ 0 || fill.isEmpty then return []
    else
      let filled ← repeatText fill (missing / fill.length + 1)
      return filled.take missing.toNat

/-- **Calls a method** of a text. -/
def call (run : Runner) (t : Text) (args : List Value) (m : TextMethod) : Step Value := do
  let length := t.length
  let first := argument args 0
  let second := argument args 1
  match m with
  | split =>
    let pieces ← Step.read (pieces · t first)
    Step.newList (← Step.read (limited · second pieces))
  | toUpperCase => return .text t.upper
  | toLowerCase => return .text t.lower
  | trim => return .text t.trim
  | trimStart => return .text (t.trimLeft Text.isBlank)
  | trimEnd => return .text (t.trimRight Text.isBlank)
  | includes =>
    let start ← Step.read (·.clampedOffset second length 0)
    return .bool (Text.hasInfix (t.drop start) (← Step.textOf first))
  | indexOf =>
    let start ← Step.read (·.clampedOffset second length 0)
    return .int (indexFrom t (← Step.textOf first) start)
  | startsWith =>
    let start ← Step.read (·.clampedOffset second length 0)
    return .bool ((← Step.textOf first).isPrefixOf (t.drop start))
  | endsWith =>
    let stop ← Step.read (·.clampedOffset second length length)
    return .bool ((← Step.textOf first).isSuffixOf (t.take stop))
  | slice =>
    let start ← Step.read (·.relativeOffset first length 0)
    let stop ← Step.read (·.relativeOffset second length length)
    return .text (t.slice start stop)
  | substring =>
    let start ← Step.read (·.clampedOffset first length 0)
    let stop ← Step.read (·.clampedOffset second length length)
    return .text (t.slice (min start stop) (max start stop))
  | charAt =>
    let e ← Step.read (·.extentOf first)
    return .text (((e.index? length).bind fun i => t[i]?).toList)
  | charCodeAt =>
    let e ← Step.read (·.extentOf first)
    match (e.index? length).bind fun i => t[i]? with
    | some c => return .int c
    | none => return .float notANumber
  | replace => .text <$> replaceIn run t args false
  | replaceAll => .text <$> replaceIn run t args true
  | repeated => .text <$> repeatedBy t first
  | padStart => return .text ((← Step.read (padding · t args)) ++ t)
  | padEnd => return .text (t ++ (← Step.read (padding · t args)))
  | concat =>
    let texts ← args.mapM Step.textOf
    return .text (t ++ texts.flatten)

end TextMethod

end Scriptlet
