import Scriptlet.Pattern.Search

/-!
# Regular expressions

A regular expression is written as the source of a pattern and a row of flag
letters. The source differs from the spelling of patterns in two points: a named
group opens with `(?<` and is referred to with `\k<name>`. Both are respelled
before the pattern is read, and the message of a flaw counts offsets in the
respelled text.

Of the flags, `i`, `m` and `s` change what is matched; `d`, `g`, `u` and `y` are
only kept with the expression.
-/

namespace Scriptlet

/-- A **regular expression**. -/
structure Regexp where
  /-- The source of the pattern. -/
  source : Text
  /-- The letters of the flags. -/
  flags : Text
  /-- The pattern. -/
  pattern : ReadPattern
  deriving DecidableEq, Repr

/-- Why there is no regular expression. -/
inductive RegexpError where
  /-- A letter that is no flag. -/
  | badFlags (flags : Text)
  /-- A flaw in the pattern, with its report. -/
  | badPattern (source report : Text)
  /-- A demand that is not met. -/
  | unmet (u : Unmet)
  deriving DecidableEq, Repr

/-- The wording of an error. -/
def RegexpError.message : RegexpError → Text
  | badFlags flags => "Invalid regular expression flags '" ++ flags ++ "'"
  | badPattern source report => "Invalid regular expression: /" ++ source ++ "/: " ++ report
  | unmet _ => []

namespace Regexp

/-- Whether the text after an opening parenthesis makes it open a named group. -/
def opensName (rest : Text) : Bool :=
  ("?<" : Text).isPrefixOf rest
    && (rest.drop 2).head? != some ('=' : CodePoint) && (rest.drop 2).head? != some ('!' : CodePoint)

/-- Respells the openings of named groups: `(?<` becomes `(?P<`, unless a backslash
stands before it or `=` or `!` after it. `before` is the code point in front, and
`opened` tells that it is the parenthesis of such an opening. -/
def respellGroups (before : CodePoint) (opened : Bool) : Text → Text
  | [] => []
  | c :: rest =>
    if opened then c :: 'P' :: respellGroups c false rest
    else c :: respellGroups c (c == '(' && before != '\\' && opensName rest) rest

/-- A letter that a name may start with. -/
def startsName (c : CodePoint) : Bool :=
  isPlainLetter c || c == '_' || c == '$'

/-- A code point that a name may go on with. -/
def continuesName (c : CodePoint) : Bool :=
  Text.isWordPart c || c == '$'

/-- The name at the start of a text, if the closing bracket follows it. -/
def bracketedName? (t : Text) : Option Text :=
  let name := t.takeWhile continuesName
  if name.head?.any startsName && (t.drop name.length).head? == some ('>' : CodePoint) then some name
  else none

/-- Respells references to named groups: `\k<name>` becomes `(?P=name)`. `hidden`
counts the code points of a reference still to be passed over. -/
def respellReferences (hidden : Nat) : Text → Text
  | [] => []
  | c :: rest =>
    match hidden with
    | hidden + 1 => respellReferences hidden rest
    | 0 =>
      if c == '\\' && ("k<" : Text).isPrefixOf rest then
        match bracketedName? (rest.drop 2) with
        | some name => "(?P=" ++ name ++ ")" ++ respellReferences (name.length + 3) rest
        | none => c :: respellReferences 0 rest
      else c :: respellReferences 0 rest

/-- A source **in the spelling of patterns**. -/
def respell (source : Text) : Text :=
  respellReferences 0 (respellGroups 0 false source)

/-- The flags that change what is matched. -/
def matchingFlags : Text := "ims"

/-- The flags that are only kept. -/
def keptFlags : Text := "dguy"

/-- The **regular expression** with a source and flags, where patterns may call characters by
the given names. -/
def compile (named? : Text → Option CodePoint) (source flags : Text) :
    Except RegexpError Regexp :=
  if !flags.all fun c => matchingFlags.contains c || keptFlags.contains c then
    .error (.badFlags flags)
  else
    let respelled := respell source
    match Pattern.parse named? respelled (flags.filter matchingFlags.contains) with
    | .ok pattern => .ok ⟨source, flags, pattern⟩
    | .error (.flawed flaw offset) => .error (.badPattern source (flaw.report respelled offset))
    | .error (.unmet u) => .error (.unmet u)

/-- Whether all matches are meant, and not only the first. -/
def isGlobal (r : Regexp) : Bool :=
  r.flags.contains 'g'

/-- A regular expression as it is written. -/
def written (r : Regexp) : Text :=
  "/" ++ r.source ++ "/" ++ r.flags

end Regexp

end Scriptlet
