import Scriptlet.Pattern.Match
import Scriptlet.Pattern.Reader

/-!
# Searching a text

A pattern is searched for from left to right: the first place at which it matches
gives the match. Going on, the next search starts where the match ended, and after
a match of the empty text it has to find a longer one there or move on. The
matches that follow one another in this way are replaced, and a text is split at
them.
-/

namespace Scriptlet

/-- A **match** of a pattern in a text. -/
structure Match where
  /-- The text that was searched. -/
  subject : Text
  /-- The offset at which the match starts. -/
  start : Nat
  /-- The offset at which it ends. -/
  stop : Nat
  /-- The stretches of the groups, in the order of their numbers from 1. -/
  groups : List (Option (Nat × Nat))
  deriving DecidableEq, Repr

namespace Match

/-- What was matched. -/
def text (m : Match) : Text :=
  m.subject.slice m.start m.stop

/-- The text before the match. -/
def before (m : Match) : Text :=
  m.subject.take m.start

/-- The text after the match. -/
def after (m : Match) : Text :=
  m.subject.drop m.stop

/-- What the groups matched, in the order of their numbers from 1. -/
def captures (m : Match) : List (Option Text) :=
  m.groups.map fun group => group.map fun stretch => m.subject.slice stretch.1 stretch.2

end Match

namespace ReadPattern

/-- The way a pattern matches at a place. Where it `mustAdvance`, the ways that
match the empty text do not count. -/
def matchAt (matcher : Matcher) (mustAdvance : Bool) (place : Nat) : Option MatchState :=
  matcher (fun s => if mustAdvance && s.place == place then none else some s) ⟨place, [], []⟩

/-- The first place at which a pattern matches, among one place and the `further`
places after it. Only at the first of them it may have to advance. -/
def searchFrom (matcher : Matcher) (mustAdvance : Bool) (place : Nat) :
    Nat → Option (Nat × MatchState)
  | 0 => (matchAt matcher mustAdvance place).map (place, ·)
  | further + 1 =>
    match matchAt matcher mustAdvance place with
    | some s => some (place, s)
    | none => searchFrom matcher false (place + 1) further

/-- The match at which a search from a place arrives. -/
def searchAt (p : ReadPattern) (subject : Text) (matcher : Matcher) (mustAdvance : Bool)
    (place : Nat) : Option Match :=
  (searchFrom matcher mustAdvance place (subject.length - place)).map fun (start, s) =>
    ⟨subject, start, s.place, (List.range p.groups).map fun i => s.group? (i + 1)⟩

/-- The **first match** in a text. -/
def search (p : ReadPattern) (subject : Text) : Option Match :=
  p.searchAt subject (p.pattern.matcher subject.toArray) false 0

/-- The matches from a place on, at most as many as the first argument says. -/
def matchesFrom (p : ReadPattern) (subject : Text) (matcher : Matcher) :
    Nat → Bool → Nat → List Match
  | 0, _, _ => []
  | count + 1, mustAdvance, place =>
    match p.searchAt subject matcher mustAdvance place with
    | none => []
    | some m => m :: matchesFrom p subject matcher count (m.start == m.stop) m.stop

/-- The **matches that follow one another** in a text, at most `limit` of them.
Of two in a row one moves on, so there are never more than twice as many as there
are places. -/
def matchesOf (p : ReadPattern) (subject : Text) (limit : Option Nat) : List Match :=
  let most := 2 * subject.length + 2
  p.matchesFrom subject (p.pattern.matcher subject.toArray) ((limit.map (min most)).getD most)
    false 0

/-- The pieces between matches, from an offset on; after each piece come the
captures of the match that ends it. -/
def piecesFrom (subject : Text) (place : Nat) : List Match → List (Option Text)
  | [] => [some (subject.drop place)]
  | m :: rest =>
    some (subject.slice place m.start) :: m.captures ++ piecesFrom subject m.stop rest

/-- The **pieces of a text between the matches**, and among them what the groups
captured. -/
def split (p : ReadPattern) (subject : Text) : List (Option Text) :=
  piecesFrom subject 0 (p.matchesOf subject none)

/-- The pattern that matches one text, as it stands. -/
def ofText (t : Text) : ReadPattern :=
  ⟨.sequence (t.map fun c => .char (.literal .exact c false)), 0⟩

end ReadPattern

/-- The text in which the given matches, in their order, are replaced. -/
def replaceMatches (subject : Text) (place : Nat) : List (Match × Text) → Text
  | [] => subject.drop place
  | (m, replacement) :: rest =>
    subject.slice place m.start ++ replacement ++ replaceMatches subject m.stop rest

end Scriptlet
