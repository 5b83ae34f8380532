import Scriptlet.Pattern.Basic

/-!
# Matching by backtracking

The meaning of a pattern at a place of a text is a *matcher*. It is handed what
remains to be matched afterwards, tries its own ways of matching in their order
and, with each, the rest; the first way on which the rest succeeds is the match.
Nothing is undone on the way back, because the state that a failed way has built
is simply dropped.

A repetition that has done its least number of rounds starts another one only
where the last one moved on, so a round that matches nothing ends it.
-/

namespace Scriptlet

/-- The **state of a match**: a place in the text, and for each group where it
last started and ended. -/
structure MatchState where
  /-- The number of code points before the place. -/
  place : Nat
  /-- The start of each group that has been entered, by number. -/
  starts : List (Nat × Nat)
  /-- The end of each group that has been left, by number. -/
  ends : List (Nat × Nat)
  deriving DecidableEq, Repr

namespace MatchState

/-- The stretch that a group has matched. -/
def group? (s : MatchState) (number : Nat) : Option (Nat × Nat) :=
  match s.starts.lookup number, s.ends.lookup number with
  | some start, some stop => if start ≤ stop then some (start, stop) else none
  | _, _ => none

/-- Notes that a group starts here. -/
def enter (s : MatchState) (number : Nat) : MatchState :=
  { s with starts := (number, s.place) :: s.starts.filter (·.1 != number) }

/-- Notes that a group ends here. -/
def leave (s : MatchState) (number : Nat) : MatchState :=
  { s with ends := (number, s.place) :: s.ends.filter (·.1 != number) }

/-- The state at another place. -/
def moveTo (s : MatchState) (place : Nat) : MatchState :=
  { s with place := place }

end MatchState

/-- What is left to match. -/
abbrev Continuation := MatchState → Option MatchState

/-- A **matcher**: the final state of the first successful way, given what is left
to match afterwards. -/
abbrev Matcher := Continuation → MatchState → Option MatchState

namespace Anchor

/-- Whether the code point before or after a place belongs to a word. -/
def wordAt (subject : Array CodePoint) (asciiOnly : Bool) (place : Nat) : Bool :=
  (subject[place]?).any fun c => CharClass.word.contains asciiOnly c

/-- Whether a condition **holds** at a place. No word boundary is seen in the empty
text, nor the absence of one. -/
def holds (subject : Array CodePoint) (place : Nat) : Anchor → Bool
  | textStart => place == 0
  | lineStart => place == 0 || subject[place - 1]? == some ('\n' : CodePoint)
  | textEnd =>
    place == subject.size
      || (place + 1 == subject.size && subject[place]? == some ('\n' : CodePoint))
  | lineEnd => place == subject.size || subject[place]? == some ('\n' : CodePoint)
  | lastEnd => place == subject.size
  | boundary asciiOnly negated =>
    let before := 0 < place && wordAt subject asciiOnly (place - 1)
    subject.size != 0 && (before != wordAt subject asciiOnly place) != negated

end Anchor

namespace Matcher

/-- Rounds of a greedy repetition; `done` counts them, and `last` is where the
last round beyond the least number started. The first argument bounds the rounds
that are left. -/
def greedy (body : Matcher) (least : Nat) (most : Option Nat) (k : Continuation) :
    Nat → Nat → Option Nat → Continuation
  | 0, _, _, _ => none
  | rounds + 1, done, last, s =>
    if done < least then body (greedy body least most k rounds (done + 1) last) s
    else if most.all (done < ·) && last != some s.place then
      match body (greedy body least most k rounds (done + 1) (some s.place)) s with
      | some result => some result
      | none => k s
    else k s

/-- Rounds of a lazy repetition. -/
def lazily (body : Matcher) (least : Nat) (most : Option Nat) (k : Continuation) :
    Nat → Nat → Option Nat → Continuation
  | 0, _, _, _ => none
  | rounds + 1, done, last, s =>
    if done < least then body (lazily body least most k rounds (done + 1) last) s
    else
      match k s with
      | some result => some result
      | none =>
        if most.all (done < ·) && last != some s.place then
          body (lazily body least most k rounds (done + 1) (some s.place)) s
        else none

/-- Rounds of a possessive repetition: each takes its first way. -/
def possessive (body : Matcher) (least : Nat) (most : Option Nat) :
    Nat → Nat → Option Nat → Continuation
  | 0, _, _, _ => none
  | rounds + 1, done, last, s =>
    if done < least then
      match body some s with
      | some s => possessive body least most rounds (done + 1) last s
      | none => none
    else if most.all (done < ·) && last != some s.place then
      match body some s with
      | some t => possessive body least most rounds (done + 1) (some s.place) t
      | none => some s
    else some s

/-- The number of code points from a place on that pass a test, at most `n`. -/
def countPassing (subject : Array CodePoint) (test : CharTest) : Nat → Nat → Nat → Nat
  | 0, _, count => count
  | n + 1, place, count =>
    if (subject[place]?).any (test.passes ·) then countPassing subject test n (place + 1) (count + 1)
    else count

/-- Goes on after `least + extra` code points, or fewer, but at least `least`. -/
def fromMost (k : Continuation) (s : MatchState) (least : Nat) : Nat → Option MatchState
  | 0 => k (s.moveTo (s.place + least))
  | extra + 1 =>
    match k (s.moveTo (s.place + least + (extra + 1))) with
    | some result => some result
    | none => fromMost k s least extra

/-- Goes on after `count` code points, or more, up to `extra` more. -/
def fromLeast (k : Continuation) (s : MatchState) (count : Nat) : Nat → Option MatchState
  | 0 => k (s.moveTo (s.place + count))
  | extra + 1 =>
    match k (s.moveTo (s.place + count)) with
    | some result => some result
    | none => fromLeast k s (count + 1) extra

/-- A repetition of a test of one code point: all that pass are counted first, and
then it goes on from one of the places among them. -/
def manyChars (subject : Array CodePoint) (style : RepeatStyle) (least : Nat) (most : Option Nat)
    (test : CharTest) : Matcher := fun k s =>
  let room := subject.size - s.place
  let count := countPassing subject test (min room (most.getD room)) s.place 0
  if count < least then none
  else
    match style with
    | .greedy => fromMost k s least (count - least)
    | .lazy => fromLeast k s least (count - least)
    | .possessive => k (s.moveTo (s.place + count))

/-- A repetition of any body. Beyond the least number every round moves on, so the
rounds are bounded. -/
def manyTimes (subject : Array CodePoint) (style : RepeatStyle) (least : Nat) (most : Option Nat)
    (body : Matcher) : Matcher := fun k s =>
  let rounds := least + subject.size + 2
  match style with
  | .greedy => greedy body least most k rounds 0 none s
  | .lazy => lazily body least most k rounds 0 none s
  | .possessive => (possessive body least most rounds 0 none s).bind k

/-- Whether the stretch of `n` code points at `place` folds to the one at `start`. -/
def repeats (subject : Array CodePoint) (folding : Folding) (start place : Nat) : Nat → Bool
  | 0 => true
  | n + 1 =>
    match subject[start]?, subject[place]? with
    | some c, some d =>
      folding.fold c == folding.fold d && repeats subject folding (start + 1) (place + 1) n
    | _, _ => false

end Matcher

open Matcher in
/-- The **meaning of a pattern** in a text. -/
def Pattern.matcher (subject : Array CodePoint) : Pattern → Matcher
  | .empty => fun k s => k s
  | .seq first rest => fun k s => first.matcher subject (rest.matcher subject k) s
  | .alt first rest => fun k s =>
    match first.matcher subject k s with
    | some result => some result
    | none => rest.matcher subject k s
  | .char test => fun k s =>
    if (subject[s.place]?).any (test.passes ·) then k (s.moveTo (s.place + 1)) else none
  | .anchor condition => fun k s => if condition.holds subject s.place then k s else none
  | .group number body => fun k s =>
    body.matcher subject (fun s => k (s.leave number)) (s.enter number)
  | .many style least most (.char test) => manyChars subject style least most test
  | .many style least most body => manyTimes subject style least most (body.matcher subject)
  | .look behind negated body => fun k s =>
    let back := (behind.map Prod.fst).getD 0
    let inside :=
      if s.place < back then none
      else body.matcher subject some (s.moveTo (s.place - back))
    match inside with
    | some found => if negated then none else k (found.moveTo s.place)
    | none => if negated then k s else none
  | .atomic body => fun k s => (body.matcher subject some s).bind k
  | .backref folding number => fun k s =>
    match s.group? number with
    | none => none
    | some (start, stop) =>
      let n := stop - start
      if repeats subject folding start s.place n then k (s.moveTo (s.place + n)) else none
  | .ifGroup number yes no => fun k s =>
    if (s.group? number).isSome then yes.matcher subject k s else no.matcher subject k s

end Scriptlet
