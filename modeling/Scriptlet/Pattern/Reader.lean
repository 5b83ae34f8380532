import Scriptlet.Pattern.Escape

/-!
# Reading a pattern

Alternatives are separated by bars, and each is a sequence of items: code points,
escapes, sets in brackets, groups in parentheses, conditions on the place. A sign
of repetition after an item repeats it. What follows an opening parenthesis and a
question mark says what sort of group it is.

Flags may be set at the start of a pattern, for all of it, or for a group. They
are known by the time the items they bear on are read, and every item is read with
its flags worked in.
-/

namespace Scriptlet

open PatternReader

/-! ## Sets -/

/-- Reads one end of a range or a member by itself, given its first sign. -/
def readMember (sign : Text) : PatternReader SetMember :=
  match sign with
  | [c] => return .single c
  | _ => readSetEscape sign

/-- Adds a member to those read, unless it is among them. -/
def addMember (members : List SetMember) (m : SetMember) : List SetMember :=
  if members.contains m then members else members ++ [m]

/-- Reads the members of a set that starts at an offset, up to and with the closing
bracket; a bracket that comes first is a member. `n` bounds their number. -/
def readSetMembers (start : Nat) (members : List SetMember) : Nat → PatternReader (List SetMember)
  | 0 => fail .openSet 0
  | n + 1 => do
    match ← take with
    | none => fail .openSet ((← tell) - start)
    | some sign =>
      if sign == "]" && !members.isEmpty then return members
      let first ← readMember sign
      if ← accept "-" then
        match ← take with
        | none => fail .openSet ((← tell) - start)
        | some last =>
          if last == "]" then return addMember (addMember members first) (.single '-')
          let upper ← readMember last
          match first, upper with
          | .single a, .single b =>
            if b < a then fail (.badRange sign last) (sign.length + 1 + last.length)
            else readSetMembers start (addMember members (.range a b)) n
          | _, _ => fail (.badRange sign last) (sign.length + 1 + last.length)
      else readSetMembers start (addMember members first) n

/-- Reads a **set** after its opening bracket. -/
def readSet (flags : List CodePoint) : PatternReader Piece := do
  let start := (← tell) - 1
  let negated ← accept "^"
  let members ← readSetMembers start [] (← room)
  match members with
  | [.single c] => return .plain (.char (.literal (foldingOf flags) c negated))
  | _ => return .plain (.char (.ofSet (foldingOf flags) (asciiOf flags) members negated))

/-! ## Repetitions -/

/-- Goes on with the result of a computation that may make a demand. -/
def ofExcept : Except Unmet α → PatternReader α
  | .ok a => return a
  | .error u => throw (.unmet u)

/-- The number that digits spell, if it is not too large. -/
def repeatCount (digits : Text) : PatternReader Nat := do
  let n ← ofExcept (intOfDigits digits)
  ofExcept (Demand.repetitions n.toNat).meet
  return n.toNat

/-- Reads the bounds of a repetition after its opening brace. Without the proper
form there is none, and nothing is taken. -/
def readBounds : PatternReader (Option (Nat × Option Nat)) := do
  let saved ← get
  let start ← tell
  if (← peek) == some [closeBrace] then return none
  let low ← takeWhile Text.isPlainDigit (← room)
  let high ← if ← accept "," then takeWhile Text.isPlainDigit (← room) else pure low
  if !(← accept [closeBrace]) then
    set saved
    return none
  let least ← if low.isEmpty then pure 0 else repeatCount low
  if high.isEmpty then return some (least, none)
  let most ← repeatCount high
  if most < least then fail .crossedRepeat ((← tell) - start) else return some (least, some most)

/-- The bounds that a sign of repetition sets, after the sign has been taken; none
for a brace that is only itself. -/
def boundsOf (sign : CodePoint) : PatternReader (Option (Nat × Option Nat)) := do
  if sign == '?' then return some (0, some 1)
  else if sign == '*' then return some (0, none)
  else if sign == '+' then return some (1, none)
  else readBounds

/-- Reads the sign that may follow a repetition and sets its style. -/
def readStyle : PatternReader RepeatStyle := do
  if ← accept "?" then return .lazy
  if ← accept "+" then return .possessive
  return .greedy

/-- Reads the rest of a **repetition** of the last of the items read, which are
given backwards. -/
def readRepeat (flags : List CodePoint) (sign : CodePoint) (pieces : List Piece) :
    PatternReader (List Piece) := do
  let start ← tell
  match ← boundsOf sign with
  | none => return literalPiece flags sign :: pieces
  | some (least, most) =>
    match pieces with
    | [] => fail .nothingToRepeat ((← tell) - start + 1)
    | piece :: pieces =>
      if piece.isAnchor then fail .nothingToRepeat ((← tell) - start + 1)
      if piece.isRepeat then fail .multipleRepeat ((← tell) - start + 1)
      return ⟨false, true, .many (← readStyle) least most piece.pattern⟩ :: pieces

/-! ## Flags -/

/-- The letters that are flags. -/
def flagLetters : Text := "iLmsxatu"

/-- The flags that say which code points classes hold; they exclude each other. -/
def typeFlags : Text := "aLu"

/-- The flags with others turned on and off. Turning on one of the exclusive ones
turns off the others. -/
def combineFlags (flags on off : List CodePoint) : List CodePoint :=
  let kept := if on.any typeFlags.contains then flags.filter (!typeFlags.contains ·) else flags
  (kept ++ on).filter (!off.contains ·)

/-- The flaw where a sign is none of the letters that may follow. -/
def flagFlaw (sign : Text) (otherwise : PatternFlaw) : PatternFlaw :=
  if !sign.isEmpty && sign.all Text.isLetter then .unknownFlag else otherwise

/-- What closes a list of flags, as a flaw where it is missing. -/
def missingClose : PatternFlaw := .missing "-, : or )"

/-- Reads flags that are turned on, from a letter on, up to a sign that ends them;
answers the flags and that sign. -/
def readOnFlags (on : List CodePoint) : Nat → CodePoint → PatternReader (List CodePoint × CodePoint)
  | 0, _ => fail missingClose 0
  | n + 1, letter => do
    if letter == 'L' then fail .localeFlag 0
    let on := letter :: on
    if typeFlags.contains letter && on.any (fun c => typeFlags.contains c && c != letter) then
      fail .incompatibleFlags 0
    match ← take with
    | none => fail missingClose 0
    | some sign =>
      match sign with
      | [c] =>
        if c == ')' || c == '-' || c == ':' then return (on, c)
        else if flagLetters.contains c then readOnFlags on n c
        else fail (flagFlaw sign missingClose) sign.length
      | _ => fail missingClose sign.length

/-- Reads flags that are turned off, from a letter on, up to the colon. -/
def readOffFlags (off : List CodePoint) : Nat → CodePoint → PatternReader (List CodePoint)
  | 0, _ => fail (.missing ":") 0
  | n + 1, letter => do
    if typeFlags.contains letter then fail .flagOff 0
    let off := letter :: off
    match ← take with
    | none => fail (.missing ":") 0
    | some sign =>
      match sign with
      | [c] =>
        if c == ':' then return off
        else if flagLetters.contains c then readOffFlags off n c
        else fail (flagFlaw sign (.missing ":")) sign.length
      | _ => fail (.missing ":") sign.length

/-- Reads the flags that are turned off, after the minus sign. -/
def readFlagsOff : PatternReader (List CodePoint) := do
  match ← take with
  | none => fail .missingFlag 0
  | some sign =>
    match sign with
    | [c] =>
      if flagLetters.contains c then readOffFlags [] (← room) c
      else fail (flagFlaw sign .missingFlag) sign.length
    | _ => fail .missingFlag sign.length

/-- Reads flags from their first letter, or a minus sign, on. Answers the flags
turned on and off for a group; none if they are for the whole pattern, for which
they are noted. -/
def readFlags (first : CodePoint) :
    PatternReader (Option (List CodePoint × List CodePoint)) := do
  let (on, ending) ← if first == '-' then pure ([], first) else readOnFlags [] (← room) first
  if ending == ')' then
    modify fun s => { s with flags := s.flags ++ on }
    return none
  if on.contains 't' then fail .globalFlagOn 1
  let off ← if ending == '-' then readFlagsOff else pure []
  if off.contains 't' then fail .globalFlagOff 1
  if on.any off.contains then fail .flagOnAndOff 1
  return some (on, off)

/-! ## Groups -/

/-- What an opening parenthesis opens. -/
inductive Opening where
  /-- Nothing: a comment, or flags for the whole pattern. -/
  | nothing
  | wholeFlags
  /-- A reference by name. -/
  | reference (number : Nat)
  /-- A group that is noted, with its name if it has one. -/
  | capture (name : Option Text)
  /-- A group that is not noted, with flags turned on and off. -/
  | plain (on off : List CodePoint)
  | atomic
  /-- A condition on the text ahead or behind. -/
  | look (behind negated : Bool)
  /-- A choice by whether a group has matched. -/
  | ifGroup (number : Nat)

/-- Reads a comment to its closing parenthesis. -/
def skipComment (start : Nat) : Nat → PatternReader Unit
  | 0 => fail .openComment 0
  | n + 1 => do
    if (← peek) == none then fail .openComment ((← tell) - start)
    if (← take) == some ([')'] : Text) then return () else skipComment start n

/-- Reads an integer: blanks around it, a sign, digits, and single underscores
between digits. -/
def readInteger? (t : Text) : Option Int :=
  let (negative, body) := takeSign t.trim
  let underscore : CodePoint := '_'
  let digits := body.filter (· != underscore)
  let apart := (Text.splitOn body [underscore]).all (!·.isEmpty)
  match intOfDigits digits with
  | .ok n => if apart then some (if negative then -n else n) else none
  | .error _ => none

/-- Reads what a choice depends on: the name or the number of a group, and the
closing parenthesis. -/
def readTested : PatternReader Nat := do
  let name ← takeUntil ")" "group name" [] (← room)
  if name.isIdentifier then groupNamed name
  else
    match readInteger? name with
    | none => fail (.badGroupName name) (name.length + 1)
    | some n =>
      if n < 0 then fail (.badGroupName name) (name.length + 1)
      if n == 0 then fail .zeroGroupNumber (name.length + 1)
      let number := n.toNat
      if 1073741823 ≤ number then fail (.invalidReference number) (name.length + 1)
      let offset := (← tell) - name.length - 1
      modify fun s =>
        if (s.tested.lookup number).isSome then s
        else { s with tested := s.tested ++ [(number, offset)] }
      return number

/-- Reads a group with a name, or a reference by name, after its letter. -/
def readNamed : PatternReader Opening := do
  if ← accept "<" then
    let name ← takeUntil ">" "group name" [] (← room)
    checkName name
    return .capture (some name)
  else if ← accept "=" then
    let name ← takeUntil ")" "group name" [] (← room)
    checkName name
    let number ← groupNamed name
    if !(← isClosed number) then fail .openGroupReference (name.length + 1)
    checkBehind number
    return .reference number
  else
    match ← take with
    | none => fail .endOfPattern 0
    | some sign => fail (.unknownExtension ("P" ++ sign)) (sign.length + 2)

/-- Reads the sign that tells the two conditions on the text behind apart. -/
def readBehind : PatternReader Opening := do
  match ← take with
  | none => fail .endOfPattern 0
  | some sign =>
    if sign == "=" then return .look true false
    else if sign == "!" then return .look true true
    else fail (.unknownExtension ("<" ++ sign)) (sign.length + 2)

/-- Reads what an opening parenthesis at an offset **opens**. -/
def readOpening (start : Nat) : PatternReader Opening := do
  if !(← accept "?") then return .capture none
  match ← take with
  | none => fail .endOfPattern 0
  | some sign =>
    match sign with
    | [c] =>
      if c == 'P' then readNamed
      else if c == ':' then return .plain [] []
      else if c == '#' then
        skipComment start (← room)
        return .nothing
      else if c == '=' then return .look false false
      else if c == '!' then return .look false true
      else if c == '<' then readBehind
      else if c == '(' then
        let number ← readTested
        checkBehind number
        return .ifGroup number
      else if c == '>' then return .atomic
      else if flagLetters.contains c || c == '-' then
        match ← readFlags c with
        | none => return .wholeFlags
        | some (on, off) => return .plain on off
      else fail (.unknownExtension sign) 2
    | _ => fail (.unknownExtension sign) (sign.length + 1)

/-! ## Sequences and alternatives -/

/-- Skips to the end of the line. -/
def skipLine : Nat → PatternReader Unit
  | 0 => return ()
  | n + 1 => do
    let sign ← take
    if sign == none || sign == some (['\n'] : Text) then return () else skipLine n

/-- Takes the parenthesis that closes what was opened at an offset. -/
def close (start : Nat) : PatternReader Unit := do
  if !(← accept ")") then fail .openSubpattern ((← tell) - start)

/-- The pattern of the items of a sequence, given backwards. -/
def patternOf (pieces : List Piece) : Pattern :=
  .sequence (pieces.reverse.map Piece.pattern)

/-- Reads an item that is neither a group nor a repetition, given its first sign. -/
def readPlainPiece (flags : List CodePoint) (sign : Text) : PatternReader Piece :=
  match sign with
  | [c] =>
    if c == '[' then readSet flags
    else if c == '.' then return .plain (.char (.any (flags.contains 's')))
    else if c == '^' then
      return ⟨true, false, .anchor (if flags.contains 'm' then .lineStart else .textStart)⟩
    else if c == '$' then
      return ⟨true, false, .anchor (if flags.contains 'm' then .lineEnd else .textEnd)⟩
    else return literalPiece flags c
  | _ => readEscapePiece flags sign

/-- Whether a sign is skipped where layout does not count. -/
def isLayout (flags : List CodePoint) (sign : Text) : Bool :=
  flags.contains 'x' &&
    match sign with
    | [c] => (0x09 ≤ c && c ≤ 0x0D) || c == 0x20 || c == '#'
    | _ => false

/-- Whether a sign repeats what is before it. -/
def isRepeatSign (sign : Text) : Bool :=
  sign == "*" || sign == "+" || sign == "?" || sign == [openBrace]

mutual

/-- Reads the items of a **sequence**; those read are given backwards. `whole` tells
that it is the first sequence of the whole pattern, which may start with flags. -/
def readItems : Nat → Bool → List CodePoint → List Piece → PatternReader Pattern
  | 0, _, _, _ => fail .endOfPattern 0
  | n + 1, whole, flags, pieces => do
    match ← peek with
    | none => return patternOf pieces
    | some sign =>
      if sign == "|" || sign == ")" then return patternOf pieces
      advance
      if isLayout flags sign then
        if sign == "#" then skipLine (← room)
        readItems n whole flags pieces
      else if isRepeatSign sign then
        readItems n whole flags (← readRepeat flags (sign.headD 0) pieces)
      else if sign == "(" then
        let start := (← tell) - 1
        match ← readOpening start with
        | .nothing => readItems n whole flags pieces
        | .wholeFlags =>
          if !whole || !pieces.isEmpty then fail .lateFlags ((← tell) - start)
          readItems n whole (← get).flags pieces
        | .reference number =>
          readItems n whole flags (.plain (.backref (foldingOf flags) number) :: pieces)
        | opening => readItems n whole flags (.plain (← readGroup n flags start opening) :: pieces)
      else readItems n whole flags ((← readPlainPiece flags sign) :: pieces)

/-- Reads the inside of a **group** that was opened at an offset, and its closing
parenthesis. -/
def readGroup : Nat → List CodePoint → Nat → Opening → PatternReader Pattern
  | 0, _, _, _ => fail .endOfPattern 0
  | n + 1, flags, start, opening => do
    match opening with
    | .capture name =>
      let number ← openGroup name
      let body ← readAlternatives n false flags []
      close start
      closeGroup number body
      return .group number body
    | .plain on off =>
      let body ← readAlternatives n false (combineFlags flags on off) []
      close start
      return body
    | .atomic =>
      let body ← readAlternatives n false flags []
      close start
      return .atomic body
    | .look behind negated =>
      let outer := (← get).behindGroups
      if behind && outer.isNone then modify fun s => { s with behindGroups := some s.groups }
      let body ← readAlternatives n false flags []
      if behind && outer.isNone then modify fun s => { s with behindGroups := none }
      close start
      let width ← widthOf body
      return .look (if behind then some width else none) negated body
    | .ifGroup number =>
      let yes ← readItems n false flags []
      let no ←
        if ← accept "|" then
          let no ← readItems n false flags []
          if (← peek) == some "|" then fail .extraBranches 0
          pure no
        else pure .empty
      close start
      return .ifGroup number yes no
    | .nothing | .wholeFlags | .reference _ => return .empty

/-- Reads **alternatives**; those read are given backwards. -/
def readAlternatives : Nat → Bool → List CodePoint → List Pattern → PatternReader Pattern
  | 0, _, _, _ => fail .endOfPattern 0
  | n + 1, whole, flags, read => do
    let item ← readItems n (whole && read.isEmpty) flags []
    let read := item :: read
    if ← accept "|" then
      let opened := (← get).flags
      readAlternatives n whole (if whole then opened else flags) read
    else return .choice read.reverse

end

/-! ## Whole patterns -/

/-- What a pattern cannot be used for although it is well-formed: the first of its
parts that looks behind without a fixed width. -/
def Pattern.flaw? (template : Bool) : Pattern → Option PatternFlaw
  | .empty | .char _ | .anchor _ | .backref .. => none
  | .seq first rest => (first.flaw? template).or (rest.flaw? template)
  | .alt first rest => (first.flaw? template).or (rest.flaw? template)
  | .group _ body => body.flaw? template
  | .atomic body => body.flaw? template
  | .ifGroup _ yes no => (yes.flaw? template).or (no.flaw? template)
  | .many style _ _ body =>
    if template then
      some (.templateRepeat (match style with
        | .greedy => "MAX_REPEAT" | .lazy => "MIN_REPEAT" | .possessive => "POSSESSIVE_REPEAT"))
    else body.flaw? template
  | .look behind _ body =>
    match behind with
    | some (least, most) =>
      if twoTo 32 - 1 < least then some .farLookbehind
      else if least != most then some .variableLookbehind
      else body.flaw? template
    | none => body.flaw? template

/-- A pattern that has been read, and the number of its groups. -/
structure ReadPattern where
  /-- The pattern. -/
  pattern : Pattern
  /-- The number of groups, the whole match not included. -/
  groups : Nat
  deriving DecidableEq, Repr

/-- Reads a whole pattern with the flags it starts with. -/
def readPattern (flags : List CodePoint) : PatternReader ReadPattern := do
  advance
  let depth := 3 * (← room)
  let pattern ← readAlternatives depth true flags []
  let s ← get
  if s.flags.contains 'a' && s.flags.contains 'u' then throw (.unmet ⟨.bothAlphabets, rfl⟩)
  if s.next.isSome then fail .unbalanced 0
  match s.tested.find? fun entry => s.groups ≤ entry.1 with
  | some (number, offset) => throw (.flawed (.invalidReference number) (some offset))
  | none =>
    match pattern.flaw? (s.flags.contains 't') with
    | some flaw => throw (.flawed flaw none)
    | none => return ⟨pattern, s.groups - 1⟩

/-- The **pattern that a text spells**, under flags given by their letters. Characters may be
called by the given names. -/
def Pattern.parse (named? : Text → Option CodePoint) (source : Text) (flags : List CodePoint) :
    Except PatternError ReadPattern :=
  ((readPattern flags).run ⟨source, 0, none, 1, [], [], none, [], flags, named?⟩).map Prod.fst

end Scriptlet
