import Scriptlet.Call
import Scriptlet.Interrupt
import Scriptlet.Method.Name

/-!
# The methods of lists

Methods that call a function for the items do so for the items that the list has at
the start, in their order, whatever the function does to the list meanwhile. Each
call is given the item, its index and the list.

Items are sorted stably by asking which of two comes first. An answer may take a
step, may be given differently each time and may interrupt the sort, so the order
of the questions matters: first the run is found with which the items begin, then
each of the other items is put into its place among those before it, which is
found by halving.
-/

namespace Scriptlet

/-! ## Sorting -/

/-- A question whether one item comes strictly before another. -/
abbrev Precedes := Value → Value → Step Bool

/-- The longest run with which items go on, and the rest. `last` is the item before
them, and the run goes on while the answer for an item and the one before it is the
given one; `taken` is what has been taken of it, backwards. -/
def takeRun (precedes : Precedes) (descending : Bool) (last : Value) (taken : List Value) :
    List Value → Step (List Value × List Value)
  | [] => return (taken, [])
  | item :: rest => do
    if (← precedes item last) == descending then
      takeRun precedes descending item (item :: taken) rest
    else return (taken, item :: rest)

/-- The sorted run with which items begin, and the rest. A descending run is turned
round. -/
def firstRun (precedes : Precedes) : List Value → Step (List Value × List Value)
  | [] => return ([], [])
  | [item] => return ([item], [])
  | first :: second :: rest => do
    let descending ← precedes second first
    let (taken, rest) ← takeRun precedes descending second [second, first] rest
    return (if descending then taken else taken.reverse, rest)

/-- The place of an item among sorted ones, between two offsets: after all that it does
not come before. -/
def placeOf (precedes : Precedes) (sorted : List Value) (item : Value) (low high : Nat) :
    Step Nat :=
  if _h : low < high then do
    let middle := low + (high - low) / 2
    if ← precedes item (Value.ofOption sorted[middle]?) then
      placeOf precedes sorted item low middle
    else placeOf precedes sorted item (middle + 1) high
  else return low
termination_by high - low
decreasing_by all_goals omega

/-- Puts items one by one into their places among sorted ones. -/
def insertAll (precedes : Precedes) (sorted : List Value) : List Value → Step (List Value)
  | [] => return sorted
  | item :: rest => do
    let place ← placeOf precedes sorted item 0 sorted.length
    insertAll precedes (sorted.take place ++ item :: sorted.drop place) rest

/-- Items **sorted by questions**. -/
def sortBy (precedes : Precedes) (items : List Value) : Step (List Value) := do
  let (sorted, rest) ← firstRun precedes items
  insertAll precedes sorted rest

/-- Items **sorted by their keys**; items with equal keys keep their order. -/
def sortByKey (items : List (Text × Value)) : List Value :=
  (items.mergeSort fun a b => a.1.order b.1 != .gt).map Prod.snd

/-! ## Calling methods -/

/-- The callback among the arguments of a method; it must be callable. -/
def Step.callback (method : Text) (args : List Value) : Step Value := do
  let callee := argument args 0
  if callee.isCallable then return callee
  else wrongType ((← textOf callee) ++ " is not a function (in " ++ method ++ ")")

namespace ListMethod

/-- A function that is called with an item and its index. -/
abbrev Visit := Value → Nat → Step Value

/-- The calls of a callback for the items of a list. -/
def visitWith (run : Runner) (callee list : Value) : Visit := fun item index =>
  Step.invoke run callee [item, .int index, list]

/-- What the calls give, from an index on. -/
def mapFrom (visit : Visit) (index : Nat) : List Value → Step (List Value)
  | [] => return []
  | item :: rest => do
    let v ← visit item index
    return v :: (← mapFrom visit (index + 1) rest)

/-- The items for which the call gives something true, from an index on. -/
def filterFrom (visit : Visit) (index : Nat) : List Value → Step (List Value)
  | [] => return []
  | item :: rest => do
    let keep ← Step.ofExcept (← visit item index).truth
    let kept ← filterFrom visit (index + 1) rest
    return if keep then item :: kept else kept

/-- Makes the calls, from an index on. -/
def forEachFrom (visit : Visit) (index : Nat) : List Value → Step Unit
  | [] => return ()
  | item :: rest => do
    let _ ← visit item index
    forEachFrom visit (index + 1) rest

/-- The first item for which the call gives the wanted truth, and its index, from an
index on. No call is made after it. -/
def findFrom (visit : Visit) (wanted : Bool) (index : Nat) :
    List Value → Step (Option (Value × Nat))
  | [] => return none
  | item :: rest => do
    if (← Step.ofExcept (← visit item index).truth) == wanted then return some (item, index)
    else findFrom visit wanted (index + 1) rest

/-- The value gathered over the items, from an index on: each call is given what the
one before gave. -/
def gatherFrom (run : Runner) (callee list : Value) (gathered : Value) (index : Nat) :
    List Value → Step Value
  | [] => return gathered
  | item :: rest => do
    let gathered ← Step.invoke run callee [gathered, item, .int index, list]
    gatherFrom run callee list gathered (index + 1) rest

/-- The value gathered over all items. Without a value to start from the first item
is taken, and there must be one. -/
def gather (run : Runner) (callee list : Value) (start : Option Value) (items : List Value) :
    Step Value :=
  match start, items with
  | some v, items => gatherFrom run callee list v 0 items
  | none, item :: rest => gatherFrom run callee list item 1 rest
  | none, [] => Step.wrongType "Reduce of empty array with no initial value"

/-- The items of the lists among some values, and the other values as they are. -/
def concatenation (s : Store) (values : List Value) : List Value :=
  values.flatMap fun
    | .list ref => s.items ref
    | v => [v]

/-- Items joined to a text; undefined and null leave nothing. -/
def joined (s : Store) (separator : Value) (items : List Value) : Except Unmet Text := do
  let between ← if separator.isUndefined then pure (Text.ofString ",") else s.textOf separator
  let texts ← items.mapM fun item => if item.isNullish then .ok [] else s.textOf item
  return Text.join between texts

/-- The index of the first item strictly equal to a value, from an offset on; -1 if
there is none. -/
def indexFrom (items : List Value) (v : Value) (offset : Nat) : Int :=
  match (items.drop offset).findIdx? (·.strictlyEquals v) with
  | some index => offset + index
  | none => -1

/-- What **splicing** leaves and takes out: `count` items at an offset are replaced. -/
def spliced (items : List Value) (offset count : Nat) (inserted : List Value) :
    List Value × List Value :=
  (items.take offset ++ inserted ++ items.drop (offset + count),
    (items.drop offset).take count)

/-- The number of items that splicing takes out. -/
def spliceCount (s : Store) (args : List Value) (left : Nat) : Except Unmet Nat :=
  if args.length < 2 then .ok left else s.clampedOffset (argument args 1) left 0

/-- Items in the order that a callback gives, or in that of their texts. -/
def ordered (run : Runner) (comparator : Value) (items : List Value) : Step (List Value) :=
  if comparator.isUndefined then do
    let keyed ← items.mapM fun item => do return (← Step.textOf item, item)
    return sortByKey keyed
  else
    items |> sortBy fun a b => do
      let n ← Step.numberOf (← Step.invoke run comparator [a, b])
      if ← Step.ofExcept n.isNaN then return false else return n.isNegative

/-- Items sorted by a callback, or by their texts; undefined items come last. -/
def sorted (run : Runner) (comparator : Value) (items : List Value) : Step (List Value) := do
  let present ← ordered run comparator (items.filter (!·.isUndefined))
  return present ++ items.filter (·.isUndefined)

/-- **Calls a method** of a list. -/
def call (run : Runner) (ref : ListRef) (args : List Value) (m : ListMethod) : Step Value := do
  let s ← get
  let list := Value.list ref
  let items := s.items ref
  let length := items.length
  let write (items : List Value) : Step Unit := modify fun s => s.setItems ref items
  match m with
  | push =>
    write (items ++ args)
    return .int (length + args.length)
  | pop =>
    write items.dropLast
    return Value.ofOption items.getLast?
  | shift =>
    write (items.drop 1)
    return Value.ofOption items.head?
  | unshift =>
    write (args ++ items)
    return .int (length + args.length)
  | slice =>
    let start ← Step.read (·.relativeOffset (argument args 0) length 0)
    let stop ← Step.read (·.relativeOffset (argument args 1) length length)
    Step.newList ((items.drop start).take (stop - start))
  | splice =>
    let start ← Step.read (·.relativeOffset (argument args 0) length 0)
    let count ← Step.read (spliceCount · args (length - start))
    let (left, removed) := spliced items start count (args.drop 2)
    let result ← Step.newList removed
    write left
    return result
  | concat => Step.newList (concatenation s (list :: args))
  | join => .text <$> Step.read (joined · (argument args 0) items)
  | indexOf =>
    let start ← Step.read (·.relativeOffset (argument args 1) length 0)
    return .int (indexFrom items (argument args 0) start)
  | includes => .bool <$> Step.ofExcept (containsValue items (argument args 0))
  | reverse =>
    write items.reverse
    return list
  | map => Step.newList (← mapFrom (visitWith run (← Step.callback "map" args) list) 0 items)
  | filter =>
    Step.newList (← filterFrom (visitWith run (← Step.callback "filter" args) list) 0 items)
  | forEach =>
    forEachFrom (visitWith run (← Step.callback "forEach" args) list) 0 items
    return .undefined
  | reduce =>
    let callee ← Step.callback "reduce" args
    gather run callee list args[1]? items
  | find =>
    let found ← findFrom (visitWith run (← Step.callback "find" args) list) true 0 items
    return Value.ofOption (found.map Prod.fst)
  | findIndex =>
    let found ← findFrom (visitWith run (← Step.callback "findIndex" args) list) true 0 items
    return .int (match found with | some (_, index) => index | none => -1)
  | any =>
    let found ← findFrom (visitWith run (← Step.callback "some" args) list) true 0 items
    return .bool found.isSome
  | all =>
    let found ← findFrom (visitWith run (← Step.callback "every" args) list) false 0 items
    return .bool found.isNone
  | sort =>
    write (← sorted run (argument args 0) items)
    return list

end ListMethod

end Scriptlet
