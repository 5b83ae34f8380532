import Scriptlet.Value.Describe

/-!
# The text of a value

What a program gets when it uses a value as a text: in a template, in a sum with a
text, as the key of a property. A list becomes the texts of its items with commas
between them, where undefined, null and a list that is already being written
leave nothing. An object of the program does not show its entries.

Values are *displayed* in another notation, in which results are shown and in which
warnings name a value. Data looks like the literals of the language, so that it could be
read back: texts stand between quotes, lists in brackets and objects in braces. A list or
an object inside itself is shown as `[Circular]`, and a function by its name.
-/

namespace Scriptlet

/-! ## Texts and keys -/

/-- A function of the program as a text. -/
def FunctionCell.written (f : FunctionCell) : Text :=
  "function " ++ f.name.getD [] ++ "(" ++ Text.join ", " f.params ++ ") "
    ++ [openBrace] ++ " [interpreted code] " ++ [closeBrace]

/-- A callable that the program did not make, as a text. -/
def foreignFunctionText (name : Text) : Text :=
  "function " ++ name ++ "() " ++ [openBrace] ++ " [native code] " ++ [closeBrace]

/-- A truth value in the notation of the language. -/
def boolText (b : Bool) : Text :=
  if b then "true" else "false"

/-- The text of a value, where only the lists in `unvisited` are entered. -/
def Store.textFrom (s : Store) (unvisited : List ListRef) : Value → Except Unmet Text
  | .text t => .ok t
  | .undefined => .ok "undefined"
  | .null => .ok "null"
  | .bool b => .ok (boolText b)
  | .number n => n.display
  | .list ref =>
    if _h : ref ∈ unvisited then do
      let items ← (s.items ref).mapM fun item =>
        if item.isNullish then .ok [] else s.textFrom (unvisited.erase ref) item
      return Text.join "," items
    else .ok []
  | .object _ => .ok "[object Object]"
  | .regexp _ r => .ok r.written
  | .function ref => .ok ((s.functions[ref]?.map FunctionCell.written).getD [])
  | .method .. => .ok (foreignFunctionText [])
  | .native f => .ok (foreignFunctionText f.name)
  | .hostMethod _ _ m => .ok (foreignFunctionText m.name)
  | v => s.plain v
termination_by unvisited.length
decreasing_by
  have := List.length_pos_of_mem _h
  rw [List.length_erase_of_mem _h]
  omega

/-- The **text of a value**. -/
def Store.textOf (s : Store) (v : Value) : Except Unmet Text :=
  s.textFrom (List.range s.lists.size) v

/-- The **key** under which a value names a property. -/
def Store.keyOf (s : Store) (v : Value) : Except Unmet Text :=
  s.textOf v

/-- A **primitive value**: undefined, null, a truth value, a number or a text. All
others are replaced by their texts. -/
def Store.primitive (s : Store) : Value → Except Unmet Value
  | .undefined => .ok .undefined
  | .null => .ok .null
  | .bool b => .ok (.bool b)
  | .number n => .ok (.number n)
  | .text t => .ok (.text t)
  | v => Value.text <$> s.textOf v

@[simp] theorem Store.textOf_text (s : Store) (t : Text) : s.textOf (.text t) = .ok t := by
  simp [textOf, textFrom]

/-! ## How values are displayed -/

/-- Whether a key can stand in an object without quotes. -/
def isPlainKey : Text → Bool
  | [] => false
  | c :: rest =>
    Regexp.startsName c && rest.all fun d => Regexp.startsName d || Text.isPlainDigit d

/-- A key as it is displayed. -/
def displayKey (key : Text) : Text :=
  if isPlainKey key then key else key.quoted

/-- A function as it is displayed. -/
def displayFunction (name : Text) : Text :=
  if name.isEmpty then "[Function (anonymous)]" else "[Function: " ++ name ++ "]"

/-- Items as they are displayed between two signs. -/
def displayItems (opener closer : CodePoint) (items : List Text) : Text :=
  if items.isEmpty then [opener, closer]
  else [opener] ++ " " ++ Text.join ", " items ++ " " ++ [closer]

/-- A value as it is displayed, where only the places in `unvisited` are entered. -/
def Store.displayFrom (s : Store) (unvisited : Unvisited) : Value → Except Unmet Text
  | .text t => .ok t.quoted
  | .function ref => .ok (displayFunction ((s.functions[ref]?.bind FunctionCell.name).getD []))
  | .list ref =>
    if _h : ref ∈ unvisited.lists then do
      let items ← (s.items ref).mapM (s.displayFrom (unvisited.withoutList ref))
      return displayItems '[' ']' items
    else .ok "[Circular]"
  | .object ref =>
    if _h : ref ∈ unvisited.objects then do
      let entries ← (s.entries ref).mapM fun entry => do
        let key ← entry.1.plain
        let value ← s.displayFrom (unvisited.withoutObject ref) entry.2
        return displayKey key ++ ": " ++ value
      return displayItems openBrace closeBrace entries
    else .ok "[Circular]"
  | .method .. => .ok (displayFunction [])
  | .native f => .ok (displayFunction f.name)
  | .hostMethod _ _ m => .ok (displayFunction m.name)
  | .host ref => .ok (s.describeHost ref)
  | v => s.textOf v
termination_by unvisited.size
decreasing_by
  · exact Unvisited.size_withoutList_lt _h
  · exact Unvisited.size_withoutObject_lt _h

/-- A value **as it is displayed**. -/
def Store.display (s : Store) (v : Value) : Except Unmet Text :=
  s.displayFrom (.all s) v

end Scriptlet
