import Scriptlet.Store
import Scriptlet.Text.Quoted

/-!
# How the host shows values

The host has a notation of its own, in which every value can be told from every
other kind: texts stand between quotes, floats show that they are floats, lists
stand in brackets, objects in braces, tuples in parentheses. It is used in log
records and wherever the language has no notation of its own.

A list or an object that contains itself is cut short where it comes up again. To
that end the walk keeps the places that it has not yet entered; there is one less
of them at each step down, so the walk comes to an end.
-/

namespace Scriptlet

/-- The lists and objects that a walk over a value **may still enter**. -/
structure Unvisited where
  /-- The lists. -/
  lists : List ListRef
  /-- The objects. -/
  objects : List ObjectRef

namespace Unvisited

/-- Everything in a store. -/
def all (s : Store) : Unvisited :=
  ⟨List.range s.lists.size, List.range s.objects.size⟩

/-- The number of places left. -/
def size (u : Unvisited) : Nat :=
  u.lists.length + u.objects.length

/-- What is left after a list has been entered. -/
def withoutList (u : Unvisited) (ref : ListRef) : Unvisited :=
  { u with lists := u.lists.erase ref }

/-- What is left after an object has been entered. -/
def withoutObject (u : Unvisited) (ref : ObjectRef) : Unvisited :=
  { u with objects := u.objects.erase ref }

theorem size_withoutList_lt {u : Unvisited} {ref : ListRef} (h : ref ∈ u.lists) :
    (u.withoutList ref).size < u.size := by
  have := List.length_pos_of_mem h
  simp only [size, withoutList, List.length_erase_of_mem h]
  omega

theorem size_withoutObject_lt {u : Unvisited} {ref : ObjectRef} (h : ref ∈ u.objects) :
    (u.withoutObject ref).size < u.size := by
  have := List.length_pos_of_mem h
  simp only [size, withoutObject, List.length_erase_of_mem h]
  omega

end Unvisited

/-- A truth value in the notation of the host. -/
def describeBool (b : Bool) : Text :=
  if b then "True" else "False"

/-- A key in the notation of the host. -/
def Key.describe : Key → Except Unmet Text
  | text t => .ok t.quoted
  | number n => n.literal
  | bool b => .ok (describeBool b)
  | null => .ok "None"

/-- A key as plain text. -/
def Key.plain : Key → Except Unmet Text
  | text t => .ok t
  | key => key.describe

/-- A function in the notation of the host. -/
def FunctionCell.describe (f : FunctionCell) : Text :=
  let label := f.name.getD []
  "<" ++ f.kind.name ++ " " ++ (if label.isEmpty then ("anonymous" : Text) else label)
    ++ "(" ++ Text.join ", " f.params ++ ")>"

/-- An object of the host in its notation. -/
def Store.describeHost (s : Store) (ref : HostRef) : Text :=
  s.hostShown HostKind.description ref

/-- Items between the parentheses of a tuple. -/
def tupleText : List Text → Text
  | [t] => "(" ++ t ++ ",)"
  | ts => "(" ++ Text.join ", " ts ++ ")"

/-- A value in the notation of the host. Only the places in `unvisited` are entered,
and no tuple or method whose identity is among `entered`. -/
def Store.describeFrom (s : Store) (unvisited : Unvisited) (entered : List Identity) :
    Value → Except Unmet Text
  | .undefined => .ok "undefined"
  | .null => .ok "None"
  | .bool b => .ok (describeBool b)
  | .number n => n.literal
  | .text t => .ok t.quoted
  | .failure => .ok "<fail>"
  | .list ref =>
    if _h : ref ∈ unvisited.lists then do
      let items ← (s.items ref).mapM (s.describeFrom (unvisited.withoutList ref) entered)
      return "[" ++ Text.join ", " items ++ "]"
    else .ok "[...]"
  | .object ref =>
    if _h : ref ∈ unvisited.objects then do
      let entries ← (s.entries ref).mapM fun entry => do
        let key ← entry.1.describe
        let value ← s.describeFrom (unvisited.withoutObject ref) entered entry.2
        return key ++ ": " ++ value
      return [openBrace] ++ Text.join ", " entries ++ [closeBrace]
    else .ok ([openBrace] ++ "..." ++ [closeBrace])
  | .tuple identity items =>
    if entered.contains identity && !items.isEmpty then .ok "(...)"
    else do
      let items ← items.attach.mapM fun ⟨item, _⟩ =>
        s.describeFrom unvisited (identity :: entered) item
      return tupleText items
  | .regexp _ r => .ok r.written
  | .function ref => .ok ((s.functions[ref]?.map FunctionCell.describe).getD [])
  | .method identity name subject =>
    if entered.contains identity then .ok "..."
    else do
      let subject ← s.describeFrom unvisited (identity :: entered) subject
      return "BuiltinMethod(name=" ++ name.quoted ++ ", subject=" ++ subject ++ ")"
  | .native f => .ok f.description
  | .host ref => .ok (s.describeHost ref)
  | .hostMethod _ ref m =>
    .ok ("<bound method " ++ m.description ++ " of " ++ s.describeHost ref ++ ">")
termination_by v => (unvisited.size, sizeOf v)
decreasing_by
  · exact Prod.Lex.left _ _ (Unvisited.size_withoutList_lt _h)
  · exact Prod.Lex.left _ _ (Unvisited.size_withoutObject_lt _h)
  · rename_i h
    have := List.sizeOf_lt_of_mem h
    apply Prod.Lex.right
    simp only [Value.tuple.sizeOf_spec]
    omega
  · apply Prod.Lex.right
    simp only [Value.method.sizeOf_spec]
    omega

/-- A value **in the notation of the host**. -/
def Store.describe (s : Store) (v : Value) : Except Unmet Text :=
  s.describeFrom (.all s) [] v

/-- A value as plain text of the host: a text is itself, and an object of the host has a
text of its own. -/
def Store.plain (s : Store) : Value → Except Unmet Text
  | .text t => .ok t
  | .host ref => .ok (s.hostShown HostKind.text ref)
  | v => s.describe v

end Scriptlet
