import TextGrammar.Value.Basic
import TextGrammar.Text.Quoted

/-!
The text of values: how they are shown in generated text and inside messages.
-/

namespace TextGrammar

/-- The text of a scalar inside lists, maps and messages: texts are quoted. An integer with too many
digits has none. -/
def Scalar.quoted : Scalar → Except Fault String
  | null => .ok "None"
  | bool value => .ok (if value then "True" else "False")
  | number value => value.text
  | str value => .ok (Text.quoted value)
  | stamp value => .ok value.quoted
  | binary bytes => .ok (Text.quotedBytes bytes)

/-- The text of a scalar by itself: texts and stamps stand for themselves. -/
def Scalar.text : Scalar → Except Fault String
  | str value => .ok value
  | stamp value => .ok value.text
  | value => value.quoted

namespace Value

mutual

/-- The text of a value inside lists, maps and messages: texts are quoted. -/
def quoted : Value → Except Fault String
  | scalar value => value.quoted
  | list items => do
    let parts ← quotedItems items
    return "[" ++ ", ".intercalate parts ++ "]"
  | map entries => do
    let parts ← quotedEntries entries
    return "\x7b" ++ ", ".intercalate parts ++ "\x7d"

/-- The quoted texts of the items of a list. -/
def quotedItems : List Value → Except Fault (List String)
  | [] => .ok []
  | item :: rest => do
    let part ← item.quoted
    let more ← quotedItems rest
    return part :: more

/-- The quoted texts of the entries of a map. -/
def quotedEntries : List (Scalar × Value) → Except Fault (List String)
  | [] => .ok []
  | (key, value) :: rest => do
    let name ← key.quoted
    let part ← value.quoted
    let more ← quotedEntries rest
    return (name ++ ": " ++ part) :: more

end

/-- The text of a value by itself: texts and stamps stand for themselves. -/
def text : Value → Except Fault String
  | scalar value => value.text
  | value => value.quoted

end Value

end TextGrammar
