import TextGrammar.Text.Hex

/-!
Writing JSON texts: two blanks for each level, characters beyond printable ASCII as escapes.
-/

namespace TextGrammar.Json

/-- What is written: truth values and texts, in lists and under names. -/
inductive Output where
  | truth (value : Bool)
  | text (value : String)
  | list (items : List Output)
  | object (entries : List (String × Output))
deriving Repr

/-- One code unit of a string as an escape. -/
def unitEscape (unit : Nat) : List Char := '\\' :: 'u' :: Text.hexDigits 4 unit

/-- One character inside a JSON string. -/
def stringChar (c : Char) : List Char :=
  if c = '"' then ['\\', '"']
  else if c = '\\' then ['\\', '\\']
  else if c = '\n' then ['\\', 'n']
  else if c = '\r' then ['\\', 'r']
  else if c = '\t' then ['\\', 't']
  else if c = '\x08' then ['\\', 'b']
  else if c = '\x0c' then ['\\', 'f']
  else if 0x20 ≤ c.toNat ∧ c.toNat < 0x7F then [c]
  else if c.toNat < 0x10000 then unitEscape c.toNat
  else
    unitEscape (0xD800 + (c.toNat - 0x10000) / 0x400) ++
      unitEscape (0xDC00 + (c.toNat - 0x10000) % 0x400)

def stringText (text : String) : String :=
  String.ofList ('"' :: text.toList.flatMap stringChar ++ ['"'])

/-- A line end and the blanks of a level. -/
def newline (level : Nat) : String := String.ofList ('\n' :: List.replicate (2 * level) ' ')

/-- Parts on lines of their own between two brackets. -/
def block (level : Nat) (opening closing : String) (parts : List String) : String :=
  if parts.isEmpty then opening ++ closing
  else
    opening ++ newline (level + 1) ++ ("," ++ newline (level + 1)).intercalate parts ++
      newline level ++ closing

mutual

/-- What an output looks like at a level. -/
def outputText (level : Nat) : Output → String
  | .truth value => if value then "true" else "false"
  | .text value => stringText value
  | .list items => block level "[" "]" (itemTexts (level + 1) items)
  | .object entries => block level "\x7b" "\x7d" (entryTexts (level + 1) entries)

/-- What the items of a list look like. -/
def itemTexts (level : Nat) : List Output → List String
  | [] => []
  | item :: rest => outputText level item :: itemTexts level rest

/-- What the entries of an object look like. -/
def entryTexts (level : Nat) : List (String × Output) → List String
  | [] => []
  | (name, content) :: rest =>
    (stringText name ++ ": " ++ outputText level content) :: entryTexts level rest

end

/-- The JSON text of an output. -/
def write (output : Output) : String := outputText 0 output

end TextGrammar.Json
