import TextGrammar.Text.Hex
import TextGrammar.Text.Printable

/-!
Quoted text: how a text is shown inside messages and inside the text of lists and maps.
-/

namespace TextGrammar.Text

/-- The quote around a text: double only if the text holds a single quote and no double one. -/
def quoteFor (text : List Char) : Char :=
  if text.contains '\'' && !text.contains '"' then '"' else '\''

/-- One character inside quotes: the quote and the backslash behind a backslash, the usual letters
for line ends and tabs, a code for what is not printable, and all else as itself. -/
def quoteChar (quote c : Char) : List Char :=
  if c = quote ∨ c = '\\' then ['\\', c]
  else if c = '\n' then ['\\', 'n']
  else if c = '\r' then ['\\', 'r']
  else if c = '\t' then ['\\', 't']
  else if isPrintable c then [c]
  else if c.toNat < 0x100 then '\\' :: 'x' :: hexDigits 2 c.toNat
  else if c.toNat < 0x10000 then '\\' :: 'u' :: hexDigits 4 c.toNat
  else '\\' :: 'U' :: hexDigits 8 c.toNat

/-- A text between quotes. -/
def quoted (text : String) : String :=
  let quote := quoteFor text.toList
  String.ofList (quote :: text.toList.flatMap (quoteChar quote) ++ [quote])

/-- Bytes between quotes, behind the letter that tells them from a text: printable ASCII as itself,
all else as a code. -/
def quotedBytes (bytes : List UInt8) : String :=
  let characters := bytes.map fun byte => Char.ofNat byte.toNat
  let quote := quoteFor characters
  let shown (c : Char) : List Char :=
    if c.toNat < 0x80 then quoteChar quote c else '\\' :: 'x' :: hexDigits 2 c.toNat
  String.ofList ('b' :: quote :: characters.flatMap shown ++ [quote])

end TextGrammar.Text
