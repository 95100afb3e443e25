/-!
Hexadecimal digits of characters' codes.
-/

namespace TextGrammar.Text

/-- A hexadecimal digit, in lower case. -/
def hexDigit (n : Nat) : Char :=
  if n < 10 then Char.ofNat (48 + n) else Char.ofNat (87 + n)

/-- The last `width` hexadecimal digits of a number. -/
def hexDigits : Nat → Nat → List Char
  | 0, _ => []
  | width + 1, n => hexDigits width (n / 16) ++ [hexDigit (n % 16)]

/-- The value of a hexadecimal digit, in either case. -/
def hexValue? (c : Char) : Option Nat :=
  if c.isDigit then some (c.toNat - 48)
  else if 'a' ≤ c ∧ c ≤ 'f' then some (c.toNat - 87)
  else if 'A' ≤ c ∧ c ≤ 'F' then some (c.toNat - 55)
  else none

/-- The number that the first `width` characters denote if all of them are hexadecimal digits. -/
def hexNumber? (width : Nat) (text : List Char) : Option Nat := do
  let values ← (text.take width).mapM hexValue?
  if values.length = width then some (values.foldl (fun number digit => number * 16 + digit) 0)
  else none

/-- The character that the first `width` characters denote as hexadecimal digits, if they denote
one. -/
def hexChar? (width : Nat) (text : List Char) : Option Char := do
  let code ← hexNumber? width text
  if code < 0xD800 ∨ 0xDFFF < code ∧ code < 0x110000 then some (Char.ofNat code) else none

end TextGrammar.Text
