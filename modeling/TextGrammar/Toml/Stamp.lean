import TextGrammar.Value.Stamp

/-!
Dates and times of TOML. A reader returns what it read and the rest of the text, and nothing if the
text does not begin with a date or a time; digits that name no day are told apart from that.
-/

namespace TextGrammar.Toml

/-- A number of a fixed count of digits. -/
def fixed? (count : Nat) (text : List Char) : Option (Nat × List Char) :=
  let found := text.take count
  if found.length = count && found.all Char.isDigit then
    some (Numeral.digitsValue found, text.drop count)
  else none

/-- The rest of a text behind a character that it begins with. -/
def behind? (c : Char) : List Char → Option (List Char)
  | first :: rest => if first = c then some rest else none
  | [] => none

/-- The digits behind a point as millionths, none if no digit follows one. -/
def millionths (text : List Char) : Nat × List Char :=
  match text with
  | '.' :: rest =>
    let digits := rest.takeWhile Char.isDigit
    if digits.isEmpty then (0, text)
    else (ClockTime.millionths digits, rest.dropWhile Char.isDigit)
  | _ => (0, text)

/-- A time of day. -/
def time? (text : List Char) : Option (ClockTime × List Char) := do
  let (hour, rest) ← fixed? 2 text
  let (minute, rest) ← fixed? 2 (← behind? ':' rest)
  let (second, rest) ← fixed? 2 (← behind? ':' rest)
  let (micro, rest) := millionths rest
  let time ← ClockTime.of? hour minute second micro
  return (time, rest)

/-- The distance of a clock from the universal one: a letter for none, or a sign, hours and
minutes. -/
def shift? (text : List Char) : Option (Shift × List Char) :=
  match text with
  | [] => none
  | c :: rest =>
    if c = 'Z' ∨ c = 'z' then some (.zero, rest)
    else if c = '+' ∨ c = '-' then do
      let (hours, rest) ← fixed? 2 rest
      let (minutes, rest) ← fixed? 2 (← behind? ':' rest)
      let clock ← ClockTime.of? hours minutes 0 0
      let shift ← Shift.of? (c = '-') clock.hour clock.minute
      return (shift, rest)
    else none

/-- The numbers of a day. -/
def numbers? (text : List Char) : Option ((Nat × Nat × Nat) × List Char) := do
  let (year, rest) ← fixed? 4 text
  let (month, rest) ← fixed? 2 (← behind? '-' rest)
  let (day, rest) ← fixed? 2 (← behind? '-' rest)
  return ((year, month, day), rest)

/-- The time behind a day, with the distance of its clock if that is given. -/
def clock? (text : List Char) : Option (ClockTime × Option Shift × List Char) :=
  match text with
  | [] => none
  | c :: rest =>
    if c = 'T' ∨ c = 't' ∨ c = ' ' then do
      let (time, rest) ← time? rest
      match shift? rest with
      | some (shift, rest) => return (time, some shift, rest)
      | none => return (time, none, rest)
    else none

/-- A stamp; inside, nothing if its digits name no day. -/
def stamp? (text : List Char) : Option (Option Stamp × List Char) :=
  match numbers? text with
  | some ((year, month, day), rest) =>
    let day := Day.of? year month day
    match clock? rest with
    | some (time, shift, rest) => some (day.map (.point · time shift), rest)
    | none => some (day.map .date, rest)
  | none => (time? text).map fun (time, rest) => (some (.time time), rest)

end TextGrammar.Toml
