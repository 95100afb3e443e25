import TextGrammar.Value.Stamp
import TextGrammar.Yaml.Cursor

/-!
Dates and times of YAML 1.1: a day alone is written with all of its digits, a day with a time of day
may leave out leading zeros.
-/

namespace TextGrammar.Yaml

/-- A number of at least and at most so many digits, as many as there are. -/
def digits? (least most : Nat) (text : List Char) : Option (Nat × List Char) :=
  let found := (text.take most).takeWhile Char.isDigit
  if least ≤ found.length then some (Numeral.digitsValue found, text.drop found.length) else none

/-- The rest of a text behind a character that it begins with. -/
def behind? (c : Char) : List Char → Option (List Char)
  | first :: rest => if first = c then some rest else none
  | [] => none

/-- What stands between a day and a time of day: a letter, or blanks. -/
def separator? (text : List Char) : Option (List Char) :=
  match text with
  | [] => none
  | c :: rest =>
    if c = 'T' ∨ c = 't' then some rest
    else if isBlank c then some (rest.dropWhile isBlank)
    else none

/-- The digits behind a point as millionths; there may be none. -/
def millionths (text : List Char) : Nat × List Char :=
  match text with
  | '.' :: rest =>
    (ClockTime.millionths (rest.takeWhile Char.isDigit), rest.dropWhile Char.isDigit)
  | _ => (0, text)

/-- The distance of a clock that ends a text, if it is given: a letter for none, or a sign with
hours and perhaps minutes. Inside, nothing if it is a day or more. -/
def shift? (text : List Char) : Option (Option (Option Shift)) :=
  match text.dropWhile isBlank with
  | [] => if text.isEmpty then some none else none
  | ['Z'] => some (some (some .zero))
  | c :: rest =>
    if c = '+' ∨ c = '-' then do
      let (hours, rest) ← digits? 1 2 rest
      if rest.isEmpty then return some (Shift.of? (c = '-') hours 0)
      else
        let (minutes, rest) ← digits? 2 2 (← behind? ':' rest)
        if rest.isEmpty then return some (Shift.of? (c = '-') hours minutes) else none
    else none

/-- The stamp that a scalar denotes, if it has the form of one. -/
def stamp? (text : List Char) : Option (Except Fault Stamp) := do
  let (year, rest) ← digits? 4 4 text
  let (month, rest) ← digits? 1 2 (← behind? '-' rest)
  let (day, rest) ← digits? 1 2 (← behind? '-' rest)
  let day := orNot (Day.of? year month day)
  if rest.isEmpty then
    if text.length = 10 then return Stamp.date <$> day else none
  else
    let (hour, rest) ← digits? 1 2 (← separator? rest)
    let (minute, rest) ← digits? 2 2 (← behind? ':' rest)
    let (second, rest) ← digits? 2 2 (← behind? ':' rest)
    let (micro, rest) := millionths rest
    let shift ← shift? rest
    return do
      let shift ← match shift with
        | some given => some <$> orNot given
        | none => pure none
      return .point (← day) (← orNot (ClockTime.of? hour minute second micro)) shift
where
  orNot {α : Type} (found : Option α) : Except Fault α :=
    match found with
    | some found => .ok found
    | none => .error .notCalendar

end TextGrammar.Yaml
