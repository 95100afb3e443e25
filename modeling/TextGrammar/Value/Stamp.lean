import TextGrammar.Number.Numeral

/-!
Stamps: days, times of day and points in time, as documents give them. A point in time may say how
far its clock is ahead of the universal one.
-/

namespace TextGrammar

namespace Calendar

/-- A year has a leap day. -/
def isLeap (year : Nat) : Bool := year % 4 = 0 && (year % 100 ≠ 0 || year % 400 = 0)

/-- How many days a month has. -/
def monthLength (year month : Nat) : Nat :=
  if month = 2 then (if isLeap year then 29 else 28)
  else if month = 4 ∨ month = 6 ∨ month = 9 ∨ month = 11 then 30
  else 31

end Calendar

/-- A day of the Gregorian calendar, of the years that four digits can write. -/
structure Day where
  year : Nat
  month : Nat
  day : Nat
  year_mem : 1 ≤ year ∧ year ≤ 9999
  month_mem : 1 ≤ month ∧ month ≤ 12
  day_mem : 1 ≤ day ∧ day ≤ Calendar.monthLength year month
deriving DecidableEq, Repr

namespace Day

/-- The day that three numbers name, if there is one. -/
def of? (year month day : Nat) : Option Day :=
  if valid : (1 ≤ year ∧ year ≤ 9999) ∧ (1 ≤ month ∧ month ≤ 12) ∧
      1 ≤ day ∧ day ≤ Calendar.monthLength year month then
    some ⟨year, month, day, valid.1, valid.2.1, valid.2.2⟩
  else none

/-- The days before the first one of a month of the year. -/
def before (year month : Nat) : Nat :=
  (List.range (month - 1)).foldl (fun days place => days + Calendar.monthLength year (place + 1)) 0

/-- The place of a day in the calendar, one for the first day of all. -/
def ordinal (day : Day) : Nat :=
  let years := day.year - 1
  365 * years + years / 4 - years / 100 + years / 400 + before day.year day.month + day.day

/-- Year, month and day with points between them. -/
def text (day : Day) : String :=
  "-".intercalate [Text.padded 4 day.year, Text.padded 2 day.month, Text.padded 2 day.day]

end Day

/-- A time of day. -/
structure ClockTime where
  hour : Fin 24
  minute : Fin 60
  second : Fin 60
  micro : Fin 1000000
deriving DecidableEq, Repr

namespace ClockTime

/-- The time that hours, minutes, seconds and millionths name, if there is one. -/
def of? (hour minute second micro : Nat) : Option ClockTime :=
  if valid : hour < 24 ∧ minute < 60 ∧ second < 60 ∧ micro < 1000000 then
    some ⟨⟨hour, valid.1⟩, ⟨minute, valid.2.1⟩, ⟨second, valid.2.2.1⟩, ⟨micro, valid.2.2.2⟩⟩
  else none

/-- The millionths that the digits behind a point stand for; those behind the sixth do not count. -/
def millionths (digits : List Char) : Nat :=
  Numeral.digitsValue (List.rightpad 6 '0' (digits.take 6))

/-- The millionths of a second since midnight. -/
def micros (time : ClockTime) : Nat :=
  ((time.hour * 60 + time.minute) * 60 + time.second) * 1000000 + time.micro

/-- Hours, minutes and seconds, and the millionths if there are some. -/
def text (time : ClockTime) : String :=
  ":".intercalate [Text.padded 2 time.hour, Text.padded 2 time.minute, Text.padded 2 time.second] ++
    if time.micro.val = 0 then "" else "." ++ Text.padded 6 time.micro

/-- The numbers of a time, seconds and millionths only as far as they count. -/
def parts (time : ClockTime) : List Nat :=
  if time.micro.val ≠ 0 then [time.hour, time.minute, time.second, time.micro]
  else if time.second.val ≠ 0 then [time.hour, time.minute, time.second]
  else [time.hour, time.minute]

end ClockTime

/-- How many minutes a clock is ahead of the universal one: less than a day either way. -/
structure Shift where
  minutes : Int
  within : minutes.natAbs < 1440
deriving DecidableEq, Repr

namespace Shift

/-- The clock that shows universal time. -/
def zero : Shift := ⟨0, by decide⟩

/-- The distance that a sign, hours and minutes name, if it is less than a day. -/
def of? (behind : Bool) (hours minutes : Nat) : Option Shift :=
  let distance : Int := hours * 60 + minutes
  let ahead := if behind then -distance else distance
  if within : ahead.natAbs < 1440 then some ⟨ahead, within⟩ else none

/-- A sign, hours and minutes. -/
def text (shift : Shift) : String :=
  (if shift.minutes < 0 then "-" else "+") ++ Text.padded 2 (shift.minutes.natAbs / 60) ++ ":" ++
    Text.padded 2 (shift.minutes.natAbs % 60)

/-- The distance inside lists, maps and messages, in seconds from the midnight before. -/
def quoted (shift : Shift) : String :=
  if shift.minutes = 0 then "datetime.timezone.utc"
  else
    let seconds := if shift.minutes < 0 then
        s!"days=-1, seconds={(1440 + shift.minutes) * 60}"
      else s!"seconds={shift.minutes * 60}"
    "datetime.timezone(datetime.timedelta(" ++ seconds ++ "))"

end Shift

/-- A day, a time of day, or a point in time. -/
inductive Stamp where
  | date (day : Day)
  | time (clock : ClockTime)
  | point (day : Day) (clock : ClockTime) (shift : Option Shift)
deriving DecidableEq, Repr

namespace Stamp

/-- The kinds of stamps that can be compared among each other. -/
inductive Scale where
  | dates
  | times
  | localPoints
  | universalPoints
deriving DecidableEq, Repr

def scale : Stamp → Scale
  | date _ => .dates
  | time _ => .times
  | point _ _ none => .localPoints
  | point _ _ (some _) => .universalPoints

/-- The place of a stamp on its scale; points of clocks with a known distance stand where the
universal clock has them. -/
def place : Stamp → Int
  | date day => day.ordinal
  | time clock => clock.micros
  | point day clock shift =>
    let ahead := (shift.map Shift.minutes).getD 0
    (day.ordinal * 1440 - ahead) * 60000000 + clock.micros

/-- The same place on the same scale. -/
def same (x y : Stamp) : Bool := x.scale = y.scale && x.place = y.place

/-- Whether the first stamp is not behind the second, if both stand on one scale. -/
def atMost? (x y : Stamp) : Option Bool :=
  if x.scale = y.scale then some (x.place ≤ y.place) else none

/-- The text of a stamp by itself. -/
def text : Stamp → String
  | date day => day.text
  | time clock => clock.text
  | point day clock shift => day.text ++ " " ++ clock.text ++ (shift.map Shift.text).getD ""

/-- Numbers with commas between them. -/
def listed (numbers : List Nat) : String := ", ".intercalate (numbers.map toString)

/-- The text of a stamp inside lists, maps and messages: what it is made of. -/
def quoted : Stamp → String
  | date day => s!"datetime.date({listed [day.year, day.month, day.day]})"
  | time clock => s!"datetime.time({listed clock.parts})"
  | point day clock shift =>
    let zone := (shift.map fun shift => ", tzinfo=" ++ shift.quoted).getD ""
    s!"datetime.datetime({listed ([day.year, day.month, day.day] ++ clock.parts)}" ++ zone ++ ")"

/-- The name of a stamp's kind, as messages give it. -/
def kindName : Stamp → String
  | date _ => "date"
  | time _ => "time"
  | point .. => "datetime"

end Stamp

end TextGrammar
