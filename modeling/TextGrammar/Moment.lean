/-!
Moments: points in time as a clock shows them, and the ways to write them.
-/

namespace TextGrammar

/-- The ways to write a point in time. -/
inductive TimeFormat where
  | time
  | date
  | both
deriving DecidableEq, Repr

/-- The format with a name; the time of day for any other name. -/
def TimeFormat.ofName : String → TimeFormat
  | "date" => date
  | "datetime" => both
  | _ => time

/-- What a clock and a calendar show. Months begin with one, days of the week with zero for
Monday. -/
structure Moment where
  year : Int
  month : Nat
  day : Nat
  weekday : Nat
  hour : Nat
  minute : Nat
  second : Nat
deriving DecidableEq, Repr

namespace Moment

/-- A number with at least two characters. -/
def twoWide (filler : Char) (number : Nat) : String :=
  let digits := toString number
  if digits.length < 2 then filler.toString ++ digits else digits

def twoDigits (number : Nat) : String := twoWide '0' number

def weekdays : List String := ["Mon", "Tue", "Wed", "Thu", "Fri", "Sat", "Sun"]

def months : List String :=
  ["Jan", "Feb", "Mar", "Apr", "May", "Jun", "Jul", "Aug", "Sep", "Oct", "Nov", "Dec"]

/-- The time of day. -/
def timeText (moment : Moment) : String :=
  ":".intercalate [twoDigits moment.hour, twoDigits moment.minute, twoDigits moment.second]

/-- The date with the last two digits of the year. -/
def dateText (moment : Moment) : String :=
  "/".intercalate
    [twoDigits moment.month, twoDigits moment.day, twoDigits (moment.year % 100).toNat]

/-- The moment in a format. -/
def text (moment : Moment) : TimeFormat → String
  | .time => moment.timeText
  | .date => moment.dateText
  | .both => " ".intercalate
      [weekdays.getD moment.weekday "", months.getD (moment.month - 1) "",
       twoWide ' ' moment.day, moment.timeText, toString moment.year]

end Moment

end TextGrammar
