/-!
Notes: what loading and generating report besides their results.
-/

namespace TextGrammar

/-- How important a note is. -/
inductive Level where
  | debug
  | info
  | warning
deriving DecidableEq, Repr

/-- A level in increasing order of importance. -/
def Level.rank : Level → Nat
  | debug => 0
  | info => 1
  | warning => 2

/-- The part of the library that reports. -/
inductive Origin where
  | conditions
  | loading
  | engine
deriving DecidableEq, Repr

/-- One report. -/
structure Note where
  level : Level
  origin : Origin
  message : String
deriving DecidableEq, Repr

end TextGrammar
