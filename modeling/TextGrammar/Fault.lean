/-!
Faults: why a dynamic value cannot be used as asked, apart from what documents are checked for.
-/

namespace TextGrammar

/-- Why a value cannot be used as asked. -/
inductive Fault where
  /-- Neither a list, a text nor a map where elements are asked for. -/
  | notIterable
  /-- A list or a map where a table key is asked for. -/
  | notKey
  /-- An element that should be a pair and has another count of parts. -/
  | notPair
  /-- No number where arithmetic is done. -/
  | notNumber
  /-- Values of kinds that have no order between them. -/
  | notOrdered
  /-- A text that is no numeral, or an integer that is too long for one. -/
  | notNumeral
  /-- No text where a condition is asked for. -/
  | notText
  /-- A list of parts where a condition's text is asked for, with a part that is no word. -/
  | notTextPart
  /-- A map where a condition's text is asked for. -/
  | notIndexed
  /-- No map where a key is looked up. -/
  | notMap
  /-- An integer beyond the range of binary floating-point numbers. -/
  | tooLarge
  /-- An infinite number where an integer is asked for. -/
  | infinite
  /-- `nan` where an integer is asked for. -/
  | undefined
  /-- An interval of integers whose upper end is below its lower end. -/
  | emptyInterval
  /-- A cursor that stands outside its list. -/
  | outside
  /-- No map where a field has to be present. -/
  | noFields
  /-- A field that has to be present. -/
  | missingField (key : String)
  /-- Bytes that are no text. -/
  | notUnicode
  /-- Digits that denote no day, no time of day or no distance of a clock. -/
  | notCalendar
deriving DecidableEq, Repr

end TextGrammar
