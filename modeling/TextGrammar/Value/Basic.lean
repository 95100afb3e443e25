import TextGrammar.Number.Basic
import TextGrammar.Value.Stamp

/-!
Values: the dynamic data of documents, of rule parameters and of contexts. Maps keep the order of
their entries; a key may be any scalar, and numbers and booleans of one numeric value are one key.
-/

namespace TextGrammar

/-- A value without parts. -/
inductive Scalar where
  | null
  | bool (value : Bool)
  | number (value : Number)
  | str (value : String)
  | stamp (value : Stamp)
  | binary (bytes : List UInt8)
deriving DecidableEq, Repr

/-- A scalar, a list, or a map with its entries in order. -/
inductive Value where
  | scalar (value : Scalar)
  | list (items : List Value)
  | map (entries : List (Scalar × Value))
deriving Repr

/-- The entries of a map, in order. -/
abbrev Fields := List (Scalar × Value)

namespace Scalar

/-- The numeric value; true counts as one and false as zero. -/
def number? : Scalar → Option Number
  | bool value => some (.int value.toNat)
  | number value => some value
  | _ => none

/-- The same scalar; numbers and booleans are the same if their numeric values are equal. -/
def same : Scalar → Scalar → Bool
  | null, null => true
  | str x, str y => x = y
  | stamp x, stamp y => x.same y
  | binary x, binary y => x = y
  | x, y => match x.number?, y.number? with
    | some m, some n => Number.compare? m n = some .eq
    | _, _ => false

/-- Everything but null, false, zero, the empty text and no bytes. -/
def truthy : Scalar → Bool
  | null => false
  | bool value => value
  | number value => !value.isZero
  | str value => value ≠ ""
  | stamp _ => true
  | binary bytes => !bytes.isEmpty

/-- No other scalar is the same as a text. -/
theorem same_str_iff {key : Scalar} {name : String} :
    key.same (.str name) = true ↔ key = .str name := by
  cases key with
  | null | bool | number | stamp | binary => simp [same, number?]
  | str text => simp [same]

end Scalar

namespace Value

instance : Inhabited Value := ⟨.scalar .null⟩

@[match_pattern] abbrev null : Value := .scalar .null
@[match_pattern] abbrev bool (value : Bool) : Value := .scalar (.bool value)
@[match_pattern] abbrev number (value : Number) : Value := .scalar (.number value)
@[match_pattern] abbrev int (value : Int) : Value := .scalar (.number (.int value))
@[match_pattern] abbrev real (value : Binary64) : Value := .scalar (.number (.real value))
@[match_pattern] abbrev str (value : String) : Value := .scalar (.str value)
@[match_pattern] abbrev stamp (value : Stamp) : Value := .scalar (.stamp value)
@[match_pattern] abbrev binary (bytes : List UInt8) : Value := .scalar (.binary bytes)

def isNull : Value → Bool
  | null => true
  | _ => false

/-- Everything but null, false, zero and what is empty. -/
def truthy : Value → Bool
  | scalar value => value.truthy
  | list items => !items.isEmpty
  | map entries => !entries.isEmpty

/-- The numeric value of a number or a boolean. -/
def number? : Value → Option Number
  | scalar value => value.number?
  | _ => none

/-- A number that is no boolean. -/
def isNumber : Value → Bool
  | number _ => true
  | _ => false

/-- The elements that a value stands for: of a list its items, of a text its characters, of bytes
their numbers, of a map its keys. -/
def elements : Value → Except Fault (List Value)
  | list items => .ok items
  | str text => .ok (text.toList.map fun c => str c.toString)
  | binary bytes => .ok (bytes.map fun byte => int byte.toNat)
  | map entries => .ok (entries.map fun entry => scalar entry.1)
  | _ => .error .notIterable

/-- The characters that a value may spell a numeral with: those of a text, and ASCII bytes. -/
def spelling? : Value → Option (List Char)
  | str text => some text.toList
  | binary bytes => some (bytes.map fun byte => if byte < 0x80 then Char.ofNat byte.toNat else '?')
  | _ => none

/-- The number that a value stands for: a number or a boolean itself, a text by its numeral. -/
def toBinary64 (value : Value) : Except Fault Binary64 :=
  match value.spelling? with
  | some text => match Numeral.real? text with
    | some value => .ok value
    | none => .error .notNumeral
  | none => match value.number? with
    | some found => found.toBinary64
    | none => .error .notNumber

/-- The integer that a value stands for: the integer part of a number, or what a text denotes. -/
def toInt (value : Value) : Except Fault Int :=
  match value.spelling? with
  | some text => match Numeral.integer? text with
    | some value => .ok value
    | none => .error .notNumeral
  | none => match value.number? with
    | some found => found.truncate
    | none => .error .notNumber

/-- The name of a value's kind, as messages give it. -/
def kindName : Value → String
  | null => "NoneType"
  | bool _ => "bool"
  | int _ => "int"
  | real _ => "float"
  | str _ => "str"
  | stamp value => value.kindName
  | binary _ => "bytes"
  | list _ => "list"
  | map _ => "dict"

end Value

namespace Fields

/-- The value of the entry with the same key. -/
def find? (fields : Fields) (key : Scalar) : Option Value :=
  (List.find? (fun entry => entry.1.same key) fields).map Prod.snd

/-- The value under a text, if the map has it. -/
def get? (fields : Fields) (key : String) : Option Value := fields.find? (.str key)

/-- The value under a text, null if the map does not have it. -/
def get (fields : Fields) (key : String) : Value := (fields.get? key).getD .null

/-- Replaces the value of the entry with the same key in its place, or adds an entry at the end. -/
def put (key : Scalar) (value : Value) : Fields → Fields
  | [] => [(key, value)]
  | entry :: rest =>
    if entry.1.same key then (entry.1, value) :: rest else entry :: put key value rest

/-- The map of a list of entries, of which later ones replace earlier ones. -/
def ofList (entries : List (Scalar × Value)) : Fields :=
  entries.foldl (fun fields entry => put entry.1 entry.2 fields) []

/-! ### Looking up texts -/

theorem get?_nil (name : String) : get? [] name = none := rfl

theorem get?_cons (key : Scalar) (value : Value) (rest : Fields) (name : String) :
    get? ((key, value) :: rest) name = if key = .str name then some value else rest.get? name := by
  by_cases found : key = .str name
  · simp [get?, find?, found, Scalar.same_str_iff.mpr]
  · simp [get?, find?, found, mt Scalar.same_str_iff.mp found]

theorem get?_append (fields more : Fields) (name : String) :
    get? (fields ++ more) name = (fields.get? name).or (more.get? name) := by
  simp [get?, find?, List.find?_append, Option.map_or]

theorem get?_put (key : String) (value : Value) (fields : Fields) (name : String) :
    get? (put (.str key) value fields) name =
      if key = name then some value else fields.get? name := by
  induction fields with
  | nil => simp [put, get?_cons, get?_nil]
  | cons entry rest ih =>
    obtain ⟨other, content⟩ := entry
    by_cases found : other = .str key
    · subst found
      by_cases same : key = name
      · simp [put, Scalar.same_str_iff.mpr, get?_cons, same]
      · simp [put, Scalar.same_str_iff.mpr, get?_cons, same]
    · have passed : other.same (.str key) = false := by simpa using mt Scalar.same_str_iff.mp found
      simp only [put, passed, Bool.false_eq_true, if_false, get?_cons, ih]
      by_cases same : key = name
      · simp [← same, found]
      · simp [same]

end Fields

namespace Value

/-- The value under a text, null if the map does not have it. -/
def lookup (value : Value) (key : String) : Except Fault Value :=
  match value with
  | map entries => .ok (Fields.get entries key)
  | _ => .error .notMap

/-- The value under a text that the map has to have. -/
def require (value : Value) (key : String) : Except Fault Value :=
  match value with
  | map entries => match Fields.get? entries key with
    | some found => .ok found
    | none => .error (.missingField key)
  | _ => .error .noFields

/-- The entries of a map, none of any other value. -/
def fieldsOrEmpty : Value → Fields
  | map entries => entries
  | _ => []

/-- The entry that a value with two elements stands for. -/
def toEntry (value : Value) : Except Fault (Scalar × Value) := do
  match ← value.elements with
  | [scalar key, content] => return (key, content)
  | [_, _] => throw .notKey
  | _ => throw .notPair

/-- The entries that a value stands for: of a map its own, otherwise one for each element. -/
def toFields : Value → Except Fault Fields
  | map entries => .ok entries
  | value => do
    let items ← value.elements
    items.foldlM (fun fields item => do
      let entry ← item.toEntry
      return Fields.put entry.1 entry.2 fields) []

end Value

end TextGrammar
