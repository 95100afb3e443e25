import TextGrammar.Condition.Token
import TextGrammar.Number.Numeral
import TextGrammar.Value.Order

/-!
Comparing values in conditions. Strict equality asks for one kind of value, loose equality reads
booleans and texts as numbers, and order compares two texts as texts and everything else as
floating-point numbers.
-/

namespace TextGrammar.Condition

/-- The same value of the same kind; integers and floating-point numbers are one kind. -/
def strictEqual : Value → Value → Bool
  | .scalar .null, .scalar .null => true
  | .scalar (.bool x), .scalar (.bool y) => x = y
  | .scalar (.number x), .scalar (.number y) => Number.compare? x y = some .eq
  | .scalar (.str x), .scalar (.str y) => x = y
  | .scalar (.stamp x), .scalar (.stamp y) => x.same y
  | .scalar (.binary x), .scalar (.binary y) => x = y
  | .list xs, .list ys => (Value.list xs).equal (.list ys)
  | .map xs, .map ys => (Value.map xs).equal (.map ys)
  | _, _ => false

/-- The number that a value stands for: an empty text is zero, other texts are read as
numerals. -/
def numeric? : Value → Option Number
  | .scalar (.str text) =>
    let trimmed := Text.trim text.toList
    if trimmed.isEmpty then some (.int 0) else (Numeral.real? trimmed).map .real
  | value => value.number?

/-- Equal as numbers, or as texts if both are texts; null equals only itself. -/
def looseEqual : Value → Value → Bool
  | .scalar .null, y => y.isNull
  | _, .scalar .null => false
  | .scalar (.str x), .scalar (.str y) => x = y
  | x, y => match numeric? x, numeric? y with
    | some m, some n => Number.compare? m n = some .eq
    | _, _ => false

/-- The floating-point number that a value stands for in an order; `nan` if it stands for none. -/
def magnitude (value : Value) : Except Fault Binary64 :=
  match numeric? value with
  | some number => number.toBinary64
  | none => .ok .nan

/-- How two values compare in an order, if they do. -/
def order? : Value → Value → Except Fault (Option Ordering)
  | .scalar (.str x), .scalar (.str y) => .ok (some (compare x y))
  | x, y => do
    let m ← magnitude x
    let n ← magnitude y
    return Binary64.compare? m n

/-- The outcome of a comparison. -/
def Operator.holds (operator : Operator) (left right : Value) : Except Fault Bool :=
  match operator with
  | strictEqual => .ok (Condition.strictEqual left right)
  | strictUnequal => .ok (!Condition.strictEqual left right)
  | equal => .ok (looseEqual left right)
  | unequal => .ok (!looseEqual left right)
  | less => do return (← order? left right) = some .lt
  | atMost => do
    let order ← order? left right
    return order = some .lt || order = some .eq
  | greater => do return (← order? left right) = some .gt
  | atLeast => do
    let order ← order? left right
    return order = some .gt || order = some .eq

end TextGrammar.Condition
