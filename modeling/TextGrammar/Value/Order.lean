import TextGrammar.Value.Basic

/-!
Equality and order of values. Numbers and booleans compare by their exact numeric value, texts and
lists from their first difference on.
-/

namespace TextGrammar.Value

mutual

/-- Values are equal if their scalars are the same ones in the same places; the order of the
entries of a map does not matter. -/
def equal : Value → Value → Bool
  | scalar x, scalar y => x.same y
  | list xs, list ys => equalItems xs ys
  | map xs, map ys => xs.length = ys.length && equalEntries xs ys
  | _, _ => false

/-- Lists are equal item by item. -/
def equalItems : List Value → List Value → Bool
  | [], [] => true
  | x :: xs, y :: ys => x.equal y && equalItems xs ys
  | _, _ => false

/-- Each entry has an equal one under the same key. -/
def equalEntries : List (Scalar × Value) → Fields → Bool
  | [], _ => true
  | (key, x) :: xs, ys =>
    (match Fields.find? ys key with
      | some y => x.equal y
      | none => false) && equalEntries xs ys

end

mutual

/-- The first value is not above the second; only numbers, texts, bytes, stamps of one scale and
lists have an order. -/
def atMost : Value → Value → Except Fault Bool
  | str x, str y => .ok (x ≤ y)
  | binary x, binary y => .ok (x ≤ y)
  | stamp x, stamp y => match x.atMost? y with
    | some found => .ok found
    | none => .error .notOrdered
  | list xs, list ys => atMostItems xs ys
  | x, y => match x.number?, y.number? with
    | some m, some n => .ok (Number.compare? m n = some .lt || Number.compare? m n = some .eq)
    | _, _ => .error .notOrdered

/-- Lists compare as their first unequal items do, or by their lengths. -/
def atMostItems : List Value → List Value → Except Fault Bool
  | [], _ => .ok true
  | _ :: _, [] => .ok false
  | x :: xs, y :: ys => if x.equal y then atMostItems xs ys else x.atMost y

end

end TextGrammar.Value
