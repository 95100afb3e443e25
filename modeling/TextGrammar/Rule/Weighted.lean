/-!
The weighted choice: a draw lands in one of the intervals that the weights, cut at zero, lay side
by side. The numbers may be of any type.
-/

namespace TextGrammar.Weighted

variable {α β : Type} [OfNat α 0] [Add α] [Mul α] [LT α] [DecidableLT α]

/-- A weight cut at zero from below. -/
def cut (weight : α) : α := if weight < 0 then 0 else weight

/-- The sum of the weights, cut at zero, from left to right. -/
def total (weights : List α) : α := weights.foldl (fun sum weight => sum + cut weight) 0

/-- The value in whose interval a point lies, the first interval beginning at `start`. -/
def landing (point start : α) : List (β × α) → Option β
  | [] => none
  | (value, weight) :: rest =>
    if point < start + cut weight then some value else landing point (start + cut weight) rest

/-- The value in whose interval the draw, stretched to the sum of the weights, lies; the last one
if it lies in none. -/
def choose (pairs : List (β × α)) (draw : α) : Option β :=
  (landing (draw * total (pairs.map Prod.snd)) 0 pairs).or (pairs.getLast?.map Prod.fst)

end TextGrammar.Weighted
