import TextGrammar.Table

/-!
Cycles of references: a depth-first search that writes down each cycle it closes, once for each set
of names.
-/

namespace TextGrammar.Cycle

/-- The cycles found so far, each without its repeated first name, and the names that have been
left. -/
structure Search where
  cycles : List (List String)
  done : List String
deriving Repr

/-- The same names in any order, for lists without repetitions. -/
def sameNames (xs ys : List String) : Bool := xs.length = ys.length && xs.all ys.contains

/-- Writes a cycle down unless one with the same names is there. -/
def Search.close (search : Search) (cycle : List String) : Search :=
  if search.cycles.any (sameNames cycle) then search
  else { search with cycles := search.cycles ++ [cycle] }

/-- Follows the references of a name. `path` leads to the name and ends with it; every name on it
is a different one, so the number of names bounds the steps. -/
def visit (references : Table (List String)) :
    Nat → String → List String → Search → Search
  | 0, _, _, search => search
  | steps + 1, name, path, search =>
    let search := ((references.get? name).getD []).foldl (fun (search : Search) target =>
      if !references.contains target then search
      else if path.contains target then search.close (path.dropWhile (· ≠ target))
      else if search.done.contains target then search
      else visit references steps target (path ++ [target]) search) search
    { search with done := name :: search.done }

/-- The cycles of references between names, each once, without its repeated first name. -/
def find (references : Table (List String)) : List (List String) :=
  let search := references.names.foldl (fun (search : Search) name =>
    if search.done.contains name then search
    else visit references references.names.length name [name] search) ⟨[], []⟩
  search.cycles

/-- A cycle in words, its first name repeated at the end. -/
def text (cycle : List String) : String := " -> ".intercalate (cycle ++ cycle.take 1)

end TextGrammar.Cycle
