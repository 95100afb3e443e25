import TextGrammar.Yaml.Scalar

/-!
Nodes: the structure of a YAML document, and the value it stands for. Entries under `<<` are merged
in front of the other entries of their mapping.
-/

namespace TextGrammar.Yaml

/-- A scalar with its text, or a collection of nodes. -/
inductive Node where
  | plain (text : List Char)
  | quoted (text : List Char)
  | sequence (items : List Node)
  | mapping (entries : List (Node × Node))
deriving Repr

namespace Node

/-- The node of nothing at all. -/
def empty : Node := plain []

/-- The entries of a mapping, or of mappings in a list of which earlier ones count more. -/
def merged : Value → Except DocumentProblem Fields
  | .map entries => .ok entries
  | .list items => items.foldlM (fun merged item => match item with
      | .map entries => .ok (entries ++ merged)
      | _ => .error .malformed) []
  | _ => .error .malformed

/-- The value of a key. -/
def key : Node → Except DocumentProblem Scalar
  | plain ['='] => .ok (.str "=")
  | plain text => plainValue text
  | quoted text => .ok (.str (String.ofList text))
  | sequence _ | mapping _ => .error .malformed

mutual

/-- The value of a node. -/
def value : Node → Except DocumentProblem Value
  | plain text => (plainValue text).map .scalar
  | quoted text => .ok (.str (String.ofList text))
  | sequence items => (itemValues items).map .list
  | mapping entries => do
    let (merged, own) ← entryValues entries
    return .map (Fields.ofList (merged ++ own))

/-- The values of the items of a sequence. -/
def itemValues : List Node → Except DocumentProblem (List Value)
  | [] => .ok []
  | item :: rest => do
    let value ← item.value
    let more ← itemValues rest
    return value :: more

/-- The merged entries and the own entries of a mapping. -/
def entryValues : List (Node × Node) → Except DocumentProblem (Fields × Fields)
  | [] => .ok ([], [])
  | (plain ['<', '<'], content) :: rest => do
    let first ← merged (← content.value)
    let (more, own) ← entryValues rest
    return (first ++ more, own)
  | (name, content) :: rest => do
    let name ← name.key
    let value ← content.value
    let (merged, more) ← entryValues rest
    return (merged, (name, value) :: more)

end

end Node

end TextGrammar.Yaml
