import TextGrammar.Yaml.Node
import TextGrammar.Yaml.Text

/-!
The reader of YAML documents that the program runs with: block and bracketed collections, plain and
quoted scalars, and comments. Anchors, block scalars, tags, directives and explicit keys are not
read; what is said about documents elsewhere is said for any reader. A step of the reader returns
the node at a place and a place behind it, and nothing if the text does not follow the notation.
-/

namespace TextGrammar.Yaml

/-- Keys are at most this long. -/
def maxKeyLength : Nat := 1024

/-- The character at a place. -/
def Cursor.head? (cursor : Cursor) : Option Char := cursor.rest.head?

/-- A dash that begins an item of a block comes next. -/
def Cursor.atDash (cursor : Cursor) : Bool :=
  cursor.head? = some '-' && atGap (cursor.rest.drop 1)

/-- A colon that makes what began at `start` a key comes next. -/
def Cursor.closesKey (cursor start : Cursor) : Bool :=
  cursor.head? = some ':' && cursor.line = start.line &&
    start.rest.length - cursor.rest.length ≤ maxKeyLength

/-- A scalar, plain or quoted. -/
def scalar? (inBrackets : Bool) (least : Nat) (cursor : Cursor) : Option (Node × Cursor) :=
  let fuel := cursor.rest.length
  match cursor.rest with
  | [] => none
  | c :: _ =>
    if c = '\'' ∨ c = '"' then
      (quoted? c fuel (cursor.move 1)).map fun (text, after) => (.quoted text, after)
    else if beginsPlain inBrackets cursor.rest then
      let (text, after) := plain inBrackets least fuel cursor
      some (.plain text, after)
    else none

/-! ### Collections in brackets -/

mutual

/-- A node inside brackets. -/
def bracketed? : Nat → Cursor → Option (Node × Cursor)
  | 0, _ => none
  | fuel + 1, cursor =>
    if cursor.atEnd then none
    else match cursor.head? with
      | some '[' => do
        let (items, after) ← bracketItems? fuel (cursor.move 1).skip
        return (.sequence items, after)
      | some '\x7b' => do
        let (entries, after) ← braceEntries? fuel (cursor.move 1).skip
        return (.mapping entries, after)
      | _ => scalar? true 0 cursor

/-- The value behind a colon inside brackets; there is none before `closing` and before a
comma. -/
def bracketValue? (closing : Char) : Nat → Cursor → Option (Node × Cursor)
  | 0, _ => none
  | fuel + 1, cursor =>
    if cursor.head? = some ',' || cursor.head? = some closing then some (.empty, cursor)
    else bracketed? fuel cursor

/-- The items of a sequence up to its closing bracket. An item may be a single entry. -/
def bracketItems? : Nat → Cursor → Option (List Node × Cursor)
  | 0, _ => none
  | fuel + 1, cursor =>
    if cursor.head? = some ']' then some ([], cursor.move 1)
    else do
      let (first, after) ← bracketed? fuel cursor
      let next := after.skip
      let (item, next) ← if next.closesKey cursor then do
          let (content, after) ← bracketValue? ']' fuel (next.move 1).skip
          pure (Node.mapping [(first, content)], after.skip)
        else pure (first, next)
      match next.head? with
      | some ',' => do
        let (more, after) ← bracketItems? fuel (next.move 1).skip
        return (item :: more, after)
      | some ']' => return ([item], next.move 1)
      | _ => none

/-- The entries of a mapping up to its closing brace. A key may stand alone. -/
def braceEntries? : Nat → Cursor → Option (List (Node × Node) × Cursor)
  | 0, _ => none
  | fuel + 1, cursor =>
    if cursor.head? = some '\x7d' then some ([], cursor.move 1)
    else do
      let (key, after) ← bracketed? fuel cursor
      let next := after.skip
      let (content, next) ← if next.closesKey cursor then do
          let (content, after) ← bracketValue? '\x7d' fuel (next.move 1).skip
          pure (content, after.skip)
        else pure (Node.empty, next)
      match next.head? with
      | some ',' => do
        let (more, after) ← braceEntries? fuel (next.move 1).skip
        return ((key, content) :: more, after)
      | some '\x7d' => return ([(key, content)], next.move 1)
      | _ => none

end

/-! ### Blocks -/

/-- A node that is no block. -/
def leaf? (least : Nat) (cursor : Cursor) : Option (Node × Cursor) :=
  match cursor.head? with
  | some '[' | some '\x7b' => bracketed? (cursor.rest.length + 1) cursor
  | _ => scalar? false least cursor

/-- The key of an entry of a block and the place of its colon. -/
def key? (least : Nat) (cursor : Cursor) : Option (Node × Cursor) := do
  let (key, after) ← leaf? least cursor
  let next := after.skip
  if next.closesKey cursor && atGap (next.rest.drop 1) then some (key, next) else none

mutual

/-- The node at a place, and the next place that counts. Its further lines stand at a column of
`least` or more. -/
def block? (least : Nat) : Nat → Cursor → Option (Node × Cursor)
  | 0, _ => none
  | fuel + 1, cursor =>
    if cursor.atDash then
      if cursor.fresh then do
        let (items, next) ← blockItems? cursor.column false fuel cursor
        return (.sequence items, next)
      else none
    else match key? least cursor with
      | some (key, colon) =>
        if cursor.fresh then do
          let (entries, next) ← blockEntries? cursor.column key fuel colon
          return (.mapping entries, next)
        else none
      | none => do
        let (node, after) ← leaf? least cursor
        return (node, after.skip)

/-- The items of a block from a dash at a column on. A block under a key may stand at the column
of the key and then ends before the next key. -/
def blockItems? (column : Nat) (underKey : Bool) : Nat → Cursor → Option (List Node × Cursor)
  | 0, _ => none
  | fuel + 1, cursor => do
    let place := { (cursor.move 1) with fresh := true }.skip
    let (item, next) ←
      if place.atEnd || place.line ≠ cursor.line && place.column ≤ column then
        pure (Node.empty, place)
      else block? (column + 1) fuel place
    if next.atEnd || next.fresh && next.column < column then return ([item], next)
    else if !next.fresh || column < next.column then none
    else if next.atDash then do
      let (more, next) ← blockItems? column underKey fuel next
      return (item :: more, next)
    else if underKey then return ([item], next)
    else none

/-- The entries of a block at a column from the colon behind a key on. -/
def blockEntries? (column : Nat) (key : Node) :
    Nat → Cursor → Option (List (Node × Node) × Cursor)
  | 0, _ => none
  | fuel + 1, colon => do
    let place := (colon.move 1).skip
    let (content, next) ←
      if place.atEnd then pure (Node.empty, place)
      else if !place.fresh || column < place.column then block? (column + 1) fuel place
      else if place.column = column && place.atDash then do
        let (items, next) ← blockItems? column true fuel place
        pure (Node.sequence items, next)
      else pure (Node.empty, place)
    if next.atEnd || next.fresh && next.column < column then return ([(key, content)], next)
    else if !next.fresh || column < next.column then none
    else do
      let (name, colon) ← key? (column + 1) next
      let (more, next) ← blockEntries? column name fuel colon
      return ((key, content) :: more, next)

end

/-! ### Documents -/

/-- The places behind the end of a document hold nothing but further ends. -/
def endsHere : Nat → Cursor → Bool
  | 0, _ => false
  | fuel + 1, cursor =>
    cursor.rest.isEmpty ||
      cursor.column = 0 && atMarker cursor.rest && cursor.head? = some '.' &&
        endsHere fuel (cursor.move 3).skip

/-- The node of a text that holds one document. -/
def document? (text : List Char) : Option Node := do
  let start := (Cursor.start text).skip
  let place := if start.atEnd && start.head? = some '-' then (start.move 3).skip else start
  if place.atEnd then
    if place.head? = some '.' && place.line = start.line then none
    else if endsHere text.length place || place.rest.isEmpty then some .empty
    else none
  else
    let (node, next) ← block? 0 (2 * text.length + 2) place
    if next.atEnd && (next.rest.isEmpty || endsHere text.length next) then some node else none

/-- The value of a text that holds one document. A mark of the byte order may stand in front. -/
def read (text : String) : Except DocumentProblem Value := do
  let characters := text.toList
  if !characters.all isAllowed then throw .malformed
  let content := if characters.head? = some '\uFEFF' then characters.drop 1 else characters
  let node ← DocumentProblem.require (document? content)
  node.value

end TextGrammar.Yaml
