import TextGrammar.Value.Basic

/-!
Drafts of TOML documents: tables and entries are added one after the other. A table is declared at
most once, and arrays and tables that are written as values are never added to.
-/

namespace TextGrammar.Toml

/-- The names that lead to a table or an entry, from the outermost one on. -/
abbrev Path := List String

/-- What has been read of a document: its content, the tables that may not be declared again, those
that the entries of the section opened, the values that may not be added to, and the path of the
section. -/
structure Draft where
  content : Fields
  declared : List Path
  opened : List Path
  closed : List Path
  header : Path

namespace Draft

def empty : Draft := ⟨[], [], [], [], []⟩

/-- The path is that of a closed value or leads into one. -/
def isClosed (draft : Draft) (path : Path) : Bool := draft.closed.any (·.isPrefixOf path)

/-- Changes the table at a path, which is made if there is none; in an array of tables it is the
last one. -/
def within (change : Fields → Option Fields) : Path → Fields → Option Fields
  | [], fields => change fields
  | name :: path, fields =>
    let key : Scalar := .str name
    match fields.find? key with
    | none => (within change path []).map fun inner => Fields.put key (.map inner) fields
    | some (.map inner) =>
      (within change path inner).map fun inner => Fields.put key (.map inner) fields
    | some (.list items) => match items.getLast? with
      | some (.map inner) =>
        (within change path inner).map fun inner =>
          Fields.put key (.list (items.dropLast ++ [.map inner])) fields
      | _ => none
    | some _ => none

/-- Changes the table that holds the last name of a path. -/
def atEntry (change : Scalar → Fields → Option Fields) (path : Path) (fields : Fields) :
    Option Fields :=
  within (change (.str (path.getLastD ""))) path.dropLast fields

/-- The tables that entries opened are declared when their section ends. -/
def settled (draft : Draft) : Draft :=
  { draft with declared := draft.opened ++ draft.declared, opened := [] }

/-- Declares a table and begins its section. -/
def table? (path : Path) (draft : Draft) : Option Draft := do
  let draft := draft.settled
  if draft.declared.contains path || draft.isClosed path then none
  else
    let content ← within some path draft.content
    some { draft with content, declared := path :: draft.declared, header := path }

/-- Adds a table to an array of tables and begins its section. What was declared in the table
before it may be declared again. -/
def element? (path : Path) (draft : Draft) : Option Draft := do
  let draft := draft.settled
  if draft.isClosed path then none
  else
    let content ← atEntry (fun key fields => match fields.find? key with
      | none => some (Fields.put key (.list [.map []]) fields)
      | some (.list items) => some (Fields.put key (.list (items ++ [.map []])) fields)
      | some _ => none) path draft.content
    let outside (other : Path) : Bool := !path.isPrefixOf other
    some { draft with
      content
      declared := path :: draft.declared.filter outside
      closed := draft.closed.filter outside
      header := path }

/-- The paths that lead to an entry, from the first name of its key on. -/
def leading (draft : Draft) (key : Path) : List Path :=
  (List.range (key.length - 1)).map fun count => draft.header ++ key.take (count + 1)

/-- Adds an entry to the section. -/
def entry? (key : Path) (value : Value) (draft : Draft) : Option Draft := do
  let path := draft.header ++ key
  if (draft.leading key).any draft.declared.contains || draft.isClosed path.dropLast then none
  else
    let content ← atEntry (fun key fields => match fields.find? key with
      | none => some (Fields.put key value fields)
      | some _ => none) path draft.content
    let closed := match value with
      | .list _ | .map _ => path :: draft.closed
      | _ => draft.closed
    some { draft with content, closed, opened := draft.leading key ++ draft.opened }

end Draft

end TextGrammar.Toml
