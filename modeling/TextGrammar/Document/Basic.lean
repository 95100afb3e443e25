import TextGrammar.Json.Reader
import TextGrammar.LoadError
import TextGrammar.Text.Split
import TextGrammar.Toml.Reader

/-!
Documents: grammars in files. The end of a file's name chooses the notation, and a document has to
be an object that holds rules. JSON and TOML are read here; the reader of YAML is a parameter.
-/

namespace TextGrammar.Document

/-- The notations of documents. -/
inductive Format where
  | json
  | yaml
  | toml
deriving DecidableEq, Repr

/-- The characters behind the last point of a name, if there are some and some before the point. -/
def ending (name : String) : List Char :=
  let reversed := name.toList.reverse
  match reversed.dropWhile (· ≠ '.') with
  | _ :: _ :: _ => (reversed.takeWhile (· ≠ '.')).reverse
  | _ => []

/-- The notation of a file with a name; files with other endings hold JSON. -/
def Format.ofName (name : String) : Format :=
  let ending := String.ofList ((ending name).map Char.toLower)
  if ending = "yaml" ∨ ending = "yml" then yaml
  else if ending = "toml" then toml
  else json

/-- A file: its path as messages give it, its name, and its content. -/
structure File where
  path : String
  name : String
  bytes : ByteArray

/-- The names on a path; empty names and single points lead nowhere. -/
def pathNames (path : String) : List String :=
  ((Text.splitAt '/' path.toList).map String.ofList).filter fun name => name ≠ "" && name ≠ "."

/-- A path as messages give it. -/
def shownPath (path : String) : String :=
  let names := pathNames path
  (if path.startsWith "/" then "/" else "") ++
    if names.isEmpty then "." else "/".intercalate names

/-- The file at a path. -/
def File.ofPath (path : String) (bytes : ByteArray) : File :=
  ⟨shownPath path, (pathNames path).getLastD "", bytes⟩

/-- Every end of a line becomes the same character. -/
def unifyLineEnds : List Char → List Char
  | [] => []
  | '\r' :: '\n' :: rest => '\n' :: unifyLineEnds rest
  | '\r' :: rest => '\n' :: unifyLineEnds rest
  | c :: rest => c :: unifyLineEnds rest

/-- The text of a file. -/
def File.text (file : File) : Except Fault String :=
  match String.fromUTF8? file.bytes with
  | some text => .ok (String.ofList (unifyLineEnds text.toList))
  | none => .error .notUnicode

theorem File.text_toUTF8 (path name text : String) :
    File.text ⟨path, name, text.toUTF8⟩ = .ok (String.ofList (unifyLineEnds text.toList)) := by
  have utf8 : String.fromUTF8? text.toUTF8 = some text := by
    simp only [String.fromUTF8?, Option.dite_none_right_eq_some]
    exact ⟨text.isValidUTF8, rfl⟩
  rw [File.text, utf8]

/-- The value of a JSON text. -/
def ofJson (text : Value) : Except LoadError Value :=
  match text with
  | .scalar (.str text) => match Json.read text with
    | .ok value => .ok value
    | .error (.malformed problem place) => .error (.json problem place)
    | .error .tooManyDigits => .error (.fault .notNumeral)
  | value => .error (.jsonNotText value)

/-- The outcome of reading a notation that has one message for all of its errors. -/
def orUnreadable (reason : Unreadable) :
    Except DocumentProblem Value → Except LoadError Value
  | .ok value => .ok value
  | .error .malformed => .error (.unreadable reason)
  | .error (.fault reason) => .error (.fault reason)

/-- A reader of a notation. -/
abbrev Reader := String → Except DocumentProblem Value

/-- The value of a text in a notation. -/
def ofText (yaml : Reader) (path : String) (text : String) : Format → Except LoadError Value
  | .json => ofJson (.str text)
  | .yaml => orUnreadable (.yaml path) (yaml text)
  | .toml => orUnreadable (.toml path) (Toml.read text)

/-- The document in a file. -/
def read (yaml : Reader) (file : File) : Except LoadError Value := do
  let text ← file.text
  let value ← ofText yaml file.path text (Format.ofName file.name)
  match value with
  | .map fields => match Fields.get fields "rules" with
    | .map _ => return value
    | _ => throw (.misfit (.noRules (.document file.path)))
  | _ => throw (.unreadable (.notObject file.path))

end TextGrammar.Document
