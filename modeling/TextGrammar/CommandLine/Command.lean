import TextGrammar.CommandLine.Arguments
import TextGrammar.Number.Numeral

/-!
Commands of the program and how they are written.
-/

namespace TextGrammar

/-- How a text is rendered: how often, from which seed, with the context kept or not, and whether
the grammar consists of keyword rules. -/
structure RenderOptions where
  count : Int
  seed : Option Int
  preserve : Bool
  keywords : Bool
deriving DecidableEq, Repr

/-- What the program can be asked to do. -/
inductive Command where
  | help
  | version
  | render (path text : String) (options : RenderOptions)
  | validate (path : String) (keywords json : Bool)
  | functions
  | classify (path : String) (json : Bool)
deriving DecidableEq, Repr

namespace Command

open CommandLine

/-- The path of the grammar that a command needs. -/
def path? : Command → Option String
  | render path .. | validate path .. | classify path _ => some path
  | help | version | functions => none

/-- An option without a letter and without a value. -/
def flag (name : String) : Known := ⟨name, none, false⟩

/-- An integer that may be given; nothing if it is given and is none. -/
def integer? (arguments : Arguments) (name : String) : Option (Option Int) :=
  match arguments.value? name with
  | none => some none
  | some text => (Numeral.integer? text.toList).map some

/-- The arguments of a command. -/
def arguments? (known : List Known) (words : List String) : Option Arguments :=
  Arguments.read? (flag "help" :: known) true (words.length + 1) words

/-- The command that renders a text. -/
def render? (words : List String) : Option Command := do
  let arguments ← arguments? [⟨"count", some 'n', true⟩, ⟨"seed", none, true⟩,
    flag "preserve-context", flag "keywords"] words
  if arguments.has "help" then return help
  let count ← integer? arguments "count"
  let seed ← integer? arguments "seed"
  let options : RenderOptions :=
    ⟨count.getD 1, seed, arguments.has "preserve-context", arguments.has "keywords"⟩
  match arguments.operands with
  | [path, text] => return render path text options
  | _ => none

/-- The command that reviews a grammar. -/
def validate? (words : List String) : Option Command := do
  let arguments ← arguments? [flag "keywords", flag "json"] words
  if arguments.has "help" then return help
  match arguments.operands with
  | [path] => return validate path (arguments.has "keywords") (arguments.has "json")
  | _ => none

/-- The command that lists functions. -/
def functions? (words : List String) : Option Command := do
  let arguments ← arguments? [] words
  if arguments.has "help" then return help
  if arguments.operands.isEmpty then return functions else none

/-- The command that classifies keyword rules. -/
def classify? (words : List String) : Option Command := do
  let arguments ← arguments? [flag "json"] words
  if arguments.has "help" then return help
  match arguments.operands with
  | [path] => return classify path (arguments.has "json")
  | _ => none

/-- The command with a name. -/
def named? (name : String) (words : List String) : Option Command :=
  match name with
  | "render" => render? words
  | "validate" => validate? words
  | "functions" => functions? words
  | "classify" => classify? words
  | _ => none

/-- The command that the words of a command line denote, if they denote one. Of the requests for
help and for the version the first one counts, whatever follows. -/
def ofWords? (words : List String) : Option Command := do
  let known := [flag "help", flag "version", ⟨"verbose", some 'v', false⟩]
  let arguments ← Arguments.read? known false (words.length + 1) words
  match arguments.options.find? fun given => given.name ≠ "verbose" with
  | some given => return if given.name = "help" then help else version
  | none => match arguments.operands with
    | name :: rest => named? name rest
    | [] => none

end Command

end TextGrammar
