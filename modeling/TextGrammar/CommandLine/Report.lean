import TextGrammar.CommandLine.Command
import TextGrammar.Engine.Review
import TextGrammar.Json.Printer
import TextGrammar.Session

/-!
Reports: what the program prints for a command, and how it ends.
-/

namespace TextGrammar

/-- What a path leads to: nothing that can be read, or a file. -/
inductive Place where
  | absent
  | file (file : Document.File)

/-- What is printed: a text, or a table with its rows. -/
inductive Printed where
  | text (text : String)
  | table (rows : List (String × String))
deriving DecidableEq, Repr

/-- How the program ends: with a code, with a message about a grammar or a text, or with a value
that cannot be used as asked. -/
inductive Ending where
  | exit (code : Nat)
  | refused (message : String)
  | fault (fault : Fault)
deriving DecidableEq, Repr

/-- The code that the system is given. -/
def Ending.code : Ending → Nat
  | exit code => code
  | refused _ | fault _ => 1

/-- What is printed and how the program ends. -/
structure Report where
  printed : Printed
  ending : Ending
deriving DecidableEq, Repr

namespace Report

/-- Nothing is printed. -/
def silent (ending : Ending) : Report := ⟨.text "", ending⟩

/-- The command line cannot be understood. -/
def misuse : Report := silent (.exit 2)

/-- The name and the version of the program. -/
def versionText : String := "storyloader, version 0.3.0\n"

/-- How the program ends after an error of loading. -/
def ofLoadError (error : LoadError) : Ending :=
  match error, error.message? with
  | .fault reason, _ => .fault reason
  | _, message => .refused (message.getD "")

/-- How the program ends after a refusal. -/
def ofRefusal : Refusal → Ending
  | .load error => ofLoadError error
  | .engine (.fault reason) => .fault reason
  | .engine failure => .refused (failure.message?.getD "")

variable {ρ ω : Type}

/-- A session with the grammar of a file. -/
def load [Draws ρ] [Seeded ρ] [World ω] (yaml : Document.Reader) (session : Session ρ ω)
    (keywords : Bool) (file : Document.File) : Except Ending (Session ρ ω) := do
  let value ← (Document.read yaml file).mapError ofLoadError
  let job := if keywords then Load.Job.keywords value else Load.Job.document value
  let (outcome, session) := session.act (.load job)
  match outcome.result with
  | .ok _ => return session
  | .error refusal => throw (ofRefusal refusal)

/-- Lines of generated texts, as many as are asked for, up to one that fails. -/
def lines [Draws ρ] [Seeded ρ] [World ω] (text : String) (preserve : Bool) :
    Nat → Session ρ ω → String → Report
  | 0, _, printed => ⟨.text printed, .exit 0⟩
  | count + 1, session, printed =>
    let (outcome, session) := session.act (.generate text preserve)
    match outcome.result with
    | .ok (.text line) => lines text preserve count session (printed ++ line ++ "\n")
    | .ok _ => lines text preserve count session printed
    | .error refusal => ⟨.text printed, ofRefusal refusal⟩

/-- Renders a text at least once. A seed that is given replaces the one of the grammar. -/
def render [Draws ρ] [Seeded ρ] [World ω] (yaml : Document.Reader) (session : Session ρ ω)
    (text : String) (options : RenderOptions) (file : Document.File) : Report :=
  match load yaml session options.keywords file with
  | .error ending => silent ending
  | .ok session =>
    let session := match options.seed with
      | some seed => (session.act (.setSeed seed)).2
      | none => session
    lines text options.preserve (max options.count 1).toNat session ""

/-- A list of texts, to be printed. -/
def texts (items : List String) : Json.Output := .list (items.map .text)

/-- A review, to be printed. -/
def reviewOutput (review : Review) : Json.Output :=
  .object [("isValid", .truth review.isValid), ("missingRules", texts review.missing),
    ("circularReferences", texts (review.cycles.map Cycle.text)),
    ("warnings", texts review.warnings)]

/-- Reviews a grammar. -/
def validate [Draws ρ] [Seeded ρ] [World ω] (yaml : Document.Reader) (session : Session ρ ω)
    (keywords json : Bool) (file : Document.File) : Report :=
  match load yaml session keywords file with
  | .error ending => silent ending
  | .ok session => match session.engine.review with
    | .error reason => silent (.fault reason)
    | .ok review =>
      ⟨.text (if json then Json.write (reviewOutput review) ++ "\n" else ""),
        .exit (if review.isValid then 0 else 1)⟩

/-- The functions that a session begins with. -/
def functions (session : Session ρ ω) : Report :=
  ⟨.table (session.registry.definitions.map fun definition =>
    (definition.name, definition.description)), .exit 0⟩

/-- The name of the kind of a keyword rule, or a word for a rule of no kind. -/
def kindWord (rule : Value) : String :=
  match Keyword.kind? rule with
  | some kind => kind.name
  | none => "ambiguous"

/-- The kinds of keyword rules by their names, of which a later one replaces an earlier one. -/
def kindWords (rules : Fields) : Except Fault (Table String) := do
  return .ofList (← rules.mapM fun (name, rule) => do return (← name.text, kindWord rule))

/-- The names of the rules of no kind. -/
def ambiguous (kinds : Table String) : List String :=
  (kinds.entries.filter fun entry => entry.2 = "ambiguous").map Prod.fst

/-- The kinds of keyword rules, to be printed. -/
def kindsOutput (kinds : Table String) : Json.Output :=
  .object [("rules", .object (kinds.entries.map fun (name, kind) => (name, .text kind))),
    ("ambiguous", texts (ambiguous kinds))]

/-- Classifies the keyword rules of a grammar without loading them. -/
def classify (yaml : Document.Reader) (json : Bool) (file : Document.File) : Report :=
  match Document.read yaml file with
  | .error error => silent (ofLoadError error)
  | .ok document =>
    match kindWords (Fields.get document.fieldsOrEmpty "rules").fieldsOrEmpty with
    | .error reason => silent (.fault reason)
    | .ok kinds =>
      ⟨.text (if json then Json.write (kindsOutput kinds) ++ "\n" else ""),
        .exit (if (ambiguous kinds).isEmpty then 0 else 1)⟩

/-- The report on a command, given what its path leads to. -/
def ofCommand [Draws ρ] [Seeded ρ] [World ω] (yaml : Document.Reader) (session : Session ρ ω)
    (place : Place) (command : Command) : Report :=
  match command, place with
  | .help, _ => silent (.exit 0)
  | .version, _ => ⟨.text versionText, .exit 0⟩
  | .functions, _ => functions session
  | .render _ text options, .file file => render yaml session text options file
  | .validate _ keywords json, .file file => validate yaml session keywords json file
  | .classify _ json, .file file => classify yaml json file
  | _, _ => misuse

end Report

end TextGrammar
