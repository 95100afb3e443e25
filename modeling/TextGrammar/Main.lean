import Std.Time.Zoned
import TextGrammar.CommandLine.Report
import TextGrammar.Random.Twister
import TextGrammar.Yaml.Reader

/-!
The program: reads the file that a command names, prints the report and ends with its code.
-/

namespace TextGrammar

/-- The world of the handlers on this machine: a generator, and the time the program began. -/
structure Machine where
  generator : Twister
  moment : Moment

instance : World Machine where
  below bound positive machine :=
    let (drawn, generator) := Draws.below bound positive machine.generator
    (drawn, { machine with generator })
  unit machine :=
    let (drawn, generator) := Draws.unit machine.generator
    (drawn, { machine with generator })
  clock format machine := machine.moment.text format

/-- The time on the clock. -/
def Moment.now : IO Moment := do
  let now : Std.Time.PlainDateTime ← Std.Time.PlainDateTime.now
  return ⟨now.year.toInt, now.month.val.toNat, now.day.val.toNat,
    (now.weekday.toOrdinal.val - 1).toNat, now.hour.val.toNat, now.minute.val.toNat,
    now.second.val.toNat⟩

/-- A seed that differs from run to run. -/
def freshSeed : IO Int := do
  let bytes ← IO.getRandomBytes 16
  return bytes.foldl (fun (seed : Int) byte => seed * 256 + byte.toNat) 0

/-- The file at a path, if it can be read. -/
def Place.find (path : String) : IO Place := do
  try
    let bytes ← IO.FS.readBinFile path
    return .file (.ofPath path bytes)
  catch _ => return .absent

/-- The lines of a table, its first column as wide as the longest name. -/
def tableLines (rows : List (String × String)) : List String :=
  let width := rows.foldl (fun width row => max width row.1.length) 0
  rows.map fun (name, description) =>
    name ++ String.ofList (List.replicate (width + 2 - name.length) ' ') ++ description

/-- How the program is used. -/
def usage : String :=
  "Usage: storyloader [-v] COMMAND [ARGS]...\n\nCommands:\n" ++
  "  render GRAMMAR TEXT [-n COUNT] [--seed SEED] [--preserve-context] [--keywords]\n" ++
  "  validate GRAMMAR [--keywords] [--json]\n" ++
  "  functions\n" ++
  "  classify GRAMMAR [--json]\n"

/-- Prints a report. -/
def Report.print (report : Report) : IO Unit := do
  match report.printed with
  | .text text => IO.print text
  | .table rows => (tableLines rows).forM fun line => IO.println line
  match report.ending with
  | .exit _ => pure ()
  | .refused message => IO.eprintln ("Error: " ++ message)
  | .fault _ => IO.eprintln "Error: a value of the grammar cannot be used as its rule asks"

/-- Runs the command that words denote. -/
def runWords (words : List String) : IO UInt32 := do
  match Command.ofWords? words with
  | none =>
    IO.eprint usage
    return 2
  | some .help =>
    IO.print usage
    return 0
  | some command =>
    let place ← match command.path? with
      | some path => Place.find path
      | none => pure .absent
    let engine : Engine Twister Machine := Engine.new
    let engine := { engine with generator := Twister.ofSeed (← freshSeed) }
    let session := Session.new engine ⟨Twister.ofSeed (← freshSeed), ← Moment.now⟩
    let report := Report.ofCommand Yaml.read session place command
    report.print
    return report.ending.code.toUInt32

end TextGrammar

def main (words : List String) : IO UInt32 := TextGrammar.runWords words
