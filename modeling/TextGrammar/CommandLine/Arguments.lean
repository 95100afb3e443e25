/-!
Arguments of a command: options and operands. A long option may carry its value behind an equals
sign, short ones may share a dash, and behind a double dash everything is an operand.
-/

namespace TextGrammar.CommandLine

/-- An option that a command knows: its long name, its letter, and whether a value follows it. -/
structure Known where
  name : String
  letter : Option Char
  takesValue : Bool

/-- An option that was given, with its value. -/
structure Given where
  name : String
  value : Option String
deriving DecidableEq, Repr

/-- The options and the operands of a command, in their order. -/
structure Arguments where
  options : List Given
  operands : List String
deriving DecidableEq, Repr

namespace Arguments

/-- The option was given. -/
def has (arguments : Arguments) (name : String) : Bool :=
  arguments.options.any (·.name = name)

/-- The value that was given last. -/
def value? (arguments : Arguments) (name : String) : Option String :=
  (arguments.options.reverse.find? (·.name = name)).bind Given.value

/-- An option by its long name, with the value behind an equals sign if there is one, and the
arguments behind it. -/
def long? (known : List Known) (text : List Char) (rest : List String) :
    Option (Given × List String) := do
  let name := String.ofList (text.takeWhile (· ≠ '='))
  let option ← known.find? (·.name = name)
  match option.takesValue, text.dropWhile (· ≠ '='), rest with
  | false, [], rest => some (⟨name, none⟩, rest)
  | true, _ :: value, rest => some (⟨name, some (String.ofList value)⟩, rest)
  | true, [], value :: rest => some (⟨name, some value⟩, rest)
  | _, _, _ => none

/-- Options by their letters, and the arguments behind them. What follows a letter that takes a
value is the value. -/
def short? (known : List Known) (rest : List String) :
    List Char → Option (List Given × List String)
  | [] => some ([], rest)
  | letter :: letters => do
    let option ← known.find? (·.letter = some letter)
    match option.takesValue, letters, rest with
    | false, letters, rest => do
      let (more, rest) ← short? known rest letters
      return (⟨option.name, none⟩ :: more, rest)
    | true, _ :: _, rest => return ([⟨option.name, some (String.ofList letters)⟩], rest)
    | true, [], value :: rest => return ([⟨option.name, some value⟩], rest)
    | true, [], [] => none

/-- Reads arguments; nothing if an option is not known or lacks its value. Unless options may stand
behind operands, everything from the first operand on is an operand. -/
def read? (known : List Known) (mixed : Bool) : Nat → List String → Option Arguments
  | 0, _ => none
  | _, [] => some ⟨[], []⟩
  | fuel + 1, argument :: rest =>
    match argument.toList with
    | ['-', '-'] => some ⟨[], rest⟩
    | '-' :: '-' :: text => do
      let (given, rest) ← long? known text rest
      let more ← read? known mixed fuel rest
      return { more with options := given :: more.options }
    | '-' :: letter :: letters => do
      let (given, rest) ← short? known rest (letter :: letters)
      let more ← read? known mixed fuel rest
      return { more with options := given ++ more.options }
    | _ =>
      if mixed then do
        let more ← read? known mixed fuel rest
        return { more with operands := argument :: more.operands }
      else some ⟨[], argument :: rest⟩

end Arguments

end TextGrammar.CommandLine
