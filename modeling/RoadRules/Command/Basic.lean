/-
The commands of the program, read from the command line.
-/
import RoadRules.Command.Arguments

namespace RoadRules

/-- what checking and repairing have in common -/
structure RunOptions where
  input : String
  config : Option String
  formulas : List String
  maxIterations : Option Nat
  partitionThreshold : Option Nat
  blockSize : Option Nat
  sequential : Bool
  format : String
  report : Option String

inductive Command where
  /-- reports where rules are broken -/
  | verify (options : RunOptions) (noFail : Bool)
  /-- repairs a network and writes it to a file -/
  | repair (options : RunOptions) (out : String)
  /-- shows the blocks of a network -/
  | partition (input : String) (blockSize : Nat) (format : String)
  /-- lists the rules -/
  | formulas (format : String) (source : Bool)

namespace Command

/-! ## Values of options -/

/-- a number of at most 64 bits in decimal digits, with or without a plus sign -/
def number? (s : String) : Option Nat :=
  let digits := match s.toList with
    | '+' :: rest => rest
    | cs => cs
  if digits.isEmpty || !digits.all Char.isDigit then none
  else
    let n := digits.foldl (fun n d => 10 * n + (d.toNat - '0'.toNat)) 0
    if n < UInt64.size then some n else none

def optionalNumber (a : Arguments) (name : String) : Option Nat := (a.value? name).bind number?

def orRejected {α : Type} : Option α → Except Stop α
  | some x => .ok x
  | none => .error .rejected

/-- the only plain argument, the name of the network's file -/
def input (a : Arguments) : Except Stop String := orRejected a.plain.head?

/-- the parts of a text between commas -/
def splitCommas (s : List Char) : List String :=
  match s with
  | [] => [""]
  | c :: rest =>
    match splitCommas rest with
    | [] => []
    | part :: parts => if c == ',' then "" :: part :: parts else String.ofList (c :: part.toList) :: parts

/-! ## Commands -/

def numberOption (name : String) : OptionSpec := { name, accepts := fun s => (number? s).isSome }

/-- an option with the name of a file, which cannot be empty -/
def fileOption (name : String) (short : Option Char := none) : OptionSpec :=
  { name, short, accepts := fun s => !s.isEmpty }

def formatOption : OptionSpec := { name := "format" }

def runOptions : List OptionSpec :=
  [fileOption "config", { name := "formulas", collects := true }, numberOption "max-iterations",
    numberOption "partition-threshold", numberOption "block-size", formatOption, fileOption "report"]

def runOptionsOf (a : Arguments) : Except Stop RunOptions := do
  let input ← input a
  return { input, config := a.value? "config", formulas := (a.values "formulas").flatMap fun s => splitCommas s.toList,
           maxIterations := optionalNumber a "max-iterations",
           partitionThreshold := optionalNumber a "partition-threshold",
           blockSize := optionalNumber a "block-size", sequential := a.hasFlag "sequential",
           format := (a.value? "format").getD "text", report := a.value? "report" }

def names : List String := ["verify", "repair", "partition", "formulas"]

/-- the command with a name, from the arguments behind the name -/
def named (name : String) (args : List String) : Except Stop Command := do
  match name with
  | "verify" =>
    let spec : ArgumentSpec := { flags := ["no-fail", "sequential"], options := runOptions, plain := 1 }
    let a ← Arguments.read spec none args {}
    return verify (← runOptionsOf a) (a.hasFlag "no-fail")
  | "repair" =>
    let options := fileOption "out" (some 'o') :: runOptions
    let a ← Arguments.read { flags := ["sequential"], options, plain := 1 } none args {}
    return repair (← runOptionsOf a) (← orRejected (a.value? "out"))
  | "partition" =>
    let a ← Arguments.read { options := [numberOption "block-size", formatOption], plain := 1 } none args {}
    return partition (← input a) ((optionalNumber a "block-size").getD 50) ((a.value? "format").getD "text")
  | "formulas" =>
    let a ← Arguments.read { flags := ["source"], options := [formatOption] } none args {}
    return formulas ((a.value? "format").getD "text") (a.hasFlag "source")
  | "help" =>
    match args with
    | [] => .error .help
    | [topic] => if ("help" :: names).contains topic then .error .help else .error .rejected
    | _ => .error .rejected
  | _ => .error .rejected

/-- the command of a command line -/
def ofArguments : List String → Except Stop Command
  | [] => .error .rejected
  | s :: rest => do
    match ← Arguments.item { versioned := true } s with
    | .plain name => named name rest
    | .flags _ => ofArguments rest
    | .option .. | .awaits _ | .rest => .error .rejected

end Command

end RoadRules
