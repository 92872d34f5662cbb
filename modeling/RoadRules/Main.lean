/-
The program: reads the command line, and carries out the script of its command on real files.
-/
import RoadRules.Command.Directory

namespace RoadRules

/-- the number of a failure, which may come with a minus sign -/
def errorNumber (code : UInt32) : UInt32 := if code < 0x80000000 then code else 0 - code

/-- the text of a failure in reading or writing -/
def fileErrorText (e : IO.Error) : String :=
  match e with
  | .noFileOrDirectory .. => FileError.noSuchFile.message
  | .inappropriateType _ code _ =>
    if errorNumber code = 20 then FileError.notADirectory.message else FileError.isADirectory.message
  | .invalidArgument _ code _ => if errorNumber code = 36 then FileError.nameTooLong.message else toString e
  | e => toString e

/-- the files that a command reads -/
def Command.inputFiles : Command → List String
  | .verify o _ | .repair o _ => o.config.toList ++ [o.input]
  | .partition input .. => [input]
  | .formulas .. => []

/-- a file's contents, or why it cannot be read -/
def readInput (path : String) : IO (String × Except String String) := do
  match ← (IO.FS.readFile path).toBaseIO with
  | .ok text => return (path, .ok text)
  | .error e => return (path, .error (fileErrorText e))

def fail (message : String) : IO UInt32 := do
  IO.eprintln s!"Error: {message}"
  return 1

def perform (failure : Option String) : List Action → IO UInt32
  | [] =>
    match failure with
    | none => return 0
    | some e => fail e
  | .print text :: rest => do
    IO.println text
    perform failure rest
  | .note line :: rest => do
    IO.eprintln line
    perform failure rest
  | .write path text :: rest => do
    match ← (IO.FS.writeFile path text).toBaseIO with
    | .ok () => perform failure rest
    | .error e => fail (fileErrorText e)

end RoadRules

open RoadRules in
def main (args : List String) : IO UInt32 := do
  match Command.ofArguments args with
  | .error .help =>
    IO.print Command.usage
    return 0
  | .error .version =>
    IO.print Command.version
    return 0
  | .error .rejected =>
    IO.eprint Command.usage
    return 2
  | .ok c =>
    let files ← c.inputFiles.mapM readInput
    let s := c.script fun path => (files.lookup path).getD (.error "not read")
    perform s.failure s.actions
