/-
What a command does: the texts it prints, the files it writes, and the error it ends with.

A command reads its files first, so a script depends on nothing but their contents.
-/
import RoadRules.Command.Basic
import RoadRules.Run.Report
import RoadRules.Network.Document

namespace RoadRules

/-- a step of a script -/
inductive Action where
  /-- writes a text and a line break to standard output -/
  | print (text : String)
  /-- writes a file; if that fails the script ends -/
  | write (path text : String)
  /-- writes a line to standard error -/
  | note (line : String)

structure Script where
  actions : List Action
  /-- the message of the error at the end, if there is one -/
  failure : Option String := none

namespace Command

/-- gives the contents of a file, or why it cannot be read -/
abbrev FileReader := String → Except String String

def problemText : Json.Problem → String
  | .malformed => "not JSON"
  | .ended => "the text ends too early"
  | .shape => "a field is missing or has the wrong form"

/-- reads a file; a failure names the file -/
def readFile (read : FileReader) (path : String) : Except String String :=
  match read path with
  | .ok text => .ok text
  | .error e => .error s!"failed to read {path}: {e}"

def loadNetwork (read : FileReader) (path : String) : Except String RoadMap := do
  let text ← readFile read path
  match Json.decode Document.decoder text with
  | .ok d => return .ofDocument d
  | .error e => .error s!"{path} is not a network document: {problemText e}"

def loadConfig (read : FileReader) (path : Option String) : Except String Config :=
  match path with
  | none => .ok {}
  | some path => do
    let text ← readFile read path
    match Json.decode Config.decoder text with
    | .ok c => return c
    | .error e => .error s!"invalid config {path}: {problemText e}"

/-- the settings of a run: those of the file, with the options of the command line over them -/
def settings (read : FileReader) (o : RunOptions) : Except String Config := do
  let c ← loadConfig read o.config
  let rules ← if o.formulas.isEmpty then .ok c.rules else (RuleId.parseAll o.formulas).mapError CatalogError.message
  return { c with
    rules
    maxIterations := o.maxIterations.getD c.maxIterations
    partitionThreshold := o.partitionThreshold.getD c.partitionThreshold
    blockSize := o.blockSize.getD c.blockSize
    parallel := c.parallel && !o.sequential }

/-- the plan of a run with the full rule set -/
def plan (c : Config) : Except String Plan := do
  let catalog ← Catalog.standard.mapError CatalogError.message
  (Plan.ofConfig c catalog).mapError PlanError.message

inductive Format where
  | text
  | json

/-- the form of a report; case and blanks around the word do not count -/
def format (word : String) : Except String Format :=
  let word := String.ofList ((RuleId.trim word).toList.map Char.toLower)
  match word with
  | "text" => .ok .text
  | "json" => .ok .json
  | _ => .error s!"unknown --format `{word}` (expected json|text)"

/-- a report, in a file or on standard output -/
def emit (text : String) : Option String → List Action
  | some path => [.write path text, .note s!"wrote {path}"]
  | none => [.print text]

def render (f : Format) (text : String) (json : Json) : String :=
  match f with
  | .text => text
  | .json => json.pretty

/-- the script of a command, or the error that comes before anything is done -/
def script? (read : FileReader) : Command → Except String Script
  | verify o noFail => do
    let f ← format o.format
    let p ← plan (← settings read o)
    let m ← loadNetwork read o.input
    let r := p.verify m.network
    let failure :=
      if 0 < r.initialCount && !noFail then some s!"verification found {r.initialCount} violation(s)" else none
    return ⟨emit (render f (Report.verification r o.input) r.toJson) o.report, failure⟩
  | repair o out => do
    let f ← format o.format
    let c ← settings read o
    let p ← plan { c with overwrite := true }
    let m ← loadNetwork read o.input
    let outcome := p.verifyAndRepair m
    let r := outcome.result
    let repaired := outcome.network.network.toDocument.toJson.pretty
    let warning :=
      if r.repairingPossible then []
      else [Action.note s!"warning: {r.residual.length} violation(s) could not be repaired"]
    return ⟨emit (render f (Report.repair r o.input) r.toJson) o.report ++
      [.write out repaired, .note s!"wrote {out}"] ++ warning, none⟩
  | partition input blockSize word => do
    let f ← format word
    if blockSize = 0 then .error "--block-size must be at least 1"
    let m ← loadNetwork read input
    let p := m.network.partition blockSize
    return ⟨emit (render f (Report.partition p) p.toJson) none, none⟩
  | formulas word source => do
    let f ← format word
    let c ← Catalog.standard.mapError CatalogError.message
    return ⟨emit (render f (Report.rules c source) (Report.catalogJson c)) none, none⟩

def script (read : FileReader) (c : Command) : Script :=
  match c.script? read with
  | .ok s => s
  | .error e => ⟨[], some e⟩

/-- the name and the version of the program -/
def version : String := "laneguard 0.3.0\n"

/-- how the program is called -/
def usage : String :=
  "Usage: verify <INPUT> [--no-fail] [RUN OPTIONS]\n" ++
  "       repair <INPUT> --out <FILE> [RUN OPTIONS]\n" ++
  "       partition <INPUT> [--block-size <N>] [--format text|json]\n" ++
  "       formulas [--source] [--format text|json]\n\n" ++
  "Run options: --config <FILE>, --formulas <NAMES>, --max-iterations <N>, --partition-threshold <N>,\n" ++
  "             --block-size <N>, --sequential, --format text|json, --report <FILE>\n"

end Command

end RoadRules
