/-
Results as text and as JSON.
-/
import RoadRules.Run.Outcome
import RoadRules.Json.Printer

namespace RoadRules

namespace Report

/-- a time in nanoseconds, as seconds with three places -/
def seconds (time : Nat) : String :=
  Number.fixed 3 ((time / 1000000000).toFloat + (time % 1000000000).toFloat / 1e9)

/-- one line for each rule that is broken, with its locations -/
def violationLines (found : List Violation) : String :=
  let line (r : RuleId) : String :=
    let locations := (found.filter (·.rule == r)).map (·.location.text)
    if locations.isEmpty then "" else s!"  - {r.name} ({locations.length}): " ++ " ".intercalate locations ++ "\n"
  String.join (RuleId.values.map line)

/-- the lines that stand above the findings -/
def headLines (title path : String) (r : RunResult) : String :=
  s!"{title} {path}\n" ++ s!"  formulas: {r.rules.length}\n" ++
    s!"  verification: {seconds r.verificationTime}s over {r.verificationRuns} run(s)\n" ++
    (if 0 < r.repairRuns then s!"  repair: {seconds r.repairTime}s over {r.repairRuns} run(s)\n" else "") ++
    (if r.partitioned then s!"  partitioned into {r.blockCount} block(s)\n" else "")

def verification (r : RunResult) (path : String) : String :=
  headLines "verify" path r ++
    if r.isValid then "  no violations\n"
    else s!"  {r.initialCount} violation(s)\n" ++ violationLines r.initial

def repair (r : RunResult) (path : String) : String :=
  headLines "repair" path r ++
    if r.isValid then "  no violations\n"
    else
      let rounds := r.chains.foldl (fun total c => total + c.iterations) 0
      s!"  found {r.initialCount} violation(s), repaired {r.repairedCount}\n" ++ violationLines r.initial ++
        s!"  repair rounds: {rounds}\n" ++
        if r.repairingPossible then "  all violations repaired\n"
        else s!"  {r.residual.length} residual violation(s)\n" ++ violationLines r.residual

def blockLine (name : String) (b : Block) : String :=
  s!"  {name}: lanelets={b.lanelets.size} signs={b.trafficSigns.size} " ++
    s!"lights={b.trafficLights.size} intersections={b.intersections.size}\n"

def partition (p : Partition) : String :=
  s!"partition: {p.blocks.length} block(s)\n" ++
    String.join (p.blocks.zipIdx.map fun (b, i) => blockLine s!"block {i}" b) ++
    if p.catchAll.isEmpty then "" else blockLine "catch-all" p.catchAll

/-- a text with blanks behind it, up to a width -/
def padRight (width : Nat) (s : String) : String := s ++ String.ofList (List.replicate (width - s.length) ' ')

/-- the rules of a catalog by topic; with their formulas, if wanted -/
def rules (c : Catalog) (source : Bool) : String :=
  let lines (e : CatalogEntry) : String :=
    s!"  {padRight 36 e.rule.name} {e.rule.description}\n" ++
      if source then "  " ++ padRight 36 "" ++ s!" {e.text}\n" else ""
  String.join (Topic.values.map fun t =>
    match c.entries.filter fun e => e.rule.topic == t with
    | [] => ""
    | entries => s!"{t.name}\n" ++ String.join (entries.map lines))

end Report

/-! ## JSON -/

namespace Report

def rulesJson (rules : List RuleId) : Json := .list (rules.map fun r => .str r.name)

def locationJson (l : Location) : Json := .list (l.map fun id => .nat id.toNat)

def tallyJson (t : Tally) : Json := .object (t.map fun (r, k) => (r.name, .nat k))

def timeJson (time : Nat) : Json := .object [("secs", .nat (time / 1000000000)), ("nanos", .nat (time % 1000000000))]

/-- the rules of a catalog -/
def catalogJson (c : Catalog) : Json := .list (c.entries.map fun e => .object
  [("id", .str e.rule.name), ("domain", .str e.rule.topic.name), ("description", .str e.rule.description),
    ("source", .str e.text)])

end Report

def Violation.toJson (v : Violation) : Json :=
  .object [("formula", .str v.rule.name), ("location", Report.locationJson v.location)]

def RepairChain.toJson (c : RepairChain) : Json := .object
  [("formula", .str c.rule.name), ("location", Report.locationJson c.location), ("iterations", .nat c.iterations),
    ("success", .bool c.success)]

def RunResult.toJson (r : RunResult) : Json := .object
  [("formulas", Report.rulesJson r.rules),
    ("verification_time", Report.timeJson r.verificationTime),
    ("repair_time", Report.timeJson r.repairTime),
    ("verification_runs", .nat r.verificationRuns),
    ("repair_runs", .nat r.repairRuns),
    ("initial_violation_counts", Report.tallyJson r.initialCounts),
    ("initial_violations", .list (r.initial.map Violation.toJson)),
    ("residual_violations", .list (r.residual.map Violation.toJson)),
    ("chains", .list (r.chains.map RepairChain.toJson)),
    ("repairing_possible", .bool r.repairingPossible),
    ("partitioned", .bool r.partitioned),
    ("block_count", .nat r.blockCount)]

def Block.toJson (b : Block) : Json :=
  let ids (s : IdSet) : Json := .list (s.toList.map fun id => .nat id.toNat)
  .object [("lanelets", ids b.lanelets), ("traffic_signs", ids b.trafficSigns),
    ("traffic_lights", ids b.trafficLights), ("intersections", ids b.intersections)]

def Partition.toJson (p : Partition) : Json :=
  .object [("blocks", .list (p.blocks.map Block.toJson)), ("catch_all", p.catchAll.toJson)]

end RoadRules
