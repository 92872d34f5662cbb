/-
Settings of a run, and the plan that follows from them and a catalog.
-/
import RoadRules.Rule.Catalog
import RoadRules.Json.Decoder

namespace RoadRules

structure Config where
  /-- the rules to check; none stands for all rules of the catalog -/
  rules : List RuleId := []
  /-- after how many rounds the repair of a violation is given up -/
  maxIterations : Nat := 3
  /-- is the network itself repaired, and not a copy? -/
  overwrite : Bool := true
  /-- how many steps around an id belong to its neighbourhood -/
  radius : Nat := 1
  /-- networks with more lanelets than this are cut into blocks -/
  partitionThreshold : Nat := 200
  /-- how many lanelets a block may have -/
  blockSize : Nat := 50
  /-- may independent work be done at the same time? The outcome is the same. -/
  parallel : Bool := true
  deriving DecidableEq, Repr

/-- why there is no plan -/
inductive PlanError where
  | invalidMaxIterations
  | invalidRadius
  | invalidBlockSize
  | catalog (cause : CatalogError)
  deriving DecidableEq, Repr

def PlanError.message : PlanError → String
  | invalidMaxIterations => "max_iterations must be greater than zero"
  | invalidRadius => "submap_radius must be at least 1"
  | invalidBlockSize => "block_size must be at least 1"
  | catalog cause => cause.message

namespace Config

/-- the first setting that cannot be used is an error -/
def validate (c : Config) : Except PlanError Unit :=
  if c.maxIterations = 0 then .error .invalidMaxIterations
  else if c.radius = 0 then .error .invalidRadius
  else if c.blockSize = 0 then .error .invalidBlockSize
  else .ok ()

open Json.Decoder in
def decoder {φ : Type} : Json.Decoder φ Config :=
  let count : Json.Decoder φ Nat := nat (UInt64.size - 1)
  record
    [optional "formulas" (list (word RuleId.ofName?)) fun v c => { c with rules := v },
      optional "max_iterations" count fun v c => { c with maxIterations := v },
      optional "overwrite_scenario" bool fun v c => { c with overwrite := v },
      optional "submap_radius" count fun v c => { c with radius := v },
      optional "partition_threshold" count fun v c => { c with partitionThreshold := v },
      optional "block_size" count fun v c => { c with blockSize := v },
      optional "parallel" bool fun v c => { c with parallel := v }]
    {}

def toJson (c : Config) : Json := .object
  [("formulas", .list (c.rules.map fun r => .str r.name)),
    ("max_iterations", .nat c.maxIterations),
    ("overwrite_scenario", .bool c.overwrite),
    ("submap_radius", .nat c.radius),
    ("partition_threshold", .nat c.partitionThreshold),
    ("block_size", .nat c.blockSize),
    ("parallel", .bool c.parallel)]

end Config

/-- settings with a catalog that has all the rules to check -/
structure Plan where
  config : Config
  catalog : Catalog
  /-- the rules to check, in catalog order -/
  rules : List RuleId

def Plan.ofConfig (config : Config) (catalog : Catalog) : Except PlanError Plan :=
  match config.validate with
  | .error e => .error e
  | .ok () =>
    match catalog.select config.rules with
    | .error e => .error (.catalog e)
    | .ok rules => .ok ⟨config, catalog, rules⟩

end RoadRules
