/-
Checking a network, and checking and repairing it.

Rules are taken group by group, and every violation found is repaired with what it brings about. A large network is
cut into blocks: rules that a block cannot decide alone are checked first, around the ends of the links between blocks
and around ids that several elements bear; then each block is treated as a network of its own and written back; and
references that dangle afterwards, because another block has lost an element, are settled at the end.
-/
import RoadRules.Run.Closure
import RoadRules.Network.Partition
import RoadRules.Network.Index
import RoadRules.Rule.Schedule

namespace RoadRules

/-- what comes of checking and repairing a network -/
structure RunOutcome where
  result : RunResult
  /-- the network that was given, afterwards -/
  network : RoadMap
  /-- the repaired copy, if the network itself was to stay as it is -/
  copy : Option RoadMap

namespace Plan

def verify (p : Plan) (n : Network) : RunResult :=
  RunResult.recordInitial { rules := p.rules, verificationRuns := 1 } (p.catalog.verify n p.rules)

/-- checks one group of rules and repairs what is found -/
def runGroup (p : Plan) (c : Course) (g : RuleGroup) : Course :=
  let found := p.catalog.verify c.map.network g.rules
  p.repairAll { c with result := (c.result.addRuns 1 0).recordInitial found } found

/-- checks and repairs a network as a whole -/
def runWhole (p : Plan) (m : RoadMap) : Course :=
  (RuleGroup.ofRules p.rules).foldl p.runGroup ⟨m, { rules := p.rules }⟩

/-! ## Blocks -/

/-- the violations of some rules whose first id is one of the given ones; their neighbourhood is enough to find them -/
def verifyAround (p : Plan) (n : Network) (ids : IdSet) (rules : List RuleId) : Violations :=
  (p.catalog.verify (p.vicinity n ids.toList) rules).filter fun v => v.location.head?.any ids.contains

/-- repairs what the blocks cannot find out alone -/
def repairAcross (p : Plan) (partition : Partition) (c : Course) : Course :=
  let rules := p.rules.filter (·.spansBlocks)
  let ids := (partition.boundary c.map.network).union (NetworkIndex.build c.map.network).sharedIds
  if rules.isEmpty || ids.isEmpty then c
  else
    let found := p.verifyAround c.map.network ids rules
    p.repairAll { c with result := (c.result.addRuns 1 0).recordInitial found } found

/-- runs copies of the scopes one after the other, with one counter for ids; gives the copies and the results -/
def runBlocks (p : Plan) (ids : IdAllocator) : List (Scope × Network) → IdAllocator × List (Scope × Network × RunResult)
  | [] => (ids, [])
  | (scope, copy) :: rest =>
    let c := p.runWhole ⟨copy, ids⟩
    let (ids, done) := runBlocks p c.map.ids rest
    (ids, (scope, c.map.network, c.result) :: done)

/-- writes a block back -/
def settleBlock (c : Course) (block : Scope × Network × RunResult) : Course :=
  ⟨c.map.merge block.1 block.2.1, c.result.absorb block.2.2⟩

/-- repairs elements with references that have come to dangle -/
def settleDangling (p : Plan) (c : Course) : Course :=
  let referrers := c.map.network.danglingReferrers
  if referrers.isEmpty then c
  else
    let found := p.verifyAround c.map.network referrers p.rules
    p.repairAll { c with result := c.result.addRuns 1 0 } found

/-- checks and repairs a network block by block -/
def runPartitioned (p : Plan) (m : RoadMap) : Course :=
  let size := p.config.blockSize
  let c := p.repairAcross (m.network.partition size) ⟨m, { rules := p.rules, partitioned := true }⟩
  let n := c.map.network
  let scopes := (n.partition size).parts.map n.blockScope
  let (ids, blocks) := p.runBlocks c.map.ids (scopes.map fun s => (s, n.extract s))
  let start : Course := ⟨{ c.map with ids }, { c.result with blockCount := scopes.length }⟩
  p.settleDangling (blocks.foldl settleBlock start)

/-! ## Whole runs -/

def run (p : Plan) (m : RoadMap) : Course :=
  if p.config.partitionThreshold < m.network.count .lanelet then p.runPartitioned m else p.runWhole m

def verifyAndRepair (p : Plan) (m : RoadMap) : RunOutcome :=
  let c := p.run m
  if p.config.overwrite then ⟨c.result, c.map, none⟩ else ⟨c.result, m, some c.map⟩

end Plan

end RoadRules
