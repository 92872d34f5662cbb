/-
Repairs of violations, one way for each rule.

A repair starts at the elements that bear the first id of the location. It does what makes the rule hold there,
nothing if the rule holds already, and says whether it changed anything. What it breaks elsewhere is for the next
check to find.
-/
import RoadRules.Repair.Reference
import RoadRules.Repair.Link
import RoadRules.Repair.Content
import RoadRules.Rule.RuleId

namespace RoadRules

/-! ## Ids -/

namespace RoadMap

/-- gives fresh ids to some elements, as far as there are any left -/
def reassignAll (m : RoadMap) : List Handle → RoadMap × Bool
  | [] => (m, false)
  | h :: rest =>
    match m.reassignId? h with
    | some (_, m) => ((reassignAll m rest).1, true)
    | none => reassignAll m rest

/-- of the elements that bear an id, all but the first get fresh ids -/
def separateIds (m : RoadMap) (id : ElementId) : RoadMap × Bool := m.reassignAll (m.network.handlesWithId id).tail

end RoadMap

/-! ## Rules -/

/-- what an edit makes of a network with its counter -/
def RoadMap.edited (m : RoadMap) (e : Edited) : RoadMap × Bool := ({ m with network := e.network }, e.changed)

namespace RuleId

/-- the repair of a rule at a location that starts with `id` -/
def repairAt (r : RuleId) (m : RoadMap) (id : ElementId) (rest : List ElementId) : RoadMap × Bool :=
  let n := m.network
  match r with
  | uniqueIdLa | uniqueIdTs | uniqueIdTl | uniqueIdIn => m.separateIds id
  | sameVerticesSize => m.edited (n.equalizeVertexCounts id)
  | verticesMoreThanOne => m.edited (n.removeDegenerate id)
  | polylinesSameDirection => m.edited (n.alignBorders id)
  | leftSelfIntersection => m.edited (n.untangle id .left)
  | rightSelfIntersection => m.edited (n.untangle id .right)
  | existenceLeftAdj => m.edited (n.dropAdjacency id .left)
  | existenceRightAdj => m.edited (n.dropAdjacency id .right)
  | existencePredecessor => m.edited (n.dropPredecessors id)
  | existenceSuccessor => m.edited (n.dropSuccessors id)
  | connectionsPredecessor => m.edited (n.completePredecessors id)
  | connectionsSuccessor => m.edited (n.completeSuccessors id)
  | nonPredecessorAsSuccessor =>
    match rest with
    | other :: _ => m.edited (n.breakTwoWayLinks id other)
    | [] => (m, false)
  | existenceTrafficSigns => m.edited (n.dropTrafficSigns id)
  | existenceTrafficLights => m.edited (n.dropTrafficLights id)
  | existenceStopLineTrafficSigns => m.edited (n.dropStopLineSigns id)
  | existenceStopLineTrafficLights => m.edited (n.dropStopLineLights id)
  | includedStopLineTrafficSigns => m.edited (n.includeStopLineSigns id)
  | atLeastOneTrafficSignElement => m.edited (n.removeEmptySigns id)
  | referencedTrafficSign => m.edited (n.attachTrafficSigns id)
  | givenAdditionalValue => m.edited (n.dropPlatesWithoutValues id)
  | validAdditionalValueSpeedSign => m.edited (n.dropSpeedValues id)
  | atLeastOneCycleElement => m.edited (n.installCycle id)
  | nonZeroDuration => m.edited (n.dropZeroDurations id)
  | uniqueStateInCycle => m.edited (n.dropRepeatedPhases id)
  | referencedTrafficLight => m.edited (n.attachTrafficLights id)
  | atLeastTwoIncomingElements => m.edited (n.removeUnderfull id)
  | existenceIncomingLanelets => m.edited (n.dropIncomings id)
  | existenceSuccessorLanelets => m.edited (n.dropGroupSuccessors id)
  | atLeastOneRoadConnection => m.edited (n.inferConnections id)
  | existenceCrossings => m.edited (n.dropCrossings id)

end RuleId

namespace RoadMap

/-- repairs a violation, and says whether anything changed; without an id in the location nothing does -/
def repair (m : RoadMap) (v : Violation) : RoadMap × Bool :=
  match v.location with
  | [] => (m, false)
  | id :: rest => v.rule.repairAt m id rest

/-- repairs violations one after the other; says for each one whether anything changed -/
def repairEach (m : RoadMap) : List Violation → RoadMap × List (RuleId × Bool)
  | [] => (m, [])
  | v :: rest =>
    let (m, changed) := m.repair v
    let (m, outcomes) := repairEach m rest
    (m, (v.rule, changed) :: outcomes)

end RoadMap

/-! ## Reports -/

/-- rules with numbers, in catalog order -/
abbrev Tally := List (RuleId × Nat)

/-- how often each rule occurs in a list -/
def Tally.ofList (rules : List RuleId) : Tally :=
  (RuleId.values.filter rules.contains).map fun r => (r, rules.count r)

/-- for each violation that was treated, its rule and whether its repair changed anything -/
structure RepairReport where
  outcomes : List (RuleId × Bool)

namespace RepairReport

/-- at how many locations of each rule something changed -/
def changed (r : RepairReport) : Tally := .ofList ((r.outcomes.filter (·.2)).map (·.1))

/-- at how many locations of each rule nothing had to change -/
def unchanged (r : RepairReport) : Tally := .ofList ((r.outcomes.filter (!·.2)).map (·.1))

def changeCount (r : RepairReport) : Nat := (r.outcomes.filter (·.2)).length

/-- has nothing changed? -/
def isNoop (r : RepairReport) : Bool := !r.outcomes.any (·.2)

end RepairReport

/-- repairs all violations, by rule in catalog order -/
def RoadMap.repairAll (m : RoadMap) (v : Violations) : RoadMap × RepairReport :=
  let (m, outcomes) := m.repairEach v.toList
  (m, ⟨outcomes⟩)

end RoadRules
