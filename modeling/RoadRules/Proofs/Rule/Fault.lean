/-
The faults that rules forbid.

There are six ways to break a rule (`Fault`): an element is wrong in itself, refers to something that does not exist,
shares its id, has a link that the other lanelet does not note, has a lanelet both before and behind it, or no lanelet
refers to it. `RuleId.fault` says for each rule which of these it forbids, and of what; `Fault.At` says where a network
has a fault.
-/
import RoadRules.Rule.RuleId
import RoadRules.Network.Basic

namespace RoadRules

/-! ## Elements that are right in themselves -/

/-- the number of items, as formulas count it -/
def itemCount {α : Type} (items : List α) : Int64 := Int64.ofNat items.length

namespace Lanelet

def hasEvenBorders (l : Lanelet) : Bool := itemCount l.left = itemCount l.right

def hasBorders (l : Lanelet) : Bool := 1 < itemCount l.left && 1 < itemCount l.right

/-- the left border starts no farther from the start of the right one than from its end -/
def hasAlignedBorders (l : Lanelet) : Bool :=
  if 0 < itemCount l.left && 0 < itemCount l.right then
    match l.left[0]?, l.right[0]?, l.right.reverse[0]? with
    | some a, some b, some z => a.distance b < a.distance z || a.distance b == a.distance z
    | _, _, _ => false
  else true

def hasSimpleLeft (l : Lanelet) : Bool := !Polyline.isSelfCrossing Vec2.crossing? l.left

def hasSimpleRight (l : Lanelet) : Bool := !Polyline.isSelfCrossing Vec2.crossing? l.right

/-- the ids of the signs and lights that the stop line refers to -/
def stopLineSigns (l : Lanelet) : List ElementId := (l.stopLine.map (·.trafficSigns.toList)).getD []

def stopLineLights (l : Lanelet) : List ElementId := (l.stopLine.map (·.trafficLights.toList)).getD []

def includesStopLineSigns (l : Lanelet) : Bool := l.stopLineSigns.all l.trafficSigns.toList.contains

end Lanelet

namespace TrafficSign

def hasPlates (s : TrafficSign) : Bool := 1 ≤ itemCount s.plates

def hasValues (s : TrafficSign) : Bool := s.plates.all fun p => !needsValue p.code || 0 < itemCount p.values

/-- is every speed limit above zero? -/
def hasPositiveSpeeds (s : TrafficSign) : Bool :=
  s.plates.all fun p => !isSpeedLimitCode p.code ||
    p.values.all fun v => Value.compareFloat? v (Number.ofInt64 0) == some .gt

end TrafficSign

namespace TrafficLight

def hasCycle (t : TrafficLight) : Bool := 1 ≤ itemCount t.cycle

def hasLastingPhases (t : TrafficLight) : Bool := t.cycle.all fun c => 0 < Int64.ofNat c.duration.toNat

/-- the first position of an item, and an error if there is none -/
def firstPlace (items : List Value) (v : Value) : Except EvalError Value :=
  match items.findIdx? (·.looseEq v) with
  | some i => .ok (.ofNat i)
  | none => .error (.notFound Builtin.index.name)

/-- is the first place of each phase the last one too? The last one is found from behind. -/
def hasDistinctPhases (t : TrafficLight) : Bool :=
  let phases : List Value := t.cycle.map fun c => .str c.phase.name
  let minus := Builtin.arithmetic Builtin.sub.name (· - ·) (· - ·)
  phases.all fun p =>
    match (do
      let first ← firstPlace phases p
      let last ← minus (.int (itemCount phases)) (.int 1)
      let behind ← firstPlace phases.reverse p
      return first.looseEq (← minus last behind) : Except EvalError Bool) with
    | .ok b => b
    | .error _ => false

end TrafficLight

namespace Intersection

def hasIncomings (i : Intersection) : Bool := 2 ≤ itemCount i.incomings

/-- does every group lead somewhere? -/
def hasConnections (i : Intersection) : Bool := i.incomings.all fun g =>
  0 < itemCount g.left.toList || 0 < itemCount g.right.toList || 0 < itemCount g.straight.toList

end Intersection

/-! ## Faults -/

/-- the ways to break a rule -/
inductive Fault where
  /-- an element of the kind bears the id of another element -/
  | shared (kind : Kind)
  /-- an element is wrong in itself -/
  | own (wrong : Element → Bool)
  /-- an element refers to something of the kind that exists neither here nor outside -/
  | missing (kind : Kind) (refs : Element → List ElementId)
  /-- a lanelet lists another one that does not list it in turn -/
  | unanswered (there back : Lanelet → IdSet)
  /-- a lanelet has another one both before and behind it -/
  | bothWays
  /-- no lanelet refers to an element of the kind -/
  | unreferenced (kind : Kind) (refs : Lanelet → List ElementId)

namespace Fault

def ofLanelet (right : Lanelet → Bool) : Fault := .own fun | .lanelet l => !right l | _ => false

def ofSign (right : TrafficSign → Bool) : Fault := .own fun | .trafficSign s => !right s | _ => false

def ofLight (right : TrafficLight → Bool) : Fault := .own fun | .trafficLight t => !right t | _ => false

def ofIntersection (right : Intersection → Bool) : Fault := .own fun | .intersection i => !right i | _ => false

def missingFrom (kind : Kind) (refs : Lanelet → List ElementId) : Fault :=
  .missing kind fun | .lanelet l => refs l | _ => []

def missingAt (refs : Intersection → List ElementId) : Fault :=
  .missing .lanelet fun | .intersection i => refs i | _ => []

/-- is the fault there at a choice of elements? -/
def At (n : Network) : Fault → List Handle → Prop
  | .shared kind, [x] => x.kind = kind ∧ ∃ id, n.idOf? x = some id ∧ ∃ y, y ≠ x ∧ n.idOf? y = some id
  | .own wrong, [x] => ∃ e, n.element? x = some e ∧ wrong e = true
  | .missing kind refs, [x] => ∃ e, n.element? x = some e ∧ ∃ ref ∈ refs e, n.resolves kind ref = false
  | .unanswered there back, [x] => ∃ l, n.element? x = some (.lanelet l) ∧
      ∃ y k, n.element? y = some (.lanelet k) ∧ k.id ∈ there l ∧ ¬ l.id ∈ back k
  | .bothWays, [x, y] => ∃ l k, n.element? x = some (.lanelet l) ∧ n.element? y = some (.lanelet k) ∧
      k.id ∈ l.predecessors ∧ k.id ∈ l.successors
  | .unreferenced kind refs, [x] => x.kind = kind ∧ ∃ id, n.idOf? x = some id ∧
      ∀ y l, n.element? y = some (.lanelet l) → id ∉ refs l
  | _, _ => False

end Fault

/-- the fault that a rule forbids -/
def RuleId.fault : RuleId → Fault
  | uniqueIdLa => .shared .lanelet
  | uniqueIdTs => .shared .trafficSign
  | uniqueIdTl => .shared .trafficLight
  | uniqueIdIn => .shared .intersection
  | sameVerticesSize => .ofLanelet (·.hasEvenBorders)
  | verticesMoreThanOne => .ofLanelet (·.hasBorders)
  | polylinesSameDirection => .ofLanelet (·.hasAlignedBorders)
  | leftSelfIntersection => .ofLanelet (·.hasSimpleLeft)
  | rightSelfIntersection => .ofLanelet (·.hasSimpleRight)
  | existenceLeftAdj => .missingFrom .lanelet fun l => (l.adjacentLeft.map (·.id)).toList
  | existenceRightAdj => .missingFrom .lanelet fun l => (l.adjacentRight.map (·.id)).toList
  | existencePredecessor => .missingFrom .lanelet (·.predecessors.toList)
  | existenceSuccessor => .missingFrom .lanelet (·.successors.toList)
  | connectionsPredecessor => .unanswered (·.predecessors) (·.successors)
  | connectionsSuccessor => .unanswered (·.successors) (·.predecessors)
  | nonPredecessorAsSuccessor => .bothWays
  | existenceTrafficSigns => .missingFrom .trafficSign (·.trafficSigns.toList)
  | existenceTrafficLights => .missingFrom .trafficLight (·.trafficLights.toList)
  | existenceStopLineTrafficSigns => .missingFrom .trafficSign (·.stopLineSigns)
  | existenceStopLineTrafficLights => .missingFrom .trafficLight (·.stopLineLights)
  | includedStopLineTrafficSigns => .ofLanelet (·.includesStopLineSigns)
  | atLeastOneTrafficSignElement => .ofSign (·.hasPlates)
  | referencedTrafficSign => .unreferenced .trafficSign (·.trafficSignRefs)
  | givenAdditionalValue => .ofSign (·.hasValues)
  | validAdditionalValueSpeedSign => .ofSign (·.hasPositiveSpeeds)
  | atLeastOneCycleElement => .ofLight (·.hasCycle)
  | nonZeroDuration => .ofLight (·.hasLastingPhases)
  | uniqueStateInCycle => .ofLight (·.hasDistinctPhases)
  | referencedTrafficLight => .unreferenced .trafficLight (·.trafficLightRefs)
  | atLeastTwoIncomingElements => .ofIntersection (·.hasIncomings)
  | existenceIncomingLanelets => .missingAt fun i => i.incomings.flatMap (·.lanelets.toList)
  | existenceSuccessorLanelets => .missingAt fun i => i.incomings.flatMap (·.successors)
  | atLeastOneRoadConnection => .ofIntersection (·.hasConnections)
  | existenceCrossings => .missingAt (·.crossings.toList)

end RoadRules
