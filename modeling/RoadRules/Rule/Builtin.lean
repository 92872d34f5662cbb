/-
The functions and predicates that formulas can call.
-/
import RoadRules.Rule.Value
import RoadRules.Network.Index

namespace RoadRules

inductive Builtin where
  | equal
  | less
  | lessEqual
  | size
  | index
  | reverse
  | contains
  | nth
  | add
  | sub
  | distance
  | selfIntersecting
  | elementId
  | laneletId
  | trafficSignId
  | trafficLightId
  | intersectionId
  | leftPolyline
  | rightPolyline
  | centerPolyline
  | predecessors
  | successors
  | leftAdjacency
  | rightAdjacency
  | trafficSigns
  | trafficLights
  | stopLineTrafficSigns
  | stopLineTrafficLights
  | laneletTypes
  | signElements
  | elementCode
  | additionalValues
  | isVirtual
  | phases
  | durations
  | cycleElements
  | phase
  | duration
  | incomings
  | incomingLanelets
  | successorsLeft
  | successorsRight
  | successorsStraight
  | allSuccessors
  | crossings
  | laneletExists
  | trafficSignExists
  | trafficLightExists
  | intersectionExists
  | requiresAdditionalValue
  | isSpeedSign
  deriving DecidableEq, Repr

namespace Builtin

def values : List Builtin :=
  [equal, less, lessEqual, size, index, reverse, contains, nth, add, sub, distance, selfIntersecting, elementId,
    laneletId, trafficSignId, trafficLightId, intersectionId, leftPolyline, rightPolyline, centerPolyline, predecessors,
    successors, leftAdjacency, rightAdjacency, trafficSigns, trafficLights, stopLineTrafficSigns, stopLineTrafficLights,
    laneletTypes, signElements, elementCode, additionalValues, isVirtual, phases, durations, cycleElements, phase,
    duration, incomings, incomingLanelets, successorsLeft, successorsRight, successorsStraight, allSuccessors,
    crossings, laneletExists, trafficSignExists, trafficLightExists, intersectionExists, requiresAdditionalValue,
    isSpeedSign]

/-- the name by which formulas call it -/
def name : Builtin → String
  | equal => "equal"
  | less => "less"
  | lessEqual => "less_equal"
  | size => "size"
  | index => "index"
  | reverse => "reverse"
  | contains => "contains"
  | nth => "at"
  | add => "add"
  | sub => "sub"
  | distance => "distance"
  | selfIntersecting => "self_intersecting"
  | elementId => "element_id"
  | laneletId => "lanelet_id"
  | trafficSignId => "traffic_sign_id"
  | trafficLightId => "traffic_light_id"
  | intersectionId => "intersection_id"
  | leftPolyline => "left_polyline"
  | rightPolyline => "right_polyline"
  | centerPolyline => "center_polyline"
  | predecessors => "predecessors"
  | successors => "successors"
  | leftAdjacency => "left_adjacency"
  | rightAdjacency => "right_adjacency"
  | trafficSigns => "traffic_signs"
  | trafficLights => "traffic_lights"
  | stopLineTrafficSigns => "stop_line_traffic_signs"
  | stopLineTrafficLights => "stop_line_traffic_lights"
  | laneletTypes => "lanelet_types"
  | signElements => "sign_elements"
  | elementCode => "element_code"
  | additionalValues => "additional_values"
  | isVirtual => "is_virtual"
  | phases => "phases"
  | durations => "durations"
  | cycleElements => "cycle_elements"
  | phase => "phase"
  | duration => "duration"
  | incomings => "incomings"
  | incomingLanelets => "incoming_lanelets"
  | successorsLeft => "successors_left"
  | successorsRight => "successors_right"
  | successorsStraight => "successors_straight"
  | allSuccessors => "all_successors"
  | crossings => "crossings"
  | laneletExists => "lanelet_exists"
  | trafficSignExists => "traffic_sign_exists"
  | trafficLightExists => "traffic_light_exists"
  | intersectionExists => "intersection_exists"
  | requiresAdditionalValue => "requires_additional_value"
  | isSpeedSign => "is_speed_sign"

def ofName? (name : String) : Option Builtin := values.find? (·.name == name)

/-- how many arguments it takes -/
def arity : Builtin → Nat
  | equal | less | lessEqual | index | contains | nth | add | sub | distance => 2
  | _ => 1

/-- is its value always a truth value? -/
def isPredicate : Builtin → Bool
  | equal | less | lessEqual | contains | selfIntersecting | isVirtual | laneletExists | trafficSignExists
  | trafficLightExists | intersectionExists | requiresAdditionalValue | isSpeedSign => true
  | _ => false

/-! ## Elements and their components as arguments -/

/-- an element of a kind -/
def handleOf (kind : Kind) (function : String) : Value → Except EvalError Handle
  | .element h => if h.kind = kind then .ok h else (Value.element h).mismatch function kind.name
  | v => v.mismatch function kind.name

def orDangling {α : Type} (kind : Kind) : Option α → Except EvalError α
  | some x => .ok x
  | none => .error (.danglingHandle kind)

def laneletOf (n : Network) (function : String) (v : Value) : Except EvalError Lanelet := do
  let h ← handleOf .lanelet function v
  orDangling .lanelet (n.lanelets.get? h.key)

def trafficSignOf (n : Network) (function : String) (v : Value) : Except EvalError TrafficSign := do
  let h ← handleOf .trafficSign function v
  orDangling .trafficSign (n.trafficSigns.get? h.key)

def trafficLightOf (n : Network) (function : String) (v : Value) : Except EvalError TrafficLight := do
  let h ← handleOf .trafficLight function v
  orDangling .trafficLight (n.trafficLights.get? h.key)

def intersectionOf (n : Network) (function : String) (v : Value) : Except EvalError Intersection := do
  let h ← handleOf .intersection function v
  orDangling .intersection (n.intersections.get? h.key)

/-- a component of a kind -/
def partOf (kind : PartKind) (function : String) : Value → Except EvalError Part
  | .part p => if p.kind = kind then .ok p else (Value.part p).mismatch function kind.name
  | v => v.mismatch function kind.name

/-- the item at a position -/
def itemAt {α : Type} (function : String) (items : List α) (index : Int) : Except EvalError α :=
  match (if index < 0 then none else items[index.toNat]?) with
  | some x => .ok x
  | none => .error (.indexOutOfRange function index items.length)

def signPlateOf (n : Network) (function : String) (v : Value) : Except EvalError SignPlate := do
  let p ← partOf .signPlate function v
  let s ← trafficSignOf n function (.element p.owner)
  itemAt function s.plates p.index

def cycleStepOf (n : Network) (function : String) (v : Value) : Except EvalError CycleStep := do
  let p ← partOf .cycleStep function v
  let t ← trafficLightOf n function (.element p.owner)
  itemAt function t.cycle p.index

def incomingGroupOf (n : Network) (function : String) (v : Value) : Except EvalError IncomingGroup := do
  let p ← partOf .incomingGroup function v
  let i ← intersectionOf n function (.element p.owner)
  itemAt function i.incomings p.index

/-- the components of an element, all of them -/
def partsOf (owner : Handle) (kind : PartKind) (count : Nat) : Value :=
  .list ((List.range count).map fun index => .part ⟨owner, kind, index⟩)

def pointsOf (function : String) (v : Value) : Except EvalError (List Point) := do
  (← v.asList function).mapM (Value.asPoint function)

/-- does an id resolve? Integers that are no ids never do. -/
def existsId (v : NetworkView) (kind : Kind) (function : String) (arg : Value) : Except EvalError Value := do
  let id := (← arg.asInt function).toInt
  return .bool (decide (0 ≤ id ∧ id < UInt32.size) && v.index.resolves v.network.external kind (UInt32.ofNat id.toNat))

/-- a sum or difference: of integers as long as 64 bits can hold it, of floats otherwise -/
def arithmetic (function : String) (ints : Int → Int → Int) (floats : Float → Float → Float) (a b : Value) :
    Except EvalError Value :=
  let onFloats : Except EvalError Value := do
    let x ← a.asNumber function
    let y ← b.asNumber function
    return .float (floats x y)
  match a, b with
  | .int x, .int y =>
    let z := ints x.toInt y.toInt
    if Int64.minValue.toInt ≤ z ∧ z ≤ Int64.maxValue.toInt then .ok (.int (Int64.ofInt z)) else onFloats
  | _, _ => onFloats

/-! ## Application -/

/-- the value of a call -/
def apply (v : NetworkView) (b : Builtin) (args : List Value) : Except EvalError Value :=
  let n := v.network
  let f := b.name
  let arg (position : Nat) : Except EvalError Value :=
    match args[position]? with
    | some x => .ok x
    | none => .error (.missingArgument f position)
  match b with
  | equal => do return .bool ((← arg 0).looseEq (← arg 1))
  | less => do return .bool ((← (← arg 0).compare (← arg 1)) == .lt)
  | lessEqual => do return .bool ((← (← arg 0).compare (← arg 1)) != .gt)
  | size => do
    match ← arg 0 with
    | .list items => return .ofNat items.length
    | .str s => return .ofNat s.length
    | other => other.mismatch f "list"
  | index => do
    let wanted ← arg 1
    match (← (← arg 0).asList f).findIdx? (·.looseEq wanted) with
    | some position => return .ofNat position
    | none => .error (.notFound f)
  | reverse => do return .list (← (← arg 0).asList f).reverse
  | contains => do
    let wanted ← arg 1
    return .bool ((← (← arg 0).asList f).any (·.looseEq wanted))
  | nth => do
    let items ← (← arg 0).asList f
    let position ← (← arg 1).asInt f
    itemAt f items position.toInt
  | add => do arithmetic f (· + ·) (· + ·) (← arg 0) (← arg 1)
  | sub => do arithmetic f (· - ·) (· - ·) (← arg 0) (← arg 1)
  | distance => do
    let p ← (← arg 0).asPoint f
    let q ← (← arg 1).asPoint f
    return .float (p.distance q)
  | selfIntersecting => do return .bool (Polyline.isSelfCrossing Vec2.crossing? (← pointsOf f (← arg 0)))
  | elementId => do
    match ← arg 0 with
    | .element h => return .ofId (← orDangling h.kind (n.idOf? h))
    | other => other.mismatch f "element"
  | laneletId => do return .ofId (← laneletOf n f (← arg 0)).id
  | trafficSignId => do return .ofId (← trafficSignOf n f (← arg 0)).id
  | trafficLightId => do return .ofId (← trafficLightOf n f (← arg 0)).id
  | intersectionId => do return .ofId (← intersectionOf n f (← arg 0)).id
  | leftPolyline => do return .ofPoints (← laneletOf n f (← arg 0)).left
  | rightPolyline => do return .ofPoints (← laneletOf n f (← arg 0)).right
  | centerPolyline => do return .ofPoints (← laneletOf n f (← arg 0)).center
  | predecessors => do return .ofIds (← laneletOf n f (← arg 0)).predecessors.toList
  | successors => do return .ofIds (← laneletOf n f (← arg 0)).successors.toList
  | leftAdjacency => do return .ofIds ((← laneletOf n f (← arg 0)).adjacentLeft.map (·.id)).toList
  | rightAdjacency => do return .ofIds ((← laneletOf n f (← arg 0)).adjacentRight.map (·.id)).toList
  | trafficSigns => do return .ofIds (← laneletOf n f (← arg 0)).trafficSigns.toList
  | trafficLights => do return .ofIds (← laneletOf n f (← arg 0)).trafficLights.toList
  | stopLineTrafficSigns => do
    return .ofIds (((← laneletOf n f (← arg 0)).stopLine.map (·.trafficSigns.toList)).getD [])
  | stopLineTrafficLights => do
    return .ofIds (((← laneletOf n f (← arg 0)).stopLine.map (·.trafficLights.toList)).getD [])
  | laneletTypes => do return .list ((← laneletOf n f (← arg 0)).types.toList.map .str)
  | signElements => do
    let owner ← handleOf .trafficSign f (← arg 0)
    return partsOf owner .signPlate (← trafficSignOf n f (← arg 0)).plates.length
  | elementCode => do return .str (← signPlateOf n f (← arg 0)).code
  | additionalValues => do return .list ((← signPlateOf n f (← arg 0)).values.map .float)
  | isVirtual => do return .bool (← trafficSignOf n f (← arg 0)).isVirtual
  | phases => do return .list ((← trafficLightOf n f (← arg 0)).cycle.map fun c => .str c.phase.name)
  | durations => do return .list ((← trafficLightOf n f (← arg 0)).cycle.map fun c => .ofNat c.duration.toNat)
  | cycleElements => do
    let owner ← handleOf .trafficLight f (← arg 0)
    return partsOf owner .cycleStep (← trafficLightOf n f (← arg 0)).cycle.length
  | phase => do return .str (← cycleStepOf n f (← arg 0)).phase.name
  | duration => do return .ofNat (← cycleStepOf n f (← arg 0)).duration.toNat
  | incomings => do
    let owner ← handleOf .intersection f (← arg 0)
    return partsOf owner .incomingGroup (← intersectionOf n f (← arg 0)).incomings.length
  | incomingLanelets => do return .ofIds (← incomingGroupOf n f (← arg 0)).lanelets.toList
  | successorsLeft => do return .ofIds (← incomingGroupOf n f (← arg 0)).left.toList
  | successorsRight => do return .ofIds (← incomingGroupOf n f (← arg 0)).right.toList
  | successorsStraight => do return .ofIds (← incomingGroupOf n f (← arg 0)).straight.toList
  | allSuccessors => do return .ofIds (← incomingGroupOf n f (← arg 0)).successors
  | crossings => do return .ofIds (← intersectionOf n f (← arg 0)).crossings.toList
  | laneletExists => do existsId v .lanelet f (← arg 0)
  | trafficSignExists => do existsId v .trafficSign f (← arg 0)
  | trafficLightExists => do existsId v .trafficLight f (← arg 0)
  | intersectionExists => do existsId v .intersection f (← arg 0)
  | requiresAdditionalValue => do return .bool (needsValue (← (← arg 0).asStr f))
  | isSpeedSign => do return .bool (isSpeedLimitCode (← (← arg 0).asStr f))

end Builtin

end RoadRules
