/-
The rules, by name: what each one is about, and where it is broken.
-/
import RoadRules.Rule.Code

namespace RoadRules

/-- what a rule is mainly about; rules are checked in this order -/
inductive Topic where
  | general
  | lanelet
  | trafficSign
  | trafficLight
  | intersection
  deriving DecidableEq, Repr

namespace Topic

def values : List Topic := [general, lanelet, trafficSign, trafficLight, intersection]

def name : Topic → String
  | general => "general"
  | lanelet => "lanelet"
  | trafficSign => "traffic_sign"
  | trafficLight => "traffic_light"
  | intersection => "intersection"

end Topic

inductive RuleId where
  | uniqueIdLa
  | uniqueIdTs
  | uniqueIdTl
  | uniqueIdIn
  | sameVerticesSize
  | verticesMoreThanOne
  | polylinesSameDirection
  | leftSelfIntersection
  | rightSelfIntersection
  | existenceLeftAdj
  | existenceRightAdj
  | existencePredecessor
  | existenceSuccessor
  | connectionsPredecessor
  | connectionsSuccessor
  | nonPredecessorAsSuccessor
  | existenceTrafficSigns
  | existenceTrafficLights
  | existenceStopLineTrafficSigns
  | existenceStopLineTrafficLights
  | includedStopLineTrafficSigns
  | atLeastOneTrafficSignElement
  | referencedTrafficSign
  | givenAdditionalValue
  | validAdditionalValueSpeedSign
  | atLeastOneCycleElement
  | nonZeroDuration
  | uniqueStateInCycle
  | referencedTrafficLight
  | atLeastTwoIncomingElements
  | existenceIncomingLanelets
  | existenceSuccessorLanelets
  | atLeastOneRoadConnection
  | existenceCrossings
  deriving DecidableEq, Repr

namespace RuleId

/-- every rule, in catalog order -/
def values : List RuleId :=
  [uniqueIdLa, uniqueIdTs, uniqueIdTl, uniqueIdIn, sameVerticesSize, verticesMoreThanOne, polylinesSameDirection,
    leftSelfIntersection, rightSelfIntersection, existenceLeftAdj, existenceRightAdj, existencePredecessor,
    existenceSuccessor, connectionsPredecessor, connectionsSuccessor, nonPredecessorAsSuccessor, existenceTrafficSigns,
    existenceTrafficLights, existenceStopLineTrafficSigns, existenceStopLineTrafficLights, includedStopLineTrafficSigns,
    atLeastOneTrafficSignElement, referencedTrafficSign, givenAdditionalValue, validAdditionalValueSpeedSign,
    atLeastOneCycleElement, nonZeroDuration, uniqueStateInCycle, referencedTrafficLight, atLeastTwoIncomingElements,
    existenceIncomingLanelets, existenceSuccessorLanelets, atLeastOneRoadConnection, existenceCrossings]

theorem mem_values (r : RuleId) : r ∈ values := by cases r <;> decide

def name : RuleId → String
  | uniqueIdLa => "unique_id_la"
  | uniqueIdTs => "unique_id_ts"
  | uniqueIdTl => "unique_id_tl"
  | uniqueIdIn => "unique_id_in"
  | sameVerticesSize => "same_vertices_size"
  | verticesMoreThanOne => "vertices_more_than_one"
  | polylinesSameDirection => "polylines_same_direction"
  | leftSelfIntersection => "left_self_intersection"
  | rightSelfIntersection => "right_self_intersection"
  | existenceLeftAdj => "existence_left_adj"
  | existenceRightAdj => "existence_right_adj"
  | existencePredecessor => "existence_predecessor"
  | existenceSuccessor => "existence_successor"
  | connectionsPredecessor => "connections_predecessor"
  | connectionsSuccessor => "connections_successor"
  | nonPredecessorAsSuccessor => "non_predecessor_as_successor"
  | existenceTrafficSigns => "existence_traffic_signs"
  | existenceTrafficLights => "existence_traffic_lights"
  | existenceStopLineTrafficSigns => "existence_stop_line_traffic_signs"
  | existenceStopLineTrafficLights => "existence_stop_line_traffic_lights"
  | includedStopLineTrafficSigns => "included_stop_line_traffic_signs"
  | atLeastOneTrafficSignElement => "at_least_one_traffic_sign_element"
  | referencedTrafficSign => "referenced_traffic_sign"
  | givenAdditionalValue => "given_additional_value"
  | validAdditionalValueSpeedSign => "valid_additional_value_speed_sign"
  | atLeastOneCycleElement => "at_least_one_cycle_element"
  | nonZeroDuration => "non_zero_duration"
  | uniqueStateInCycle => "unique_state_in_cycle"
  | referencedTrafficLight => "referenced_traffic_light"
  | atLeastTwoIncomingElements => "at_least_two_incoming_elements"
  | existenceIncomingLanelets => "existence_incoming_lanelets"
  | existenceSuccessorLanelets => "existence_successor_lanelets"
  | atLeastOneRoadConnection => "at_least_one_road_connection"
  | existenceCrossings => "existence_crossings"

def ofName? (name : String) : Option RuleId := values.find? (·.name == name)

/-- the topic of a rule -/
def topic : RuleId → Topic
  | uniqueIdLa | uniqueIdTs | uniqueIdTl | uniqueIdIn => .general
  | sameVerticesSize | verticesMoreThanOne | polylinesSameDirection | leftSelfIntersection | rightSelfIntersection
  | existenceLeftAdj | existenceRightAdj | existencePredecessor | existenceSuccessor | connectionsPredecessor
  | connectionsSuccessor | nonPredecessorAsSuccessor | existenceTrafficSigns | existenceTrafficLights
  | existenceStopLineTrafficSigns | existenceStopLineTrafficLights | includedStopLineTrafficSigns => .lanelet
  | atLeastOneTrafficSignElement | referencedTrafficSign | givenAdditionalValue
  | validAdditionalValueSpeedSign => .trafficSign
  | atLeastOneCycleElement | nonZeroDuration | uniqueStateInCycle | referencedTrafficLight => .trafficLight
  | atLeastTwoIncomingElements | existenceIncomingLanelets | existenceSuccessorLanelets | atLeastOneRoadConnection
  | existenceCrossings => .intersection

/-- what a rule says -/
def description : RuleId → String
  | uniqueIdLa => "No other element shares a lanelet's id."
  | uniqueIdTs => "No other element shares a traffic sign's id."
  | uniqueIdTl => "No other element shares a traffic light's id."
  | uniqueIdIn => "No other element shares an intersection's id."
  | sameVerticesSize => "Left and right boundaries have the same number of vertices."
  | verticesMoreThanOne => "Both boundaries have at least two vertices."
  | polylinesSameDirection => "Left and right boundaries run in the same direction."
  | leftSelfIntersection => "The left boundary does not cross itself."
  | rightSelfIntersection => "The right boundary does not cross itself."
  | existenceLeftAdj => "The left neighbour exists."
  | existenceRightAdj => "The right neighbour exists."
  | existencePredecessor => "Every predecessor exists."
  | existenceSuccessor => "Every successor exists."
  | connectionsPredecessor => "Every predecessor lists the lanelet as a successor."
  | connectionsSuccessor => "Every successor lists the lanelet as a predecessor."
  | nonPredecessorAsSuccessor => "No lanelet is both predecessor and successor of another."
  | existenceTrafficSigns => "Every referenced traffic sign exists."
  | existenceTrafficLights => "Every referenced traffic light exists."
  | existenceStopLineTrafficSigns => "Every traffic sign of the stop line exists."
  | existenceStopLineTrafficLights => "Every traffic light of the stop line exists."
  | includedStopLineTrafficSigns => "Stop-line traffic signs are also referenced by the lanelet."
  | atLeastOneTrafficSignElement => "A traffic sign has at least one element."
  | referencedTrafficSign => "A traffic sign is referenced by some lanelet."
  | givenAdditionalValue => "Sign elements that need a value carry one."
  | validAdditionalValueSpeedSign => "Speed limit values are positive."
  | atLeastOneCycleElement => "A traffic light has a non-empty cycle."
  | nonZeroDuration => "Every cycle phase lasts at least one time step."
  | uniqueStateInCycle => "No phase appears twice in a cycle."
  | referencedTrafficLight => "A traffic light is referenced by some lanelet."
  | atLeastTwoIncomingElements => "An intersection has at least two incoming groups."
  | existenceIncomingLanelets => "Every incoming lanelet exists."
  | existenceSuccessorLanelets => "Every left, right and straight successor exists."
  | atLeastOneRoadConnection => "Every incoming group leads somewhere."
  | existenceCrossings => "Every crossing lanelet exists."

/-- can an element break the rule because of elements in another part of the network? Those are the rules on unique
ids, and the ones on links that two lanelets have to agree about. -/
def spansBlocks (r : RuleId) : Bool :=
  r.topic == .general || r == connectionsPredecessor || r == connectionsSuccessor || r == nonPredecessorAsSuccessor

/-- blanks around a rule's name do not count: the white space characters of Unicode -/
def isSpace (c : Char) : Bool :=
  let n := c.toNat
  (9 ≤ n && n ≤ 13) || n == 0x20 || n == 0x85 || n == 0xA0 || n == 0x1680 || (0x2000 ≤ n && n ≤ 0x200A) ||
    n == 0x2028 || n == 0x2029 || n == 0x202F || n == 0x205F || n == 0x3000

/-- a text without the white space around it -/
def trim (s : String) : String :=
  String.ofList ((s.toList.dropWhile isSpace).reverse.dropWhile isSpace).reverse

/-- rules given by name; the first unknown name is an error -/
def parseAll : List String → Except CatalogError (List RuleId)
  | [] => .ok []
  | s :: rest =>
    match ofName? (trim s) with
    | none => .error (.unknownFormula (trim s))
    | some r => (parseAll rest).map (r :: ·)

end RuleId

/-! ## Violations -/

/-- the ids bound to a rule's outer variables where it is broken; the first one is where a repair starts -/
abbrev Location := List ElementId

/-- the ids in parentheses -/
def Location.text (l : Location) : String := "(" ++ ", ".intercalate (l.map fun id => toString id.toNat) ++ ")"

/-- a rule that is broken somewhere -/
structure Violation where
  rule : RuleId
  location : Location
  deriving DecidableEq, Repr

/-- the rule's name and the location -/
def Violation.text (v : Violation) : String := s!"{v.rule.name} {v.location.text}"

/-- locations by rule, in catalog order, with at most one entry for a rule -/
structure Violations where
  entries : List (RuleId × List Location)
  deriving DecidableEq

namespace Violations

def empty : Violations := ⟨[]⟩

instance : Inhabited Violations := ⟨empty⟩

/-- entries put into catalog order; of several entries for a rule the last one counts -/
def ofList (l : List (RuleId × List Location)) : Violations :=
  ⟨RuleId.values.filterMap fun r => (l.reverse.find? (·.1 == r))⟩

/-- the locations at which a rule is broken -/
def at? (v : Violations) (r : RuleId) : Option (List Location) := v.entries.lookup r

def count (v : Violations) : Nat := v.entries.foldl (fun total e => total + e.2.length) 0

def isEmpty (v : Violations) : Bool := v.entries.isEmpty

/-- every rule with each of its locations -/
def toList (v : Violations) : List Violation :=
  v.entries.flatMap fun (rule, ls) => ls.map fun location => ⟨rule, location⟩

end Violations

end RoadRules
