/-
The elements of a road network: lanelets, traffic signs, traffic lights and intersections.

Elements refer to each other by public ids, which need not be unique. The `forget` functions drop every reference to
an id; whether there is one is what `linkedLanelets`, `trafficSignRefs`, `trafficLightRefs` and `lanelets` list.
-/
import RoadRules.SortedSet
import RoadRules.Geometry.Polyline

namespace RoadRules

/-- the public number of an element -/
abbrev ElementId := UInt32

abbrev IdSet := SortedSet ElementId

inductive Kind where
  | lanelet
  | trafficSign
  | trafficLight
  | intersection
  deriving DecidableEq, Repr

namespace Kind

/-- every kind, in the order in which elements are listed -/
def values : List Kind := [lanelet, trafficSign, trafficLight, intersection]

def name : Kind → String
  | lanelet => "lanelet"
  | trafficSign => "traffic_sign"
  | trafficLight => "traffic_light"
  | intersection => "intersection"

def ofName? (name : String) : Option Kind := values.find? (·.name == name)

end Kind

/-- an element of a network, by its kind and storage key -/
structure Handle where
  kind : Kind
  key : Nat
  deriving DecidableEq, Repr

/-! ## Lanelets -/

/-- a neighbouring lanelet, and whether traffic on it goes the same way -/
structure Adjacency where
  id : ElementId
  sameDirection : Bool
  deriving DecidableEq

structure StopLine where
  start : Point
  stop : Point
  trafficSigns : IdSet
  trafficLights : IdSet
  deriving DecidableEq

/-- a directed piece of a lane between a left and a right border -/
structure Lanelet where
  id : ElementId
  left : List Point := []
  right : List Point := []
  center : List Point := []
  predecessors : IdSet := ∅
  successors : IdSet := ∅
  adjacentLeft : Option Adjacency := none
  adjacentRight : Option Adjacency := none
  stopLine : Option StopLine := none
  trafficSigns : IdSet := ∅
  trafficLights : IdSet := ∅
  types : SortedSet String := ∅
  deriving DecidableEq

namespace Lanelet

/-- a lanelet without links, with its centre line -/
def ofBorders (id : ElementId) (left right : List Point) : Lanelet :=
  { id, left, right, center := Polyline.centerline left right }

/-- ids of the lanelets it is linked to or lies beside -/
def linkedLanelets (l : Lanelet) : List ElementId :=
  l.predecessors.toList ++ l.successors.toList ++ (l.adjacentLeft.map (·.id)).toList ++
    (l.adjacentRight.map (·.id)).toList

/-- ids of the signs that the lanelet or its stop line refers to -/
def trafficSignRefs (l : Lanelet) : List ElementId :=
  l.trafficSigns.toList ++ (l.stopLine.map (·.trafficSigns.toList)).getD []

/-- ids of the lights that the lanelet or its stop line refers to -/
def trafficLightRefs (l : Lanelet) : List ElementId :=
  l.trafficLights.toList ++ (l.stopLine.map (·.trafficLights.toList)).getD []

def forgetLanelet (l : Lanelet) (id : ElementId) : Lanelet :=
  { l with
    predecessors := l.predecessors.erase id
    successors := l.successors.erase id
    adjacentLeft := l.adjacentLeft.filter (·.id != id)
    adjacentRight := l.adjacentRight.filter (·.id != id) }

def forgetTrafficSign (l : Lanelet) (id : ElementId) : Lanelet :=
  { l with
    trafficSigns := l.trafficSigns.erase id
    stopLine := l.stopLine.map fun s => { s with trafficSigns := s.trafficSigns.erase id } }

def forgetTrafficLight (l : Lanelet) (id : ElementId) : Lanelet :=
  { l with
    trafficLights := l.trafficLights.erase id
    stopLine := l.stopLine.map fun s => { s with trafficLights := s.trafficLights.erase id } }

end Lanelet

/-! ## Signs and lights -/

/-- one plate of a sign: its code in the catalogue, and the values written on it -/
structure SignPlate where
  code : String
  values : List Float
  deriving DecidableEq

/-- codes that stand for a speed limit -/
def speedLimitCodes : List String := ["274", "275", "278", "R2-1", "W13-1"]

/-- codes of weight, width, height and length limits -/
def measureLimitCodes : List String := ["262", "263", "264", "265", "266"]

def isSpeedLimitCode (code : String) : Bool := speedLimitCodes.contains code

/-- does a plate with this code have to carry a value? -/
def needsValue (code : String) : Bool := isSpeedLimitCode code || measureLimitCodes.contains code

structure TrafficSign where
  id : ElementId
  plates : List SignPlate := []
  position : Option Point := none
  isVirtual : Bool := false
  deriving DecidableEq

inductive Phase where
  | red
  | redYellow
  | green
  | yellow
  | inactive
  deriving DecidableEq, Repr

namespace Phase

def values : List Phase := [red, redYellow, green, yellow, inactive]

def name : Phase → String
  | red => "red"
  | redYellow => "red_yellow"
  | green => "green"
  | yellow => "yellow"
  | inactive => "inactive"

def ofName? (name : String) : Option Phase := values.find? (·.name == name)

end Phase

/-- a phase of a light, and for how many time steps it lasts -/
structure CycleStep where
  phase : Phase
  duration : UInt32
  deriving DecidableEq

structure TrafficLight where
  id : ElementId
  cycle : List CycleStep := []
  position : Option Point := none
  deriving DecidableEq

/-! ## Intersections -/

/-- lanelets that come into an intersection together, and where they lead to -/
structure IncomingGroup where
  lanelets : IdSet := ∅
  left : IdSet := ∅
  right : IdSet := ∅
  straight : IdSet := ∅
  deriving DecidableEq

namespace IncomingGroup

/-- ids of the lanelets that the group leads to -/
def successors (g : IncomingGroup) : List ElementId := g.left.toList ++ g.right.toList ++ g.straight.toList

/-- ids of all lanelets of the group -/
def allLanelets (g : IncomingGroup) : List ElementId := g.lanelets.toList ++ g.successors

def forgetLanelet (g : IncomingGroup) (id : ElementId) : IncomingGroup :=
  { lanelets := g.lanelets.erase id, left := g.left.erase id, right := g.right.erase id,
    straight := g.straight.erase id }

end IncomingGroup

structure Intersection where
  id : ElementId
  incomings : List IncomingGroup := []
  crossings : IdSet := ∅
  deriving DecidableEq

namespace Intersection

/-- ids of all lanelets that the intersection refers to -/
def lanelets (i : Intersection) : List ElementId := i.incomings.flatMap IncomingGroup.allLanelets ++ i.crossings.toList

def forgetLanelet (i : Intersection) (id : ElementId) : Intersection :=
  { i with incomings := i.incomings.map (·.forgetLanelet id), crossings := i.crossings.erase id }

end Intersection

/-- an element of any kind -/
inductive Element where
  | lanelet (l : Lanelet)
  | trafficSign (s : TrafficSign)
  | trafficLight (t : TrafficLight)
  | intersection (i : Intersection)
  deriving DecidableEq

end RoadRules
