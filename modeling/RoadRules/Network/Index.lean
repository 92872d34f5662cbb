/-
A network with its elements listed by domain and by id, so that formulas can be evaluated at many places without
searching the network each time.
-/
import RoadRules.Network.Basic
import RoadRules.Formula.Basic

namespace RoadRules

/-- what a domain ranges over, and which elements bear an id -/
structure NetworkIndex where
  lanelets : List Handle
  trafficSigns : List Handle
  trafficLights : List Handle
  intersections : List Handle
  all : List Handle
  /-- elements by id; an id is listed once, with its elements in the order of `all` -/
  byId : List (ElementId × List Handle)

namespace NetworkIndex

/-- an element noted under its id -/
def note (id : ElementId) (h : Handle) : List (ElementId × List Handle) → List (ElementId × List Handle)
  | [] => [(id, [h])]
  | (other, hs) :: rest => if other = id then (other, hs ++ [h]) :: rest else (other, hs) :: note id h rest

/-- elements noted one after the other, each under the id it bears -/
def group (n : Network) (hs : List Handle) : List (ElementId × List Handle) :=
  hs.foldl (fun noted h => match n.idOf? h with | some id => note id h noted | none => noted) []

def build (n : Network) : NetworkIndex :=
  let lanelets := n.handles .lanelet
  let trafficSigns := n.handles .trafficSign
  let trafficLights := n.handles .trafficLight
  let intersections := n.handles .intersection
  let all := lanelets ++ trafficSigns ++ trafficLights ++ intersections
  { lanelets, trafficSigns, trafficLights, intersections, all, byId := group n all }

/-- the elements of a domain -/
def domain (x : NetworkIndex) : Domain → List Handle
  | .lanelets => x.lanelets
  | .trafficSigns => x.trafficSigns
  | .trafficLights => x.trafficLights
  | .intersections => x.intersections
  | .all => x.all

def handlesWithId (x : NetworkIndex) (id : ElementId) : List Handle := (x.byId.lookup id).getD []

/-- ids borne by more than one element -/
def sharedIds (x : NetworkIndex) : IdSet := .ofList ((x.byId.filter fun e => 1 < e.2.length).map (·.1))

def hasLocal (x : NetworkIndex) (kind : Kind) (id : ElementId) : Bool := (x.handlesWithId id).any (·.kind == kind)

/-- does the id name an element of the kind in the network, or outside? -/
def resolves (x : NetworkIndex) (external : ExternalIds) (kind : Kind) (id : ElementId) : Bool :=
  x.hasLocal kind id || external.contains kind id

end NetworkIndex

/-- a network with its index -/
structure NetworkView where
  network : Network
  index : NetworkIndex

def Network.view (n : Network) : NetworkView := ⟨n, .build n⟩

end RoadRules
