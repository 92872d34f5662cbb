/-
Edits of a network that know whether they changed anything.

A repair goes through the elements that bear an id and decides for each one whether it stays, changes or goes. The
decision sees the network as the decisions before it have left it.
-/
import RoadRules.Network.Basic

namespace RoadRules

/-- a network after an edit, and whether the edit changed anything -/
structure Edited where
  network : Network
  changed : Bool

namespace Edited

def unchanged (n : Network) : Edited := ⟨n, false⟩

/-- an edit of what the edits before have left -/
def andThen (e : Edited) (edit : Network → Edited) : Edited :=
  let next := edit e.network
  ⟨next.network, e.changed || next.changed⟩

end Edited

/-- what becomes of an element -/
inductive Fix (α : Type) where
  | keep
  | change (x : α)
  | remove

namespace Network

/-- the same edit for each item of a list, one after the other -/
def editEach {ι : Type} (n : Network) (items : List ι) (edit : Network → ι → Edited) : Edited :=
  items.foldl (fun e item => e.andThen (edit · item)) (.unchanged n)

/-- carries out the decision on the element under a key, if it is there -/
def apply {α : Type} (n : Network) (element : Option α) (fix : α → Fix α) (put : α → Network) (drop : Network) :
    Edited :=
  match element with
  | none => .unchanged n
  | some x =>
    match fix x with
    | .keep => .unchanged n
    | .change y => ⟨put y, true⟩
    | .remove => ⟨drop, true⟩

/-- decides about every lanelet that bears an id -/
def fixLanelets (n : Network) (id : ElementId) (fix : Network → Lanelet → Fix Lanelet) : Edited :=
  n.editEach (n.laneletsWithId id) fun n key =>
    n.apply (n.lanelets.get? key) (fix n) (fun l => { n with lanelets := n.lanelets.replace key l })
      (n.removeLanelet key)

/-- decides about every sign that bears an id -/
def fixTrafficSigns (n : Network) (id : ElementId) (fix : TrafficSign → Fix TrafficSign) : Edited :=
  n.editEach (n.trafficSignsWithId id) fun n key =>
    n.apply (n.trafficSigns.get? key) fix (fun s => { n with trafficSigns := n.trafficSigns.replace key s })
      (n.removeTrafficSign key)

/-- decides about every light that bears an id -/
def fixTrafficLights (n : Network) (id : ElementId) (fix : TrafficLight → Fix TrafficLight) : Edited :=
  n.editEach (n.trafficLightsWithId id) fun n key =>
    n.apply (n.trafficLights.get? key) fix (fun t => { n with trafficLights := n.trafficLights.replace key t })
      (n.removeTrafficLight key)

/-- decides about every intersection that bears an id -/
def fixIntersections (n : Network) (id : ElementId) (fix : Network → Intersection → Fix Intersection) : Edited :=
  n.editEach (n.intersectionsWithId id) fun n key =>
    n.apply (n.intersections.get? key) (fix n)
      (fun i => { n with intersections := n.intersections.replace key i }) (n.removeIntersection key)

end Network

end RoadRules
