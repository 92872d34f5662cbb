/-
Repairs of references: ids that name no element, here or outside, are dropped; signs of a stop line are noted on the
lanelet; signs and lights to which nothing refers are attached to the nearest lanelet or removed.
-/
import RoadRules.Repair.Border
import RoadRules.Network.Neighbourhood

namespace RoadRules

namespace Network

/-- the ids of a set that name no element of the kind -/
def dangling (n : Network) (kind : Kind) (ids : IdSet) : IdSet := ids.filter fun id => !n.resolves kind id

/-- the ids of a set that name an element of the kind -/
def resolving (n : Network) (kind : Kind) (ids : IdSet) : IdSet := ids.filter fun id => n.resolves kind id

/-! ## Lanelets -/

/-- drops the adjacent lanelet on one side of every lanelet that bears an id, if there is no such lanelet -/
def dropAdjacency (n : Network) (id : ElementId) (side : Side) : Edited :=
  n.fixLanelets id fun n l =>
    let neighbour := match side with | .left => l.adjacentLeft | .right => l.adjacentRight
    match neighbour with
    | none => .keep
    | some a =>
      if n.resolves .lanelet a.id then .keep
      else match side with
        | .left => .change { l with adjacentLeft := none }
        | .right => .change { l with adjacentRight := none }

/-- drops ids that name nothing from a set of every lanelet that bears an id; `put` writes the set back -/
def dropFrom (n : Network) (id : ElementId) (kind : Kind) (get : Lanelet → IdSet) (put : Lanelet → IdSet → Lanelet) :
    Edited :=
  n.fixLanelets id fun n l =>
    if (n.dangling kind (get l)).isEmpty then .keep else .change (put l (n.resolving kind (get l)))

def dropPredecessors (n : Network) (id : ElementId) : Edited :=
  n.dropFrom id .lanelet (·.predecessors) fun l ids => { l with predecessors := ids }

def dropSuccessors (n : Network) (id : ElementId) : Edited :=
  n.dropFrom id .lanelet (·.successors) fun l ids => { l with successors := ids }

def dropTrafficSigns (n : Network) (id : ElementId) : Edited :=
  n.dropFrom id .trafficSign (·.trafficSigns) fun l ids => { l with trafficSigns := ids }

def dropTrafficLights (n : Network) (id : ElementId) : Edited :=
  n.dropFrom id .trafficLight (·.trafficLights) fun l ids => { l with trafficLights := ids }

def dropStopLineSigns (n : Network) (id : ElementId) : Edited :=
  n.dropFrom id .trafficSign (fun l => (l.stopLine.map (·.trafficSigns)).getD ∅) fun l ids =>
    { l with stopLine := l.stopLine.map ({ · with trafficSigns := ids }) }

def dropStopLineLights (n : Network) (id : ElementId) : Edited :=
  n.dropFrom id .trafficLight (fun l => (l.stopLine.map (·.trafficLights)).getD ∅) fun l ids =>
    { l with stopLine := l.stopLine.map ({ · with trafficLights := ids }) }

/-- the signs of its stop line are noted among the lanelet's own -/
def includeStopLineSigns (n : Network) (id : ElementId) : Edited :=
  n.fixLanelets id fun _ l =>
    let signs := (l.stopLine.map (·.trafficSigns.toList)).getD []
    if signs.all l.trafficSigns.contains then .keep
    else .change { l with trafficSigns := l.trafficSigns.insertAll signs }

/-! ## Signs and lights -/

/-- makes the lanelet nearest to each sign with an id refer to it, or removes the sign if no lanelet is near; nothing
is done as long as some lanelet refers to the id -/
def attachTrafficSigns (n : Network) (id : ElementId) : Edited :=
  if n.lanelets.values.any (·.trafficSignRefs.contains id) then .unchanged n
  else
    n.editEach (n.trafficSignsWithId id) fun n key =>
      let position := (n.trafficSigns.get? key).bind (·.position)
      match position.bind fun p => n.nearestLanelet? p attachDistance with
      | some lanelet =>
        ⟨{ n with
            lanelets := n.lanelets.modify lanelet fun l => { l with trafficSigns := l.trafficSigns.insert id } },
          (n.lanelets.get? lanelet).any fun l => !l.trafficSigns.contains id⟩
      | none => ⟨n.removeTrafficSign key, n.trafficSigns.contains key⟩

/-- the same for lights -/
def attachTrafficLights (n : Network) (id : ElementId) : Edited :=
  if n.lanelets.values.any (·.trafficLightRefs.contains id) then .unchanged n
  else
    n.editEach (n.trafficLightsWithId id) fun n key =>
      let position := (n.trafficLights.get? key).bind (·.position)
      match position.bind fun p => n.nearestLanelet? p attachDistance with
      | some lanelet =>
        ⟨{ n with
            lanelets := n.lanelets.modify lanelet fun l => { l with trafficLights := l.trafficLights.insert id } },
          (n.lanelets.get? lanelet).any fun l => !l.trafficLights.contains id⟩
      | none => ⟨n.removeTrafficLight key, n.trafficLights.contains key⟩

/-! ## Intersections -/

/-- drops incoming lanelets that do not exist, and groups that lose all of theirs -/
def dropIncomings (n : Network) (id : ElementId) : Edited :=
  n.fixIntersections id fun n i =>
    let dangles (g : IncomingGroup) := !(n.dangling .lanelet g.lanelets).isEmpty
    if !i.incomings.any dangles then .keep
    else
      let groups := i.incomings.filterMap fun g =>
        if !dangles g then some g
        else
          let lanelets := n.resolving .lanelet g.lanelets
          if lanelets.isEmpty then none else some { g with lanelets }
      .change { i with incomings := groups }

/-- drops lanelets that do not exist from those that the groups lead to -/
def dropGroupSuccessors (n : Network) (id : ElementId) : Edited :=
  n.fixIntersections id fun n i =>
    if i.incomings.all fun g => g.successors.all (n.resolves .lanelet) then .keep
    else
      .change { i with incomings := i.incomings.map fun g =>
        { g with
          left := n.resolving .lanelet g.left
          right := n.resolving .lanelet g.right
          straight := n.resolving .lanelet g.straight } }

def dropCrossings (n : Network) (id : ElementId) : Edited :=
  n.fixIntersections id fun n i =>
    if (n.dangling .lanelet i.crossings).isEmpty then .keep
    else .change { i with crossings := n.resolving .lanelet i.crossings }

end Network

end RoadRules
