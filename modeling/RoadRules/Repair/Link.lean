/-
Repairs of the links between lanelets: links that only one of the two lanelets notes are completed, links in both
directions are broken, and incoming groups that lead nowhere get their links from their lanelets.
-/
import RoadRules.Repair.Edit

namespace RoadRules

namespace Network

/-- notes the lanelets that bear an id as successors of each of their predecessors -/
def completePredecessors (n : Network) (id : ElementId) : Edited :=
  n.editEach (n.laneletsWithId id) fun n key =>
    let predecessors := ((n.lanelets.get? key).map (·.predecessors.toList)).getD []
    n.editEach (predecessors.flatMap n.laneletsWithId) fun n other =>
      if (n.lanelets.get? other).any fun p => !p.successors.contains id then ⟨n.link other key, n.canLink other key⟩
      else .unchanged n

/-- notes the lanelets that bear an id as predecessors of each of their successors -/
def completeSuccessors (n : Network) (id : ElementId) : Edited :=
  n.editEach (n.laneletsWithId id) fun n key =>
    let successors := ((n.lanelets.get? key).map (·.successors.toList)).getD []
    n.editEach (successors.flatMap n.laneletsWithId) fun n other =>
      if (n.lanelets.get? other).any fun s => !s.predecessors.contains id then ⟨n.link key other, n.canLink key other⟩
      else .unchanged n

/-- drops the id of a lanelet from the predecessors of another -/
def forgetPredecessor (n : Network) (key : Nat) (id : ElementId) : Edited :=
  ⟨{ n with lanelets := n.lanelets.modify key fun l => { l with predecessors := l.predecessors.erase id } },
    (n.lanelets.get? key).any (·.predecessors.contains id)⟩

/-- for lanelets with an id that have another id both before and behind them, drops the link that leads to them and
keeps the one that leads away -/
def breakTwoWayLinks (n : Network) (id other : ElementId) : Edited :=
  n.editEach (n.laneletsWithId id) fun n key =>
    if (n.lanelets.get? key).any fun l => l.predecessors.contains other && l.successors.contains other then
      (n.editEach (n.laneletsWithId other) fun n back => ⟨n.unlink back key, n.canUnlink back key⟩).andThen
        fun n => n.forgetPredecessor key other
    else .unchanged n

/-- ids of the existing lanelets that follow the lanelets of a group -/
def followers (n : Network) (g : IncomingGroup) : IdSet :=
  let keys := g.lanelets.toList.flatMap n.laneletsWithId
  .ofList ((keys.filterMap n.lanelets.get?).flatMap fun l => l.successors.toList.filter (n.resolves .lanelet))

/-- groups that lead nowhere lead straight on to what follows their lanelets; without such lanelets they go -/
def inferConnections (n : Network) (id : ElementId) : Edited :=
  n.fixIntersections id fun n i =>
    if i.incomings.all fun g => !g.successors.isEmpty then .keep
    else
      let groups := i.incomings.filterMap fun g =>
        if !g.successors.isEmpty then some g
        else if (n.followers g).isEmpty then none
        else some { g with straight := n.followers g }
      .change { i with incomings := groups }

end Network

end RoadRules
