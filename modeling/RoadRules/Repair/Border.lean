/-
Repairs of the borders of lanelets: their lengths, their direction, and loops in them.
-/
import RoadRules.Repair.Edit

namespace RoadRules

inductive Side where
  | left
  | right
  deriving DecidableEq, Repr

namespace Lanelet

/-- the centre line computed again, if the lanelet has one -/
def recentred (l : Lanelet) : Lanelet :=
  if l.center.isEmpty then l else { l with center := Polyline.centerline l.left l.right }

/-- both borders get as many points as the longer one has; a lanelet with a border of less than two points goes -/
def fixVertexCounts (l : Lanelet) : Fix Lanelet :=
  if l.left.length = l.right.length then .keep
  else if min l.left.length l.right.length < 2 then .remove
  else
    let count := max l.left.length l.right.length
    .change (recentred { l with left := Polyline.resample l.left count, right := Polyline.resample l.right count })

/-- a lanelet with a border of less than two points goes -/
def fixDegenerate (l : Lanelet) : Fix Lanelet := if l.left.length < 2 || l.right.length < 2 then .remove else .keep

/-- a right border that ends closer to the start of the left one than it starts is turned round -/
def fixDirection (l : Lanelet) : Fix Lanelet :=
  match l.left.head?, l.right.head?, l.right.getLast? with
  | some start, some first, some last =>
    if start.distance last < start.distance first then .change (recentred { l with right := l.right.reverse })
    else .keep
  | _, _, _ => .keep

/-- the first loop of a border is cut off -/
def fixLoop (side : Side) (l : Lanelet) : Fix Lanelet :=
  match side with
  | .left =>
    match Polyline.cutFirstLoop Vec2.crossing? l.left with
    | some left => .change (recentred { l with left })
    | none => .keep
  | .right =>
    match Polyline.cutFirstLoop Vec2.crossing? l.right with
    | some right => .change (recentred { l with right })
    | none => .keep

end Lanelet

namespace Network

def equalizeVertexCounts (n : Network) (id : ElementId) : Edited := n.fixLanelets id fun _ l => l.fixVertexCounts

def removeDegenerate (n : Network) (id : ElementId) : Edited := n.fixLanelets id fun _ l => l.fixDegenerate

def alignBorders (n : Network) (id : ElementId) : Edited := n.fixLanelets id fun _ l => l.fixDirection

def untangle (n : Network) (id : ElementId) (side : Side) : Edited := n.fixLanelets id fun _ l => l.fixLoop side

end Network

end RoadRules
