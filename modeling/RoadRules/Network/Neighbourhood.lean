/-
The part of a network around an id.

Lanelets are neighbours if one of them is linked to the other's id or lies beside it, in whichever direction. The
neighbourhood of an id holds the elements that bear it, the lanelets within some steps of those, and the signs, lights
and intersections that go with the lanelets reached. A sign, a light or an intersection is one step away from the
lanelets it goes with.
-/
import RoadRules.Network.Scope

namespace RoadRules

/-- the largest distance at which a sign or a light without a reference is taken to belong to a lanelet, in metres -/
def attachDistance : Float := 30.0

namespace Lanelet

/-- is one of the two lanelets linked to the other one's id, or beside it? -/
def touches (l k : Lanelet) : Bool := l.linkedLanelets.contains k.id || k.linkedLanelets.contains l.id

/-- the distance from a point to the closest of the lanelet's three lines -/
def reach? (l : Lanelet) (p : Point) : Option Polyline.Reach :=
  [l.center, l.left, l.right].foldl
    (fun least line =>
      match least, Polyline.reach? p line with
      | some a, some b => some (if b.before a then b else a)
      | a, none => a
      | none, b => b)
    none

/-- the distance from a point to the lanelet, if it can be told and is at most `limit` -/
def distanceWithin? (l : Lanelet) (p : Point) (limit : Float) : Option Float :=
  (l.reach? p).bind fun r => if r.value ≤ limit then some r.value else none

end Lanelet

namespace Network

/-! ## The nearest lanelet -/

/-- key of the lanelet that is closest to a point, within some distance; of several the one with the smallest key -/
def nearestLanelet? (n : Network) (p : Point) (limit : Float) : Option Nat :=
  let near := n.lanelets.entries.filterMap fun e => (e.2.distanceWithin? p limit).map fun d => (e.1, d)
  match near with
  | [] => none
  | first :: rest => some (rest.foldl (fun best e => if e.2 < best.2 then e else best) first).1

/-! ## Lanelets within some steps -/

/-- keys of the lanelets that touch one of the given ones -/
def neighbours (n : Network) (keys : SortedSet Nat) : SortedSet Nat :=
  let members := (n.lanelets.entries.filter fun e => keys.contains e.1).map (·.2)
  .ofList ((n.lanelets.entries.filter fun e => members.any e.2.touches).map (·.1))

/-- keys of the lanelets at most `radius` steps away from the given ones -/
def ball (n : Network) : (radius : Nat) → SortedSet Nat → SortedSet Nat
  | 0, keys => keys
  | radius + 1, keys =>
    let wider := keys.union (n.neighbours keys)
    if wider = keys then keys else ball n radius wider

/-! ## Neighbourhoods -/

/-- keys of the lanelets whose references of some sort have a property -/
def laneletsWhere (n : Network) (p : Lanelet → Bool) : List Nat := (n.lanelets.entries.filter fun e => p e.2).map (·.1)

/-- keys of the lanelets that go with a sign: those that refer to its id, or else the one nearest to its position -/
def signLanelets (n : Network) (s : TrafficSign) : List Nat :=
  match n.laneletsWhere (·.trafficSignRefs.contains s.id) with
  | [] => (s.position.bind fun p => n.nearestLanelet? p attachDistance).toList
  | referrers => referrers

/-- keys of the lanelets that go with a light: those that refer to its id, or else the one nearest to its position -/
def lightLanelets (n : Network) (t : TrafficLight) : List Nat :=
  match n.laneletsWhere (·.trafficLightRefs.contains t.id) with
  | [] => (t.position.bind fun p => n.nearestLanelet? p attachDistance).toList
  | referrers => referrers

/-- keys of the lanelets that an intersection refers to -/
def intersectionLanelets (n : Network) (i : Intersection) : List Nat :=
  n.laneletsWhere fun l => i.lanelets.contains l.id

/-- keys of the lanelets one step away from the signs, lights and intersections that bear an id -/
def anchors (n : Network) (id : ElementId) : List Nat :=
  (n.trafficSigns.values.filter (·.id == id)).flatMap n.signLanelets ++
    (n.trafficLights.values.filter (·.id == id)).flatMap n.lightLanelets ++
    (n.intersections.values.filter (·.id == id)).flatMap n.intersectionLanelets

/-- the lanelets reached from an id -/
def reached (n : Network) (radius : Nat) (id : ElementId) : SortedSet Nat :=
  (n.ball radius (.ofList (n.laneletsWithId id))).union (n.ball (radius - 1) (.ofList (n.anchors id)))

/-- some lanelets, and the signs, lights and intersections that go with them -/
def withFittings (n : Network) (lanelets : SortedSet Nat) : Scope :=
  let ls := (n.lanelets.entries.filter fun e => lanelets.contains e.1).map (·.2)
  { lanelets
    trafficSigns := .ofList ((n.trafficSigns.entries.filter fun e =>
      ls.any (·.trafficSignRefs.contains e.2.id)).map (·.1))
    trafficLights := .ofList ((n.trafficLights.entries.filter fun e =>
      ls.any (·.trafficLightRefs.contains e.2.id)).map (·.1))
    intersections := .ofList ((n.intersections.entries.filter fun e =>
      ls.any fun l => e.2.lanelets.contains l.id).map (·.1)) }

/-- the neighbourhood of the elements that bear an id, `radius` steps wide but at least one -/
def around (n : Network) (radius : Nat) (id : ElementId) : Scope :=
  (n.withFittings (n.reached (max radius 1) id)).insertAll (n.handlesWithId id)

/-- the neighbourhoods of some ids taken together -/
def aroundAll (n : Network) (radius : Nat) (ids : List ElementId) : Scope :=
  ids.foldl (fun s id => s.union (n.around radius id)) {}

end Network

end RoadRules
