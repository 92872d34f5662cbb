/-
Road networks.

A network holds its elements of the four kinds under storage keys that are never given out twice. Public ids may be
borne by several elements. `external` lists ids of elements that exist outside the network: a reference to one of them
resolves.

`RoadMap` is a network together with the counter that fresh ids are drawn from. The counter is no part of the network,
since several networks may draw from the same one.
-/
import RoadRules.Network.Store
import RoadRules.Network.IdAllocator

namespace RoadRules

/-! ## Ids outside the network -/

/-- ids of elements outside a network, by kind -/
structure ExternalIds where
  lanelets : IdSet := ∅
  trafficSigns : IdSet := ∅
  trafficLights : IdSet := ∅
  intersections : IdSet := ∅
  deriving DecidableEq

namespace ExternalIds

def ofKind (e : ExternalIds) : Kind → IdSet
  | .lanelet => e.lanelets
  | .trafficSign => e.trafficSigns
  | .trafficLight => e.trafficLights
  | .intersection => e.intersections

def contains (e : ExternalIds) (kind : Kind) (id : ElementId) : Bool := (e.ofKind kind).contains id

/-- the ids of both -/
def union (e f : ExternalIds) : ExternalIds :=
  ⟨e.lanelets.union f.lanelets, e.trafficSigns.union f.trafficSigns, e.trafficLights.union f.trafficLights,
    e.intersections.union f.intersections⟩

def isEmpty (e : ExternalIds) : Bool := Kind.values.all fun k => (e.ofKind k).isEmpty

end ExternalIds

/-! ## Networks -/

structure Network where
  lanelets : Store Lanelet := .empty
  trafficSigns : Store TrafficSign := .empty
  trafficLights : Store TrafficLight := .empty
  intersections : Store Intersection := .empty
  /-- the storage key that the next new element gets -/
  nextKey : Nat := 0
  external : ExternalIds := {}
  deriving DecidableEq

namespace Network

instance : Inhabited Network := ⟨{}⟩

/-! ### Looking up -/

def keys (n : Network) : Kind → List Nat
  | .lanelet => n.lanelets.keys
  | .trafficSign => n.trafficSigns.keys
  | .trafficLight => n.trafficLights.keys
  | .intersection => n.intersections.keys

def count (n : Network) (kind : Kind) : Nat := (n.keys kind).length

def elementCount (n : Network) : Nat := Kind.values.foldl (fun total k => total + n.count k) 0

def isEmpty (n : Network) : Bool := n.elementCount == 0

/-- the elements of one kind, by ascending key -/
def handles (n : Network) (kind : Kind) : List Handle := (n.keys kind).map fun key => ⟨kind, key⟩

/-- all elements: lanelets, signs, lights and intersections, each kind by ascending key -/
def allHandles (n : Network) : List Handle := Kind.values.flatMap n.handles

def idOf? (n : Network) (h : Handle) : Option ElementId :=
  match h.kind with
  | .lanelet => (n.lanelets.get? h.key).map (·.id)
  | .trafficSign => (n.trafficSigns.get? h.key).map (·.id)
  | .trafficLight => (n.trafficLights.get? h.key).map (·.id)
  | .intersection => (n.intersections.get? h.key).map (·.id)

def contains (n : Network) (h : Handle) : Bool := (n.idOf? h).isSome

def element? (n : Network) (h : Handle) : Option Element :=
  match h.kind with
  | .lanelet => (n.lanelets.get? h.key).map .lanelet
  | .trafficSign => (n.trafficSigns.get? h.key).map .trafficSign
  | .trafficLight => (n.trafficLights.get? h.key).map .trafficLight
  | .intersection => (n.intersections.get? h.key).map .intersection

/-- the ids of one kind's elements, by ascending key -/
def ids (n : Network) : Kind → List ElementId
  | .lanelet => n.lanelets.values.map (·.id)
  | .trafficSign => n.trafficSigns.values.map (·.id)
  | .trafficLight => n.trafficLights.values.map (·.id)
  | .intersection => n.intersections.values.map (·.id)

def allIds (n : Network) : List ElementId := Kind.values.flatMap n.ids

/-- keys of the lanelets that bear an id -/
def laneletsWithId (n : Network) (id : ElementId) : List Nat :=
  (n.lanelets.entries.filter (·.2.id == id)).map (·.1)

def trafficSignsWithId (n : Network) (id : ElementId) : List Nat :=
  (n.trafficSigns.entries.filter (·.2.id == id)).map (·.1)

def trafficLightsWithId (n : Network) (id : ElementId) : List Nat :=
  (n.trafficLights.entries.filter (·.2.id == id)).map (·.1)

def intersectionsWithId (n : Network) (id : ElementId) : List Nat :=
  (n.intersections.entries.filter (·.2.id == id)).map (·.1)

/-- keys of the elements of a kind that bear an id -/
def keysWithId (n : Network) (kind : Kind) (id : ElementId) : List Nat :=
  match kind with
  | .lanelet => n.laneletsWithId id
  | .trafficSign => n.trafficSignsWithId id
  | .trafficLight => n.trafficLightsWithId id
  | .intersection => n.intersectionsWithId id

/-- the elements of any kind that bear an id -/
def handlesWithId (n : Network) (id : ElementId) : List Handle :=
  Kind.values.flatMap fun kind => (n.keysWithId kind id).map fun key => ⟨kind, key⟩

/-- does an element of this kind in the network bear the id? -/
def hasLocal (n : Network) (kind : Kind) (id : ElementId) : Bool := (n.ids kind).contains id

/-- does the id name an element of this kind, here or outside? -/
def resolves (n : Network) (kind : Kind) (id : ElementId) : Bool :=
  n.external.contains kind id || n.hasLocal kind id

/-- does the lanelet refer to an element that is neither here nor outside? -/
def dangles (n : Network) (l : Lanelet) : Bool :=
  l.linkedLanelets.any (fun id => !n.resolves .lanelet id) ||
    l.trafficSignRefs.any (fun id => !n.resolves .trafficSign id) ||
    l.trafficLightRefs.any (fun id => !n.resolves .trafficLight id)

/-- ids of the lanelets and intersections with a reference that resolves neither here nor outside -/
def danglingReferrers (n : Network) : IdSet :=
  .ofList (((n.lanelets.values.filter n.dangles).map (·.id)) ++
    (n.intersections.values.filter fun i => i.lanelets.any fun id => !n.resolves .lanelet id).map (·.id))

/-! ### Links -/

/-- makes the lanelet under `succ` a successor of the one under `pred`, noted in both -/
def link (n : Network) (pred succ : Nat) : Network :=
  match n.lanelets.get? pred, n.lanelets.get? succ with
  | some p, some s =>
    let forth := n.lanelets.modify pred fun l => { l with successors := l.successors.insert s.id }
    { n with lanelets := forth.modify succ fun l => { l with predecessors := l.predecessors.insert p.id } }
  | _, _ => n

/-- are both lanelets there, without the link from `pred` to `succ` noted in both? -/
def canLink (n : Network) (pred succ : Nat) : Bool :=
  match n.lanelets.get? pred, n.lanelets.get? succ with
  | some p, some s => !p.successors.contains s.id || !s.predecessors.contains p.id
  | _, _ => false

/-- drops the link from the lanelet under `pred` to the one under `succ`, in both -/
def unlink (n : Network) (pred succ : Nat) : Network :=
  match n.lanelets.get? pred, n.lanelets.get? succ with
  | some p, some s =>
    let forth := n.lanelets.modify pred fun l => { l with successors := l.successors.erase s.id }
    { n with lanelets := forth.modify succ fun l => { l with predecessors := l.predecessors.erase p.id } }
  | _, _ => n

/-- are both lanelets there, with the link from `pred` to `succ` noted in one of them? -/
def canUnlink (n : Network) (pred succ : Nat) : Bool :=
  match n.lanelets.get? pred, n.lanelets.get? succ with
  | some p, some s => p.successors.contains s.id || s.predecessors.contains p.id
  | _, _ => false

/-- puts the lanelet under `right` on the right of the one under `left`; for traffic the same way that one lies on its
left, for oncoming traffic on its right too -/
def linkAdjacent (n : Network) (left right : Nat) (sameDirection : Bool) : Network :=
  match n.lanelets.get? left, n.lanelets.get? right with
  | some l, some r =>
    let back : Option Adjacency := some ⟨l.id, sameDirection⟩
    let there := n.lanelets.modify left fun a => { a with adjacentRight := some ⟨r.id, sameDirection⟩ }
    { n with lanelets := there.modify right fun b =>
        if sameDirection then { b with adjacentLeft := back } else { b with adjacentRight := back } }
  | _, _ => n

/-! ### Removal

References to the id of a removed element go with it, unless the id still resolves. -/

def removeLanelet (n : Network) (key : Nat) : Network :=
  match n.lanelets.get? key with
  | none => n
  | some removed =>
    let n := { n with lanelets := n.lanelets.erase key }
    if n.resolves .lanelet removed.id then n
    else { n with
      lanelets := n.lanelets.map (·.forgetLanelet removed.id)
      intersections := n.intersections.map (·.forgetLanelet removed.id) }

def removeTrafficSign (n : Network) (key : Nat) : Network :=
  match n.trafficSigns.get? key with
  | none => n
  | some removed =>
    let n := { n with trafficSigns := n.trafficSigns.erase key }
    if n.resolves .trafficSign removed.id then n
    else { n with lanelets := n.lanelets.map (·.forgetTrafficSign removed.id) }

def removeTrafficLight (n : Network) (key : Nat) : Network :=
  match n.trafficLights.get? key with
  | none => n
  | some removed =>
    let n := { n with trafficLights := n.trafficLights.erase key }
    if n.resolves .trafficLight removed.id then n
    else { n with lanelets := n.lanelets.map (·.forgetTrafficLight removed.id) }

def removeIntersection (n : Network) (key : Nat) : Network := { n with intersections := n.intersections.erase key }

def remove (n : Network) (h : Handle) : Network :=
  match h.kind with
  | .lanelet => n.removeLanelet h.key
  | .trafficSign => n.removeTrafficSign h.key
  | .trafficLight => n.removeTrafficLight h.key
  | .intersection => n.removeIntersection h.key

/-! ### Putting elements in -/

/-- the network with a new element under the next key -/
def add (n : Network) (e : Element) : Network :=
  match e with
  | .lanelet l => { n with lanelets := n.lanelets.insert n.nextKey l, nextKey := n.nextKey + 1 }
  | .trafficSign s => { n with trafficSigns := n.trafficSigns.insert n.nextKey s, nextKey := n.nextKey + 1 }
  | .trafficLight t => { n with trafficLights := n.trafficLights.insert n.nextKey t, nextKey := n.nextKey + 1 }
  | .intersection i => { n with intersections := n.intersections.insert n.nextKey i, nextKey := n.nextKey + 1 }

/-- the element under the key of its kind replaced, if there is one -/
def replace (n : Network) (key : Nat) (e : Element) : Network :=
  match e with
  | .lanelet l => { n with lanelets := n.lanelets.replace key l }
  | .trafficSign s => { n with trafficSigns := n.trafficSigns.replace key s }
  | .trafficLight t => { n with trafficLights := n.trafficLights.replace key t }
  | .intersection i => { n with intersections := n.intersections.replace key i }

/-- another id for an element, if it is there -/
def setId (n : Network) (h : Handle) (id : ElementId) : Network :=
  match h.kind with
  | .lanelet => { n with lanelets := n.lanelets.modify h.key ({ · with id := id }) }
  | .trafficSign => { n with trafficSigns := n.trafficSigns.modify h.key ({ · with id := id }) }
  | .trafficLight => { n with trafficLights := n.trafficLights.modify h.key ({ · with id := id }) }
  | .intersection => { n with intersections := n.intersections.modify h.key ({ · with id := id }) }

/-! ### Unused ids -/

/-- the first number from `candidate` on that is not in an ascending list -/
def firstGap (candidate : Nat) : List ElementId → Nat
  | [] => candidate
  | id :: rest => if id.toNat = candidate then firstGap (candidate + 1) rest else candidate

/-- the smallest id that no element bears, here or outside -/
def smallestUnusedId? (n : Network) : Option ElementId :=
  let outside := Kind.values.foldl (fun used kind => used.union (n.external.ofKind kind)) (∅ : IdSet)
  let gap := firstGap 0 (outside.insertAll n.allIds).toList
  if gap < idLimit then some (UInt32.ofNat gap) else none

end Network

def Element.id : Element → ElementId
  | .lanelet l => l.id
  | .trafficSign s => s.id
  | .trafficLight t => t.id
  | .intersection i => i.id

/-! ## Networks with a counter for ids -/

/-- a network and the counter that its fresh ids come from -/
structure RoadMap where
  network : Network
  ids : IdAllocator
  deriving DecidableEq

namespace RoadMap

def empty : RoadMap := ⟨{}, .start⟩

instance : Inhabited RoadMap := ⟨empty⟩

/-- a new element; its id counts as used -/
def add (m : RoadMap) (e : Element) : RoadMap := ⟨m.network.add e, m.ids.observe e.id⟩

/-- an id that no element bears yet: the next one of the counter, or when the counter has come to its end the smallest
one that is used neither here nor outside -/
def freshId? (m : RoadMap) : Option (ElementId × RoadMap) :=
  match m.ids.draw? with
  | some (id, ids) => some (id, { m with ids })
  | none => m.network.smallestUnusedId?.map fun id => (id, m)

/-- gives an element a fresh id; `none` if it is not there or no id is left -/
def reassignId? (m : RoadMap) (h : Handle) : Option (ElementId × RoadMap) :=
  if m.network.contains h then
    m.freshId?.map fun (id, m) => (id, { m with network := m.network.setId h id })
  else none

/-- counts the ids of all elements as used -/
def observeAll (m : RoadMap) : RoadMap := { m with ids := m.ids.observeAll m.network.allIds }

end RoadMap

end RoadRules
