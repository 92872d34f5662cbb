/-
Copies of parts of a network.

`extract` copies the elements of a scope under their keys; the ids of all elements left out become external, so that a
reference out of the scope is not taken for a dangling one. `merge` writes an edited copy back: elements of the scope
are replaced or removed, and elements that the copy has gained get new keys.
-/
import RoadRules.Network.Basic

namespace RoadRules

/-- a set of elements, by their keys -/
structure Scope where
  lanelets : SortedSet Nat := ∅
  trafficSigns : SortedSet Nat := ∅
  trafficLights : SortedSet Nat := ∅
  intersections : SortedSet Nat := ∅
  deriving DecidableEq

namespace Scope

instance : Inhabited Scope := ⟨{}⟩

def ofKind (s : Scope) : Kind → SortedSet Nat
  | .lanelet => s.lanelets
  | .trafficSign => s.trafficSigns
  | .trafficLight => s.trafficLights
  | .intersection => s.intersections

def insert (s : Scope) (h : Handle) : Scope :=
  match h.kind with
  | .lanelet => { s with lanelets := s.lanelets.insert h.key }
  | .trafficSign => { s with trafficSigns := s.trafficSigns.insert h.key }
  | .trafficLight => { s with trafficLights := s.trafficLights.insert h.key }
  | .intersection => { s with intersections := s.intersections.insert h.key }

def insertAll (s : Scope) (hs : List Handle) : Scope := hs.foldl insert s

def contains (s : Scope) (h : Handle) : Bool := (s.ofKind h.kind).contains h.key

def size (s : Scope) : Nat := Kind.values.foldl (fun total k => total + (s.ofKind k).size) 0

def isEmpty (s : Scope) : Bool := s.size == 0

def handles (s : Scope) : List Handle :=
  Kind.values.flatMap fun kind => (s.ofKind kind).toList.map fun key => ⟨kind, key⟩

/-- is there no element in both scopes? -/
def isDisjoint (s t : Scope) : Bool := Kind.values.all fun k => (s.ofKind k).isDisjoint (t.ofKind k)

/-- the elements of either scope -/
def union (s t : Scope) : Scope :=
  ⟨s.lanelets.union t.lanelets, s.trafficSigns.union t.trafficSigns, s.trafficLights.union t.trafficLights,
    s.intersections.union t.intersections⟩

/-- the elements that are in both scopes -/
def inter (s t : Scope) : Scope :=
  ⟨s.lanelets.inter t.lanelets, s.trafficSigns.inter t.trafficSigns, s.trafficLights.inter t.trafficLights,
    s.intersections.inter t.intersections⟩

end Scope

/-- how many elements a merge has written, removed and put in anew -/
structure MergeSummary where
  replaced : Nat := 0
  removed : Nat := 0
  inserted : Nat := 0
  deriving DecidableEq, Repr

instance : Add MergeSummary := ⟨fun a b => ⟨a.replaced + b.replaced, a.removed + b.removed, a.inserted + b.inserted⟩⟩

namespace Store

variable {α : Type}

/-- values of the entries whose keys are not in the scope -/
def outside (s : Store α) (scope : SortedSet Nat) : List α :=
  (s.entries.filter fun e => !scope.contains e.1).map (·.2)

/-- values put in under ascending keys from `key` on -/
def insertFrom (s : Store α) (key : Nat) : List α → Store α
  | [] => s
  | v :: rest => insertFrom (s.insert key v) (key + 1) rest

/-- the store with its scoped entries as in `copy`, and with what else is in `copy` under new keys from `key` on -/
def merge (s : Store α) (scope : SortedSet Nat) (copy : Store α) (key : Nat) : Store α :=
  let kept := s.restrict fun k => !scope.contains k || copy.contains k
  let updated := kept.mapEntries fun k old => if scope.contains k then (copy.get? k).getD old else old
  updated.insertFrom key (copy.outside scope)

/-- what a merge does to the entries -/
def mergeSummary (s : Store α) (scope : SortedSet Nat) (copy : Store α) : MergeSummary :=
  let inside := s.keys.filter fun k => scope.contains k
  { replaced := (inside.filter copy.contains).length
    removed := (inside.filter fun k => !copy.contains k).length
    inserted := (copy.outside scope).length }

end Store

namespace Network

/-- a copy of the elements in the scope; all others become external -/
def extract (n : Network) (scope : Scope) : Network :=
  { lanelets := n.lanelets.restrict scope.lanelets.contains
    trafficSigns := n.trafficSigns.restrict scope.trafficSigns.contains
    trafficLights := n.trafficLights.restrict scope.trafficLights.contains
    intersections := n.intersections.restrict scope.intersections.contains
    nextKey := n.nextKey
    external :=
      { lanelets := n.external.lanelets.insertAll ((n.lanelets.outside scope.lanelets).map (·.id))
        trafficSigns := n.external.trafficSigns.insertAll ((n.trafficSigns.outside scope.trafficSigns).map (·.id))
        trafficLights := n.external.trafficLights.insertAll ((n.trafficLights.outside scope.trafficLights).map (·.id))
        intersections :=
          n.external.intersections.insertAll ((n.intersections.outside scope.intersections).map (·.id)) } }

/-- an edited copy of the scope written back; the new elements of the kinds get keys one after the other -/
def merge (n : Network) (scope : Scope) (copy : Network) : Network :=
  let signKey := n.nextKey + (copy.lanelets.outside scope.lanelets).length
  let lightKey := signKey + (copy.trafficSigns.outside scope.trafficSigns).length
  let intersectionKey := lightKey + (copy.trafficLights.outside scope.trafficLights).length
  { lanelets := n.lanelets.merge scope.lanelets copy.lanelets n.nextKey
    trafficSigns := n.trafficSigns.merge scope.trafficSigns copy.trafficSigns signKey
    trafficLights := n.trafficLights.merge scope.trafficLights copy.trafficLights lightKey
    intersections := n.intersections.merge scope.intersections copy.intersections intersectionKey
    nextKey := intersectionKey + (copy.intersections.outside scope.intersections).length
    external := n.external }

def mergeSummary (n : Network) (scope : Scope) (copy : Network) : MergeSummary :=
  n.lanelets.mergeSummary scope.lanelets copy.lanelets +
    n.trafficSigns.mergeSummary scope.trafficSigns copy.trafficSigns +
    n.trafficLights.mergeSummary scope.trafficLights copy.trafficLights +
    n.intersections.mergeSummary scope.intersections copy.intersections

end Network

namespace RoadMap

/-- an edited copy written back; the ids of all elements then count as used -/
def merge (m : RoadMap) (scope : Scope) (copy : Network) : RoadMap :=
  RoadMap.observeAll { m with network := m.network.merge scope copy }

end RoadMap

end RoadRules
