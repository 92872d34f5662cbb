/-
The walk that gathers the neighbourhood of an id.

The walk goes breadth first from lanelet to lanelet, with a queue of keys and depths. It starts at the lanelets that
bear the id, at depth 0, and at those that go with a sign, a light or an intersection that bears it, at depth 1. A
lanelet met is shown together with its signs, lights and intersections, and unless it lies at the radius, its neighbours
are put in the queue one step deeper. It is shown again whenever it is met, until its neighbours have been queued. The
scope is kept from one id to the next; which neighbours have been queued is not.
-/
import RoadRules.Network.Neighbourhood

namespace RoadRules

/-- keys of the values that refer to an id, as often as they do -/
def Store.referrers {α : Type} (s : Store α) (refs : α → List ElementId) (id : ElementId) : List Nat :=
  s.entries.flatMap fun e => ((refs e.2).filter (· == id)).map fun _ => e.1

namespace Network

/-! ## Steps -/

/-- keys of the lanelets that a lanelet is linked to or beside, and of those that are linked to it or beside it -/
def beside (n : Network) (l : Lanelet) : List Nat :=
  l.linkedLanelets.flatMap n.laneletsWithId ++ n.lanelets.referrers (·.linkedLanelets) l.id

/-- the neighbours of a lanelet that have not been expanded, as they are queued at a depth -/
def upcoming (n : Network) (l : Lanelet) (expanded : SortedSet Nat) (depth : Nat) : List (Nat × Nat) :=
  ((n.beside l).filter fun k => !expanded.contains k).map fun k => (k, depth)

/-- a lanelet, and the signs, lights and intersections that go with it, added to a scope -/
def reveal (n : Network) (scope : Scope) (key : Nat) (l : Lanelet) : Scope where
  lanelets := scope.lanelets.insert key
  trafficSigns := scope.trafficSigns.insertAll (l.trafficSignRefs.flatMap n.trafficSignsWithId)
  trafficLights := scope.trafficLights.insertAll (l.trafficLightRefs.flatMap n.trafficLightsWithId)
  intersections := scope.intersections.insertAll (n.intersections.referrers (·.lanelets) l.id)

/-- how many lanelets are not in a set -/
def missing (n : Network) (keys : SortedSet Nat) : Nat := (n.lanelets.keys.filter fun k => !keys.contains k).length

theorem filter_insert (n : Network) (keys : SortedSet Nat) (key : Nat) :
    (n.lanelets.keys.filter fun k => !(keys.insert key).contains k) =
      (n.lanelets.keys.filter fun k => !keys.contains k).filter (· != key) := by
  rw [List.filter_filter]
  refine List.filter_congr fun k _ => ?_
  by_cases hk : k = key <;> simp [SortedSet.contains, hk]

theorem missing_insert_le (n : Network) (keys : SortedSet Nat) (key : Nat) :
    n.missing (keys.insert key) ≤ n.missing keys := by
  rw [missing, filter_insert]
  exact List.length_filter_le _ _

theorem missing_insert_lt {n : Network} {keys : SortedSet Nat} {key : Nat} {l : Lanelet}
    (hl : n.lanelets.get? key = some l) (hk : ¬ key ∈ keys) : n.missing (keys.insert key) < n.missing keys := by
  obtain ⟨e, he, -⟩ := Option.map_eq_some_iff.1 hl
  have hkey : e.1 = key := by simpa using List.find?_some he
  have hmem : key ∈ n.lanelets.keys := hkey ▸ List.mem_map_of_mem (List.mem_of_find?_eq_some he)
  rw [missing, filter_insert]
  refine List.length_filter_lt_length_iff_exists.2 ⟨key, List.mem_filter.2 ⟨hmem, ?_⟩, by simp⟩
  simpa [SortedSet.contains] using hk

/-- the scope after all lanelets in the queue have been met, and those that are queued on the way. Each step that does
not shorten the queue shows a lanelet for the first time or queues the neighbours of one for the first time. -/
def walk (n : Network) (radius : Nat) :
    (queue : List (Nat × Nat)) → (scope : Scope) → (expanded : SortedSet Nat) → Scope
  | [], scope, _ => scope
  | (key, depth) :: queue, scope, expanded =>
    match _hl : n.lanelets.get? key with
    | none => walk n radius queue scope expanded
    | some l =>
      if _hmet : key ∈ scope.lanelets ∧ key ∈ expanded then walk n radius queue scope expanded
      else if radius ≤ depth then walk n radius queue (n.reveal scope key l) expanded
      else
        walk n radius (queue ++ n.upcoming l (expanded.insert key) (depth + 1)) (n.reveal scope key l)
          (expanded.insert key)
termination_by queue scope expanded => (n.missing scope.lanelets, n.missing expanded, queue.length)
decreasing_by
  · exact .right _ (.right _ (Nat.lt_succ_self _))
  · exact .right _ (.right _ (Nat.lt_succ_self _))
  · by_cases hseen : key ∈ scope.lanelets
    · exact Prod.Lex.right' _ (n.missing_insert_le _ _) (.right _ (Nat.lt_succ_self _))
    · exact .left _ _ (missing_insert_lt _hl hseen)
  · by_cases hseen : key ∈ scope.lanelets
    · exact Prod.Lex.right' _ (n.missing_insert_le _ _) (.left _ _ (missing_insert_lt _hl fun h => _hmet ⟨hseen, h⟩))
    · exact .left _ _ (missing_insert_lt _hl hseen)

/-! ## Starts -/

/-- where the walk starts for a sign or a light: at the lanelets that refer to it, or else at the one nearest to it -/
def startsNear (n : Network) (referrers : List Nat) (position : Option Point) : List Nat :=
  match referrers with
  | [] => (position.bind fun p => n.nearestLanelet? p attachDistance).toList
  | referrers => referrers

/-- where the walk starts for an element that bears the id -/
def starts (n : Network) (id : ElementId) (h : Handle) : List (Nat × Nat) :=
  match h.kind with
  | .lanelet => [(h.key, 0)]
  | .trafficSign =>
    (n.startsNear (n.lanelets.referrers (·.trafficSignRefs) id)
      ((n.trafficSigns.get? h.key).bind (·.position))).map fun k => (k, 1)
  | .trafficLight =>
    (n.startsNear (n.lanelets.referrers (·.trafficLightRefs) id)
      ((n.trafficLights.get? h.key).bind (·.position))).map fun k => (k, 1)
  | .intersection =>
    match n.intersections.get? h.key with
    | some i => (i.lanelets.flatMap n.laneletsWithId).map fun k => (k, 1)
    | none => []

/-- a scope with the neighbourhood of the elements that bear an id; a radius of 0 counts as 1 -/
def gather (n : Network) (radius : Nat) (scope : Scope) (id : ElementId) : Scope :=
  let bearers := n.handlesWithId id
  n.walk (max radius 1) (bearers.flatMap (n.starts id)) (scope.insertAll bearers) ∅

/-- the neighbourhoods of some ids, gathered one after the other -/
def gatherAll (n : Network) (radius : Nat) (ids : List ElementId) : Scope := ids.foldl (n.gather radius) {}

end Network

end RoadRules
