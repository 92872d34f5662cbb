/-
The rules in plain terms.

A rule is a text that is parsed, compiled and evaluated at every choice of elements. `RuleId.BrokenAt` says for each
rule, without formulas, at which locations a network breaks it; `verify_iff_brokenAt` says that a check with the full
rule set reports just these. Between the two are the faults of `RuleId.fault`, which `violates_iff_brokenAt` takes rule
by rule: `violates_iff_of_view` turns a fault at an element of one sort into a location, and `Wellformed` says when an
element is wrong in itself.
-/
import RoadRules.Network.Document
import RoadRules.Proofs.Rule.Violations
import RoadRules.Proofs.Rule.Wellformed

namespace RoadRules

/-! ## Locations -/

namespace Network

variable (n : Network)

/-- the id of a lanelet with something wrong -/
def SomeLanelet (wrong : Lanelet → Prop) (loc : Location) : Prop := ∃ l ∈ n.lanelets.values, wrong l ∧ loc = [l.id]

/-- the id of a traffic sign with something wrong -/
def SomeSign (wrong : TrafficSign → Prop) (loc : Location) : Prop :=
  ∃ s ∈ n.trafficSigns.values, wrong s ∧ loc = [s.id]

/-- the id of a traffic light with something wrong -/
def SomeLight (wrong : TrafficLight → Prop) (loc : Location) : Prop :=
  ∃ t ∈ n.trafficLights.values, wrong t ∧ loc = [t.id]

/-- the id of an intersection with something wrong -/
def SomeIntersection (wrong : Intersection → Prop) (loc : Location) : Prop :=
  ∃ i ∈ n.intersections.values, wrong i ∧ loc = [i.id]

/-- the id of an element of the kind, if another element, of whatever kind, bears it too -/
def SharedId (kind : Kind) (loc : Location) : Prop :=
  ∃ x y id, x.kind = kind ∧ y ≠ x ∧ n.idOf? x = some id ∧ n.idOf? y = some id ∧ loc = [id]

/-- does no element of the kind bear the id, neither here nor outside? -/
def Missing (kind : Kind) (id : ElementId) : Prop := id ∉ n.ids kind ∧ ¬ id ∈ n.external.ofKind kind

end Network

/-! ## The rules -/

/-- where a network breaks a rule -/
def RuleId.BrokenAt (n : Network) : RuleId → Location → Prop
  | uniqueIdLa => n.SharedId .lanelet
  | uniqueIdTs => n.SharedId .trafficSign
  | uniqueIdTl => n.SharedId .trafficLight
  | uniqueIdIn => n.SharedId .intersection
  | sameVerticesSize => n.SomeLanelet fun l => l.left.length ≠ l.right.length
  | verticesMoreThanOne => n.SomeLanelet fun l => l.left.length ≤ 1 ∨ l.right.length ≤ 1
  | polylinesSameDirection => n.SomeLanelet fun l => ∃ a b z,
      l.left.head? = some a ∧ l.right.head? = some b ∧ l.right.getLast? = some z ∧ ¬ a.distance b ≤ a.distance z
  | leftSelfIntersection => n.SomeLanelet fun l => Polyline.CrossesItself Vec2.crossing? l.left
  | rightSelfIntersection => n.SomeLanelet fun l => Polyline.CrossesItself Vec2.crossing? l.right
  | existenceLeftAdj => n.SomeLanelet fun l => ∃ beside ∈ l.adjacentLeft, n.Missing .lanelet beside.id
  | existenceRightAdj => n.SomeLanelet fun l => ∃ beside ∈ l.adjacentRight, n.Missing .lanelet beside.id
  | existencePredecessor => n.SomeLanelet fun l => ∃ id ∈ l.predecessors, n.Missing .lanelet id
  | existenceSuccessor => n.SomeLanelet fun l => ∃ id ∈ l.successors, n.Missing .lanelet id
  | connectionsPredecessor => n.SomeLanelet fun l =>
      ∃ k ∈ n.lanelets.values, k.id ∈ l.predecessors ∧ ¬ l.id ∈ k.successors
  | connectionsSuccessor => n.SomeLanelet fun l =>
      ∃ k ∈ n.lanelets.values, k.id ∈ l.successors ∧ ¬ l.id ∈ k.predecessors
  | nonPredecessorAsSuccessor => fun loc => ∃ l ∈ n.lanelets.values, ∃ k ∈ n.lanelets.values,
      k.id ∈ l.predecessors ∧ k.id ∈ l.successors ∧ loc = [l.id, k.id]
  | existenceTrafficSigns => n.SomeLanelet fun l => ∃ id ∈ l.trafficSigns, n.Missing .trafficSign id
  | existenceTrafficLights => n.SomeLanelet fun l => ∃ id ∈ l.trafficLights, n.Missing .trafficLight id
  | existenceStopLineTrafficSigns => n.SomeLanelet fun l =>
      ∃ stop ∈ l.stopLine, ∃ id ∈ stop.trafficSigns, n.Missing .trafficSign id
  | existenceStopLineTrafficLights => n.SomeLanelet fun l =>
      ∃ stop ∈ l.stopLine, ∃ id ∈ stop.trafficLights, n.Missing .trafficLight id
  | includedStopLineTrafficSigns => n.SomeLanelet fun l =>
      ∃ stop ∈ l.stopLine, ∃ id ∈ stop.trafficSigns, ¬ id ∈ l.trafficSigns
  | atLeastOneTrafficSignElement => n.SomeSign fun s => s.plates = []
  | referencedTrafficSign => n.SomeSign fun s => ∀ l ∈ n.lanelets.values,
      ¬ s.id ∈ l.trafficSigns ∧ ∀ stop ∈ l.stopLine, ¬ s.id ∈ stop.trafficSigns
  | givenAdditionalValue => n.SomeSign fun s => ∃ p ∈ s.plates, needsValue p.code = true ∧ p.values = []
  | validAdditionalValueSpeedSign => n.SomeSign fun s =>
      ∃ p ∈ s.plates, isSpeedLimitCode p.code = true ∧ ∃ v ∈ p.values, ¬ 0.0 < v
  | atLeastOneCycleElement => n.SomeLight fun t => t.cycle = []
  | nonZeroDuration => n.SomeLight fun t => ∃ c ∈ t.cycle, c.duration = 0
  | uniqueStateInCycle => n.SomeLight fun t => ¬ (t.cycle.map (·.phase)).Nodup
  | referencedTrafficLight => n.SomeLight fun t => ∀ l ∈ n.lanelets.values,
      ¬ t.id ∈ l.trafficLights ∧ ∀ stop ∈ l.stopLine, ¬ t.id ∈ stop.trafficLights
  | atLeastTwoIncomingElements => n.SomeIntersection fun i => i.incomings.length < 2
  | existenceIncomingLanelets => n.SomeIntersection fun i =>
      ∃ g ∈ i.incomings, ∃ id ∈ g.lanelets, n.Missing .lanelet id
  | existenceSuccessorLanelets => n.SomeIntersection fun i =>
      ∃ g ∈ i.incomings, ∃ id, (id ∈ g.left ∨ id ∈ g.right ∨ id ∈ g.straight) ∧ n.Missing .lanelet id
  | atLeastOneRoadConnection => n.SomeIntersection fun i =>
      ∃ g ∈ i.incomings, g.left.isEmpty = true ∧ g.right.isEmpty = true ∧ g.straight.isEmpty = true
  | existenceCrossings => n.SomeIntersection fun i => ∃ id ∈ i.crossings, n.Missing .lanelet id

/-! ## From faults to locations -/

namespace Network

variable {n : Network} {v : Violation}

theorem missing_iff {kind : Kind} {id : ElementId} : n.Missing kind id ↔ ¬ n.resolves kind id = true := by
  rw [Missing, resolves_iff, ← mem_ids, not_or, and_comm, ExternalIds.contains, SortedSet.contains_iff]

theorem missing_of_refs {kind : Kind} {refs : List ElementId} :
    (¬ ∀ ref ∈ refs, n.resolves kind ref = true) ↔ ∃ ref ∈ refs, n.Missing kind ref := by
  simp only [missing_iff, not_forall, exists_prop]

theorem missing_of_groups {kind : Kind} {groups : List IncomingGroup} {refs : IncomingGroup → List ElementId} :
    (¬ ∀ ref ∈ groups.flatMap refs, n.resolves kind ref = true) ↔
      ∃ g ∈ groups, ∃ ref ∈ refs g, n.Missing kind ref := by
  rw [missing_of_refs]
  simp only [List.mem_flatMap]
  constructor
  · rintro ⟨ref, ⟨g, hg, href⟩, hno⟩; exact ⟨g, hg, ref, href, hno⟩
  · rintro ⟨g, hg, ref, href, hno⟩; exact ⟨ref, ⟨g, hg, href⟩, hno⟩

section View

variable {α : Type} {wrap : α → Element} {kind : Kind} {store : Store α}
  (view : ∀ {x a}, n.element? x = some (wrap a) ↔ ∃ k, x = ⟨kind, k⟩ ∧ store.get? k = some a)

include view

/-- a fault at elements of one sort, as a location -/
theorem violates_iff_of_view {P wrong : α → Prop}
    (hat : ∀ b, v.rule.fault.At n b ↔ ∃ x a, b = [x] ∧ n.element? x = some (wrap a) ∧ P a)
    (hw : ∀ a ∈ store.values, P a ↔ wrong a) :
    n.Violates v ↔ ∃ a ∈ store.values, wrong a ∧ v.location = [(wrap a).id] := by
  constructor
  · rintro ⟨b, hb, hloc⟩
    obtain ⟨x, a, rfl, hx, hP⟩ := (hat b).1 hb
    obtain ⟨k, -, hk⟩ := view.1 hx
    have ha : a ∈ store.values := Store.mem_values.2 ⟨k, hk⟩
    rw [List.filterMap_cons_some (idOf?_of_element? hx)] at hloc
    exact ⟨a, ha, (hw a ha).1 hP, hloc.symm⟩
  · rintro ⟨a, ha, hwrong, hloc⟩
    obtain ⟨k, hk⟩ := Store.mem_values.1 ha
    have hx : n.element? ⟨kind, k⟩ = some (wrap a) := view.2 ⟨k, rfl, hk⟩
    refine ⟨[⟨kind, k⟩], (hat _).2 ⟨_, a, rfl, hx, (hw a ha).2 hwrong⟩, ?_⟩
    rw [List.filterMap_cons_some (idOf?_of_element? hx), hloc]
    rfl

end View

theorem violates_lanelet_iff {P wrong : Lanelet → Prop}
    (hat : ∀ b, v.rule.fault.At n b ↔ ∃ x l, b = [x] ∧ n.element? x = some (.lanelet l) ∧ P l)
    (hw : ∀ l ∈ n.lanelets.values, P l ↔ wrong l) : n.Violates v ↔ n.SomeLanelet wrong v.location :=
  violates_iff_of_view element?_eq_lanelet hat hw

theorem violates_sign_iff {P wrong : TrafficSign → Prop}
    (hat : ∀ b, v.rule.fault.At n b ↔ ∃ x s, b = [x] ∧ n.element? x = some (.trafficSign s) ∧ P s)
    (hw : ∀ s ∈ n.trafficSigns.values, P s ↔ wrong s) : n.Violates v ↔ n.SomeSign wrong v.location :=
  violates_iff_of_view element?_eq_trafficSign hat hw

theorem violates_light_iff {P wrong : TrafficLight → Prop}
    (hat : ∀ b, v.rule.fault.At n b ↔ ∃ x t, b = [x] ∧ n.element? x = some (.trafficLight t) ∧ P t)
    (hw : ∀ t ∈ n.trafficLights.values, P t ↔ wrong t) : n.Violates v ↔ n.SomeLight wrong v.location :=
  violates_iff_of_view element?_eq_trafficLight hat hw

theorem violates_intersection_iff {P wrong : Intersection → Prop}
    (hat : ∀ b, v.rule.fault.At n b ↔ ∃ x i, b = [x] ∧ n.element? x = some (.intersection i) ∧ P i)
    (hw : ∀ i ∈ n.intersections.values, P i ↔ wrong i) : n.Violates v ↔ n.SomeIntersection wrong v.location :=
  violates_iff_of_view element?_eq_intersection hat hw

/-! ### Faults of several elements -/

theorem violates_shared_iff {kind : Kind} (hf : v.rule.fault = .shared kind) :
    n.Violates v ↔ n.SharedId kind v.location := by
  simp only [Violates, hf, Fault.at_shared]
  constructor
  · rintro ⟨_, ⟨x, rfl, hk, id, hx, y, hne, hy⟩, hloc⟩
    exact ⟨x, y, id, hk, hne, hx, hy, by rw [← hloc, List.filterMap_cons_some hx]; rfl⟩
  · rintro ⟨x, y, id, hk, hne, hx, hy, hloc⟩
    exact ⟨[x], ⟨x, rfl, hk, id, hx, y, hne, hy⟩, by rw [hloc, List.filterMap_cons_some hx]; rfl⟩

theorem violates_bothWays_iff (hf : v.rule.fault = .bothWays) : n.Violates v ↔
    ∃ l ∈ n.lanelets.values, ∃ k ∈ n.lanelets.values,
      k.id ∈ l.predecessors ∧ k.id ∈ l.successors ∧ v.location = [l.id, k.id] := by
  simp only [Violates, hf, Fault.at_bothWays]
  constructor
  · rintro ⟨_, ⟨x, y, l, k, rfl, hl, hk, hp, hs⟩, hloc⟩
    obtain ⟨i, -, hi⟩ := element?_eq_lanelet.1 hl
    obtain ⟨j, -, hj⟩ := element?_eq_lanelet.1 hk
    refine ⟨l, Store.mem_values.2 ⟨i, hi⟩, k, Store.mem_values.2 ⟨j, hj⟩, hp, hs, ?_⟩
    rw [← hloc, List.filterMap_cons_some (idOf?_of_element? hl), List.filterMap_cons_some (idOf?_of_element? hk)]
    rfl
  · rintro ⟨l, hl, k, hk, hp, hs, hloc⟩
    obtain ⟨i, hi⟩ := Store.mem_values.1 hl
    obtain ⟨j, hj⟩ := Store.mem_values.1 hk
    have hl : n.element? ⟨.lanelet, i⟩ = some (.lanelet l) := element?_eq_lanelet.2 ⟨i, rfl, hi⟩
    have hk : n.element? ⟨.lanelet, j⟩ = some (.lanelet k) := element?_eq_lanelet.2 ⟨j, rfl, hj⟩
    refine ⟨_, ⟨_, _, l, k, rfl, hl, hk, hp, hs⟩, ?_⟩
    rw [hloc, List.filterMap_cons_some (idOf?_of_element? hl), List.filterMap_cons_some (idOf?_of_element? hk)]
    rfl

/-- the lanelets of a network, by handle or in a row -/
theorem exists_lanelet {P : Lanelet → Prop} :
    (∃ y k, n.element? y = some (.lanelet k) ∧ P k) ↔ ∃ k ∈ n.lanelets.values, P k := by
  constructor
  · rintro ⟨y, k, hk, hP⟩
    obtain ⟨j, -, hj⟩ := element?_eq_lanelet.1 hk
    exact ⟨k, Store.mem_values.2 ⟨j, hj⟩, hP⟩
  · rintro ⟨k, hk, hP⟩
    obtain ⟨j, hj⟩ := Store.mem_values.1 hk
    exact ⟨_, k, element?_eq_lanelet.2 ⟨j, rfl, hj⟩, hP⟩

theorem at_unanswered_iff {there back : Lanelet → IdSet} (b : List Handle) : (Fault.unanswered there back).At n b ↔
    ∃ x l, b = [x] ∧ n.element? x = some (.lanelet l) ∧
      ∃ k ∈ n.lanelets.values, k.id ∈ there l ∧ ¬ l.id ∈ back k := by
  simp only [Fault.at_unanswered, exists_lanelet]

/-- an element to which no lanelet refers, among those of one sort -/
theorem at_unreferenced_iff {α : Type} {wrap : α → Element} {kind : Kind}
    (sort : ∀ x, (∃ a, n.element? x = some (wrap a)) ↔ x.kind = kind ∧ ∃ e, n.element? x = some e)
    {refs : Lanelet → List ElementId} (b : List Handle) : (Fault.unreferenced kind refs).At n b ↔
      ∃ x a, b = [x] ∧ n.element? x = some (wrap a) ∧ ∀ l ∈ n.lanelets.values, (wrap a).id ∉ refs l := by
  rw [Fault.at_unreferenced]
  constructor
  · rintro ⟨x, id, rfl, hk, hid, hno⟩
    obtain ⟨e, he, rfl⟩ := exists_element hid
    obtain ⟨a, ha⟩ := (sort x).2 ⟨hk, e, he⟩
    cases he.symm.trans ha
    refine ⟨x, a, rfl, ha, fun l hl href => ?_⟩
    obtain ⟨k, hk⟩ := Store.mem_values.1 hl
    exact hno _ l (element?_eq_lanelet.2 ⟨k, rfl, hk⟩) href
  · rintro ⟨x, a, rfl, ha, hno⟩
    refine ⟨x, _, rfl, ((sort x).1 ⟨a, ha⟩).1, idOf?_of_element? ha, fun y l hl => ?_⟩
    obtain ⟨k, -, hk⟩ := element?_eq_lanelet.1 hl
    exact hno l (Store.mem_values.2 ⟨k, hk⟩)

theorem not_mem_trafficSignRefs {l : Lanelet} {id : ElementId} : id ∉ l.trafficSignRefs ↔
    ¬ id ∈ l.trafficSigns ∧ ∀ stop ∈ l.stopLine, ¬ id ∈ stop.trafficSigns := by
  cases hs : l.stopLine <;> simp [Lanelet.trafficSignRefs, hs, SortedSet.mem_toList]

theorem not_mem_trafficLightRefs {l : Lanelet} {id : ElementId} : id ∉ l.trafficLightRefs ↔
    ¬ id ∈ l.trafficLights ∧ ∀ stop ∈ l.stopLine, ¬ id ∈ stop.trafficLights := by
  cases hs : l.stopLine <;> simp [Lanelet.trafficLightRefs, hs, SortedSet.mem_toList]

end Network

/-! ## Checks -/

open Network in
/-- A network has a violation where it breaks the rule in plain terms. -/
theorem Network.violates_iff_brokenAt {n : Network} (hn : n.Representable) (v : Violation) :
    n.Violates v ↔ v.rule.BrokenAt n v.location := by
  obtain ⟨r, loc⟩ := v
  cases r with
  | uniqueIdLa => exact violates_shared_iff rfl
  | uniqueIdTs => exact violates_shared_iff rfl
  | uniqueIdTl => exact violates_shared_iff rfl
  | uniqueIdIn => exact violates_shared_iff rfl
  | sameVerticesSize =>
    exact violates_lanelet_iff (fun _ => Fault.at_ofLanelet) fun l hl =>
      not_congr (Lanelet.hasEvenBorders_iff (hn.lanelets l hl))
  | verticesMoreThanOne =>
    refine violates_lanelet_iff (fun _ => Fault.at_ofLanelet) fun l hl => ?_
    rw [Lanelet.hasBorders_iff (hn.lanelets l hl)]
    omega
  | polylinesSameDirection =>
    refine violates_lanelet_iff (fun _ => Fault.at_ofLanelet) fun l hl => ?_
    rw [Lanelet.hasAlignedBorders_iff (hn.lanelets l hl)]
    push Not
    rfl
  | leftSelfIntersection =>
    refine violates_lanelet_iff (fun _ => Fault.at_ofLanelet) fun l hl => ?_
    simp [Lanelet.hasSimpleLeft, Polyline.isSelfCrossing_iff]
  | rightSelfIntersection =>
    refine violates_lanelet_iff (fun _ => Fault.at_ofLanelet) fun l hl => ?_
    simp [Lanelet.hasSimpleRight, Polyline.isSelfCrossing_iff]
  | existenceLeftAdj =>
    refine violates_lanelet_iff (fun _ => Fault.at_missingFrom) fun l _ => missing_of_refs.trans ?_
    simp
  | existenceRightAdj =>
    refine violates_lanelet_iff (fun _ => Fault.at_missingFrom) fun l _ => missing_of_refs.trans ?_
    simp
  | existencePredecessor => exact violates_lanelet_iff (fun _ => Fault.at_missingFrom) fun _ _ => missing_of_refs
  | existenceSuccessor => exact violates_lanelet_iff (fun _ => Fault.at_missingFrom) fun _ _ => missing_of_refs
  | connectionsPredecessor => exact violates_lanelet_iff at_unanswered_iff fun _ _ => Iff.rfl
  | connectionsSuccessor => exact violates_lanelet_iff at_unanswered_iff fun _ _ => Iff.rfl
  | nonPredecessorAsSuccessor => exact violates_bothWays_iff rfl
  | existenceTrafficSigns => exact violates_lanelet_iff (fun _ => Fault.at_missingFrom) fun _ _ => missing_of_refs
  | existenceTrafficLights => exact violates_lanelet_iff (fun _ => Fault.at_missingFrom) fun _ _ => missing_of_refs
  | existenceStopLineTrafficSigns =>
    refine violates_lanelet_iff (fun _ => Fault.at_missingFrom) fun l _ => missing_of_refs.trans ?_
    cases hs : l.stopLine <;> simp [Lanelet.stopLineSigns, hs, SortedSet.mem_toList]
  | existenceStopLineTrafficLights =>
    refine violates_lanelet_iff (fun _ => Fault.at_missingFrom) fun l _ => missing_of_refs.trans ?_
    cases hs : l.stopLine <;> simp [Lanelet.stopLineLights, hs, SortedSet.mem_toList]
  | includedStopLineTrafficSigns =>
    refine violates_lanelet_iff (fun _ => Fault.at_ofLanelet) fun l _ => ?_
    rw [Lanelet.includesStopLineSigns_iff]
    push Not
    rfl
  | atLeastOneTrafficSignElement =>
    refine violates_sign_iff (fun _ => Fault.at_ofSign) fun s hs => ?_
    rw [TrafficSign.hasPlates_iff (hn.trafficSigns s hs), not_not]
  | referencedTrafficSign =>
    exact violates_sign_iff (at_unreferenced_iff exists_trafficSign_iff) fun s _ =>
      forall₂_congr fun l _ => not_mem_trafficSignRefs
  | givenAdditionalValue =>
    refine violates_sign_iff (fun _ => Fault.at_ofSign) fun s hs => ?_
    rw [TrafficSign.hasValues_iff (hn.trafficSigns s hs).2]
    push Not
    rfl
  | validAdditionalValueSpeedSign =>
    refine violates_sign_iff (fun _ => Fault.at_ofSign) fun s _ => ?_
    rw [TrafficSign.hasPositiveSpeeds_iff]
    push Not
    rfl
  | atLeastOneCycleElement =>
    refine violates_light_iff (fun _ => Fault.at_ofLight) fun t ht => ?_
    rw [TrafficLight.hasCycle_iff (hn.trafficLights t ht), not_not]
  | nonZeroDuration =>
    refine violates_light_iff (fun _ => Fault.at_ofLight) fun t _ => ?_
    rw [TrafficLight.hasLastingPhases_iff]
    push Not
    simp only [UInt32.pos_iff_ne_zero, not_not]
  | uniqueStateInCycle =>
    exact violates_light_iff (fun _ => Fault.at_ofLight) fun t ht =>
      not_congr (TrafficLight.hasDistinctPhases_iff (hn.trafficLights t ht))
  | referencedTrafficLight =>
    exact violates_light_iff (at_unreferenced_iff exists_trafficLight_iff) fun t _ =>
      forall₂_congr fun l _ => not_mem_trafficLightRefs
  | atLeastTwoIncomingElements =>
    refine violates_intersection_iff (fun _ => Fault.at_ofIntersection) fun i hi => ?_
    rw [Intersection.hasIncomings_iff (hn.intersections i hi), Nat.not_le]
  | existenceIncomingLanelets =>
    exact violates_intersection_iff (fun _ => Fault.at_missingAt) fun i _ => missing_of_groups
  | existenceSuccessorLanelets =>
    refine violates_intersection_iff (fun _ => Fault.at_missingAt) fun i _ => missing_of_groups.trans ?_
    simp only [IncomingGroup.successors, List.mem_append, SortedSet.mem_toList, or_assoc]
  | atLeastOneRoadConnection =>
    refine violates_intersection_iff (fun _ => Fault.at_ofIntersection) fun i _ => ?_
    rw [Intersection.hasConnections_iff]
    push Not
    simp only [IncomingGroup.successors, List.append_eq_nil_iff, SortedSet.isEmpty, List.isEmpty_iff, and_assoc]
  | existenceCrossings => exact violates_intersection_iff (fun _ => Fault.at_missingAt) fun _ _ => missing_of_refs

/-- **The rules mean what they say.** A check with the full rule set reports the locations at which the network breaks
the rules it is made for, and no others. The lists of the network have to be ones that can be counted. -/
theorem Network.verify_iff_brokenAt (n : Network) (hn : n.Representable) : ∃ c, Catalog.standard = .ok c ∧
    ∀ (rules : List RuleId) (v : Violation), v ∈ c.verify n rules ↔ v.rule ∈ rules ∧ v.rule.BrokenAt n v.location :=
  ⟨standardCatalog, Catalog.standard_eq, fun _ v =>
    Violations.mem_verify.trans (and_congr_right fun _ => violates_iff_brokenAt hn v)⟩

/-- a light with the cycle green, red, green, and a lanelet that follows on one which does not exist -/
theorem Network.verify_iff_brokenAt_cycle : ∃ n, n = (RoadMap.ofDocument
      { lanelets := [{ id := 1, predecessors := .ofList [7] }],
        trafficLights := [{ id := 2, cycle := [⟨.green, 3⟩, ⟨.red, 3⟩, ⟨.green, 3⟩] }] }).network ∧
    (standardCatalog.verify n [.existencePredecessor, .uniqueStateInCycle]).toList =
      [⟨.existencePredecessor, [1]⟩, ⟨.uniqueStateInCycle, [2]⟩] ∧
    ∃ c, Catalog.standard = .ok c ∧ ∀ (rules : List RuleId) (v : Violation),
      v ∈ c.verify n rules ↔ v.rule ∈ rules ∧ v.rule.BrokenAt n v.location :=
  ⟨_, rfl, by decide +kernel, verify_iff_brokenAt _
    ⟨by decide +kernel, by decide +kernel, by decide +kernel, by decide +kernel⟩⟩

end RoadRules
