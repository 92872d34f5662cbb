/-
One run of repairs is enough.

- `RuleId.exists_cured`: every rule but those about loops in borders is cured by its repair, as long as borders can be
  measured, lists can be counted and there are ids left (`RoadMap.Manageable`).
- `repairAll_effective`: after one repair for each violation of a rule that a check has found, a check finds none.
-/
import RoadRules.Proofs.Number.Distance
import RoadRules.Proofs.Repair.Attaching
import RoadRules.Proofs.Repair.Dangling
import RoadRules.Proofs.Repair.Linking
import RoadRules.Proofs.Repair.Remedies
import RoadRules.Proofs.Repair.Separating

namespace RoadRules

/-! ## Maps whose repairs are effective -/

/-- Borders can be measured, lists can be counted, and the counter of the map has ids left. -/
structure RoadMap.Manageable (m : RoadMap) : Prop where
  measurable : ∀ l ∈ m.network.lanelets.values, l.Measurable
  representable : m.network.Representable
  roomy : m.Roomy

namespace RoadMap

variable {m : RoadMap}

theorem sound_lanelet {sound : Lanelet → Prop} (h : ∀ l ∈ m.network.lanelets.values, sound l) :
    m.Sound .lanelet sound := by
  rintro x _ hx l rfl
  obtain ⟨k, -, hl⟩ := Network.element?_eq_lanelet.1 hx
  exact h l (Store.mem_values.2 ⟨k, hl⟩)

theorem sound_trafficSign {sound : TrafficSign → Prop} (h : ∀ s ∈ m.network.trafficSigns.values, sound s) :
    m.Sound .trafficSign sound := by
  rintro x _ hx s rfl
  obtain ⟨k, -, hs⟩ := Network.element?_eq_trafficSign.1 hx
  exact h s (Store.mem_values.2 ⟨k, hs⟩)

theorem sound_trafficLight {sound : TrafficLight → Prop} (h : ∀ t ∈ m.network.trafficLights.values, sound t) :
    m.Sound .trafficLight sound := by
  rintro x _ hx t rfl
  obtain ⟨k, -, ht⟩ := Network.element?_eq_trafficLight.1 hx
  exact h t (Store.mem_values.2 ⟨k, ht⟩)

theorem sound_intersection {sound : Intersection → Prop} (h : ∀ i ∈ m.network.intersections.values, sound i) :
    m.Sound .intersection sound := by
  rintro x _ hx i rfl
  obtain ⟨k, -, hi⟩ := Network.element?_eq_intersection.1 hx
  exact h i (Store.mem_values.2 ⟨k, hi⟩)

/-- a counter with as many ids left as there are elements has room -/
theorem Counted.roomy (hm : m.Counted) (hroom : m.network.elementCount ≤ idLimit - m.ids.watermark) : m.Roomy where
  counted := hm
  room := by
    have hle := m.ids.watermark_le
    omega

end RoadMap

/-! ## The rules -/

/-- **Cures.** The repair of every rule but those about loops in borders cures it. -/
theorem RuleId.exists_cured {r : RuleId} (hleft : r ≠ leftSelfIntersection) (hright : r ≠ rightSelfIntersection) :
    ∃ Inv, r.Cured Inv ∧ ∀ m : RoadMap, m.Manageable → Inv m := by
  cases r with
  | leftSelfIntersection => exact absurd rfl hleft
  | rightSelfIntersection => exact absurd rfl hright
  | uniqueIdLa | uniqueIdTs | uniqueIdTl | uniqueIdIn => exact ⟨_, cured_uniqueId (by decide), fun _ hm => hm.roomy⟩
  | sameVerticesSize => exact ⟨_, cured_sameVerticesSize, fun m _ => m.sound_true _⟩
  | verticesMoreThanOne =>
    exact ⟨_, cured_verticesMoreThanOne, fun _ hm => RoadMap.sound_lanelet hm.representable.lanelets⟩
  | polylinesSameDirection =>
    exact ⟨_, cured_polylinesSameDirection, fun _ hm => RoadMap.sound_lanelet hm.measurable⟩
  | existenceLeftAdj | existenceRightAdj => exact ⟨_, cured_adjacent (by decide), fun m _ => m.sound_true _⟩
  | existencePredecessor | existenceSuccessor | existenceTrafficSigns | existenceTrafficLights =>
    exact ⟨_, cured_links (by decide), fun m _ => m.sound_true _⟩
  | connectionsPredecessor => exact ⟨_, cured_connectionsPredecessor, fun _ _ => trivial⟩
  | connectionsSuccessor => exact ⟨_, cured_connectionsSuccessor, fun _ _ => trivial⟩
  | nonPredecessorAsSuccessor => exact ⟨_, cured_bothWays, fun _ _ => trivial⟩
  | existenceStopLineTrafficSigns | existenceStopLineTrafficLights =>
    exact ⟨_, cured_stopLine (by decide), fun m _ => m.sound_true _⟩
  | includedStopLineTrafficSigns => exact ⟨_, cured_includedStopLineTrafficSigns, fun m _ => m.sound_true _⟩
  | atLeastOneTrafficSignElement | givenAdditionalValue =>
    exact ⟨_, cured_plates (by decide), fun _ hm => RoadMap.sound_trafficSign hm.representable.trafficSigns⟩
  | validAdditionalValueSpeedSign => exact ⟨_, cured_validAdditionalValueSpeedSign, fun m _ => m.sound_true _⟩
  | referencedTrafficSign => exact ⟨_, cured_referencedTrafficSign, fun _ _ => trivial⟩
  | atLeastOneCycleElement =>
    exact ⟨_, cured_atLeastOneCycleElement, fun _ hm => RoadMap.sound_trafficLight hm.representable.trafficLights⟩
  | nonZeroDuration | uniqueStateInCycle => exact ⟨_, cured_phases (by decide), fun m _ => m.sound_true _⟩
  | referencedTrafficLight => exact ⟨_, cured_referencedTrafficLight, fun _ _ => trivial⟩
  | atLeastTwoIncomingElements =>
    exact ⟨_, cured_atLeastTwoIncomingElements, fun _ hm => RoadMap.sound_intersection hm.representable.intersections⟩
  | existenceIncomingLanelets => exact ⟨_, cured_incomings, fun m _ => m.sound_true _⟩
  | existenceSuccessorLanelets => exact ⟨_, cured_groupSuccessors, fun m _ => m.sound_true _⟩
  | atLeastOneRoadConnection => exact ⟨_, cured_atLeastOneRoadConnection, fun m _ => m.sound_true _⟩
  | existenceCrossings => exact ⟨_, cured_crossings, fun m _ => m.sound_true _⟩

/-- **Repairs are effective.** After one repair for each violation of a rule that a check has found, a check finds no
violation of it. The borders of lanelets have finite coordinates, and of doubles it is assumed that the distance of
finite points on them is a number; the counter has gone beyond all ids and has as many left as there are elements. -/
theorem repairAll_effective (m : RoadMap)
    (hfinite : ∀ l ∈ m.network.lanelets.values, ∀ p ∈ l.left ++ l.right, p.isFinite = true)
    (hdistance : ∀ l ∈ m.network.lanelets.values, ∀ a ∈ l.left, ∀ b ∈ l.right, a.isFinite = true → b.isFinite = true →
      (a.distance b).isNaN = false)
    (hrepresentable : m.network.Representable) (hcounted : m.Counted)
    (hroom : m.network.elementCount ≤ idLimit - m.ids.watermark)
    {r : RuleId} (hleft : r ≠ .leftSelfIntersection) (hright : r ≠ .rightSelfIntersection) :
    ∃ c, Catalog.standard = .ok c ∧
      (c.verify (m.repairAll (c.verify m.network [r])).1.network [r]).isEmpty = true := by
  obtain ⟨Inv, hcured, hinv⟩ := RuleId.exists_cured hleft hright
  have hmeasurable : ∀ l ∈ m.network.lanelets.values, l.Measurable := fun l hl a ha b hb =>
    hdistance l hl a ha b hb (hfinite l hl a (List.mem_append_left _ ha)) (hfinite l hl b (List.mem_append_right _ hb))
  exact ⟨standardCatalog, Catalog.standard_eq,
    hcured.verify_repairAll m (hinv m ⟨hmeasurable, hrepresentable, hcounted.roomy hroom⟩)⟩

/-- a lanelet whose right border runs the wrong way, and another one with the same id -/
def twisted : RoadMap :=
  (RoadMap.empty.add (.lanelet
    { id := 7, left := [⟨0.0, 0.0⟩, ⟨10.0, 0.0⟩], right := [⟨10.0, -3.0⟩, ⟨0.0, -3.0⟩] })).add
    (.lanelet { id := 7, left := [⟨0.0, 4.0⟩, ⟨10.0, 4.0⟩], right := [⟨0.0, 1.0⟩, ⟨10.0, 1.0⟩] })

theorem repairAll_effective_twisted : (twisted.network.lanelets.values.map (·.hasAlignedBorders)) = [false, true] ∧
    (standardCatalog.verify twisted.network [.polylinesSameDirection]).toList = [⟨.polylinesSameDirection, [7]⟩] ∧
    ((twisted.repairAll (standardCatalog.verify twisted.network
      [.polylinesSameDirection])).1.network.lanelets.values.map (·.right)) =
        [[⟨0.0, -3.0⟩, ⟨10.0, -3.0⟩], [⟨0.0, 1.0⟩, ⟨10.0, 1.0⟩]] ∧
    ∃ c, Catalog.standard = .ok c ∧
      (c.verify (twisted.repairAll (c.verify twisted.network [.polylinesSameDirection])).1.network
        [.polylinesSameDirection]).isEmpty = true := by
  have hempty : RoadMap.empty.Counted := by
    intro x id hid
    obtain ⟨kind, k⟩ := x
    cases kind <;> cases hid
  have hrepresentable : twisted.network.Representable :=
    ⟨by decide +kernel, by decide +kernel, by decide +kernel, by decide +kernel⟩
  refine ⟨by decide +kernel, by decide +kernel, by decide +kernel, ?_⟩
  exact repairAll_effective twisted (by decide +kernel) (by decide +kernel) hrepresentable
    (RoadMap.counted_add (RoadMap.counted_add hempty _) _) (by decide +kernel) (by decide) (by decide)

end RoadRules
