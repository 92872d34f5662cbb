/-
Rules that are cured element by element.

- `vertexCounts`, `degenerate`, `direction`, `includedSigns`: the borders of lanelets and the signs of stop lines.
- `emptySigns`, `missingValues`, `speedValues`: the plates of signs.
- `emptyCycles`, `durations`, `repeatedPhases`: the cycles of lights.
- `underfull`, `connections`: the incoming groups of intersections.

Where a count is compared with a constant, the lists have to be ones that a formula can count (`FitsCount`). The
direction of borders needs distances that are numbers.
-/
import RoadRules.Proofs.Repair.Cure
import RoadRules.Proofs.Rule.Wellformed

namespace RoadRules

/-! ## Lanelets -/

namespace Polyline

theorem length_sample (total : Float) (count next left : Nat) (start : Float) (a b : Point) (rest : List Point) :
    (sample total count next left start a b rest).length = left := by
  induction left generalizing next start a b rest with
  | zero => rfl
  | succ left ih =>
    rw [sample]
    exact congrArg (· + 1) (ih ..)

/-- a line of at least one point is resampled to as many points as are asked for -/
theorem length_resample {line : List Point} (hline : line ≠ []) (count : Nat) :
    (resample line count).length = count := by
  match line, hline with
  | [p], _ => exact List.length_replicate
  | a :: b :: rest, _ =>
    rw [resample]
    split_ifs with hcount
    · exact List.length_replicate
    · dsimp only
      split_ifs
      · exact List.length_replicate
      · rw [List.length_append, length_sample, List.length_singleton]
        omega

end Polyline

namespace Lanelet

@[simp] theorem left_recentred (l : Lanelet) : l.recentred.left = l.left := by
  unfold recentred
  split_ifs <;> rfl

@[simp] theorem right_recentred (l : Lanelet) : l.recentred.right = l.right := by
  unfold recentred
  split_ifs <;> rfl

/-- is the distance between any two points of the two borders a number? -/
def Measurable (l : Lanelet) : Prop := ∀ a ∈ l.left, ∀ b ∈ l.right, (a.distance b).isNaN = false

variable {l l' : Lanelet}

theorem Redrawn.id (h : l.Redrawn l') : l'.id = l.id := by
  obtain ⟨left, right, rfl⟩ := h
  exact id_recentred _

/-- a border that is resampled has at least two points, so that both get as many as the longer one had -/
theorem length_of_fixVertexCounts (h : l.fixVertexCounts = .change l') : l'.left.length = l'.right.length := by
  obtain ⟨-, hmin, rfl⟩ := fixVertexCounts_eq_change_iff.1 h
  obtain ⟨hleft, hright⟩ := le_min_iff.1 hmin
  have hleft : l.left ≠ [] := List.ne_nil_of_length_pos (Nat.zero_lt_of_lt hleft)
  have hright : l.right ≠ [] := List.ne_nil_of_length_pos (Nat.zero_lt_of_lt hright)
  simp [Polyline.length_resample hleft, Polyline.length_resample hright]

/-- first and last point of the right border have changed places -/
theorem not_turned_of_fixDirection (h : l.fixDirection = .change l') : ¬ l'.Turned := by
  obtain ⟨⟨a, b, z, ha, hb, hz, hlt⟩, rfl⟩ := fixDirection_eq_change_iff.1 h
  rintro ⟨a', b', z', ha', hb', hz', hlt'⟩
  rw [left_recentred, ha] at ha'
  rw [right_recentred, List.head?_reverse, hz] at hb'
  rw [right_recentred, List.getLast?_reverse, hb] at hz'
  cases ha'
  cases hb'
  cases hz'
  exact Double.lt_asymm hlt hlt'

theorem Measurable.hasAlignedBorders (h : l.Measurable) (hnot : ¬ l.Turned) : l.hasAlignedBorders = true := by
  refine hasAlignedBorders_of fun a b z ha hb hz => ?_
  have hleft := List.mem_of_head? ha
  have hlt : ¬ a.distance z < a.distance b := fun hlt => hnot ⟨a, b, z, ha, hb, hz, hlt⟩
  exact Double.lt_or_beq (h a hleft b (List.mem_of_head? hb)) (h a hleft z (List.mem_of_getLast? hz)) hlt

end Lanelet

namespace Remedy

theorem vertexCounts : Remedy .lanelet .lanelet (fun _ l => l.fixVertexCounts)
    (fun _ l => l.hasEvenBorders = true) fun _ => True where
  steady _ _ _ _ h := h
  keep n l _ hfix := by
    simp [Lanelet.hasEvenBorders, itemCount, Lanelet.fixVertexCounts_eq_keep_iff.1 hfix]
  change n l l' _ hfix := by
    refine ⟨(Lanelet.redrawn_of_fixVertexCounts hfix).id, trivial, ?_⟩
    simp [Lanelet.hasEvenBorders, itemCount, Lanelet.length_of_fixVertexCounts hfix]
  removal _ _ _ _ _ l := ⟨id, fun id => ⟨l.forgetLanelet id, rfl, fun h => h, fun h => h⟩⟩

theorem degenerate : Remedy .lanelet .lanelet (fun _ l => l.fixDegenerate)
    (fun _ l => l.hasBorders = true) Lanelet.FitsCounts where
  steady _ _ _ _ h := h
  keep _ _ hl hfix := (Lanelet.hasBorders_iff hl).2 (Lanelet.fixDegenerate_eq_keep_iff.1 hfix)
  change _ _ _ _ hfix := absurd hfix Lanelet.fixDegenerate_ne_change
  removal _ _ _ _ _ l := ⟨id, fun id => ⟨l.forgetLanelet id, rfl, fun h => h, fun h => h⟩⟩

theorem direction : Remedy .lanelet .lanelet (fun _ l => l.fixDirection)
    (fun _ l => l.hasAlignedBorders = true) Lanelet.Measurable where
  steady _ _ _ _ h := h
  keep _ _ hl hfix := hl.hasAlignedBorders (Lanelet.fixDirection_eq_keep_iff.1 hfix)
  change n l l' hl hfix := by
    have hmeasurable : l'.Measurable := by
      obtain ⟨-, rfl⟩ := Lanelet.fixDirection_eq_change_iff.1 hfix
      intro p hp q hq
      rw [Lanelet.left_recentred] at hp
      rw [Lanelet.right_recentred] at hq
      exact hl p hp q (List.mem_reverse.1 hq)
    refine ⟨(Lanelet.redrawn_of_fixDirection hfix).id, hmeasurable, ?_⟩
    exact hmeasurable.hasAlignedBorders (Lanelet.not_turned_of_fixDirection hfix)
  removal _ _ hfix := absurd hfix Lanelet.fixDirection_ne_remove

theorem includedSigns : Remedy .lanelet .lanelet (fun _ l => l.fixStopLineSigns)
    (fun _ l => l.includesStopLineSigns = true) fun _ => True where
  steady _ _ _ _ h := h
  keep _ _ _ hfix := Lanelet.includesStopLineSigns_iff.2 (Lanelet.fixStopLineSigns_eq_keep_iff.1 hfix)
  change n l l' _ hfix := by
    obtain ⟨hid, hincluded⟩ := Lanelet.included_of_fixStopLineSigns hfix
    exact ⟨hid, trivial, Lanelet.includesStopLineSigns_iff.2 hincluded⟩
  removal _ _ hfix := absurd hfix Lanelet.fixStopLineSigns_ne_remove

end Remedy

/-! ## Signs -/

namespace Remedy

theorem emptySigns : Remedy .trafficSign .trafficSign (fun _ s => s.fixEmpty)
    (fun _ s => s.hasPlates = true) TrafficSign.FitsCounts where
  steady _ _ _ _ h := h
  keep _ _ hs hfix := (TrafficSign.hasPlates_iff hs).2 (TrafficSign.fixEmpty_eq_keep_iff.1 hfix)
  change _ _ _ _ hfix := absurd hfix TrafficSign.fixEmpty_ne_change
  removal _ _ _ _ _ s := ⟨id, fun _ => ⟨s, rfl, fun h => h, fun h => h⟩⟩

theorem missingValues : Remedy .trafficSign .trafficSign (fun _ s => s.fixMissingValues)
    (fun _ s => s.hasValues = true) TrafficSign.FitsCounts where
  steady _ _ _ _ h := h
  keep _ _ hs hfix := (TrafficSign.hasValues_iff hs.2).2 (TrafficSign.fixMissingValues_eq_keep_iff.1 hfix)
  change n s s' hs hfix := by
    obtain ⟨⟨plates, hsub, rfl⟩, hcomplete⟩ := TrafficSign.fixMissingValues_change hfix
    have hvalues : ∀ p ∈ plates, FitsCount p.values := fun p hp => hs.2 p (hsub.subset hp)
    exact ⟨rfl, ⟨hs.1.sublist hsub, hvalues⟩, (TrafficSign.hasValues_iff hvalues).2 hcomplete⟩
  removal _ _ hfix := absurd hfix TrafficSign.fixMissingValues_ne_remove

theorem speedValues : Remedy .trafficSign .trafficSign (fun _ s => s.fixSpeedValues)
    (fun _ s => s.hasPositiveSpeeds = true) fun _ => True where
  steady _ _ _ _ h := h
  keep _ _ _ hfix := TrafficSign.hasPositiveSpeeds_iff.2 fun p hp hcode =>
    (TrafficSign.fixSpeedValues_eq_keep_iff.1 hfix p hp hcode).2
  change n s s' _ hfix := by
    refine ⟨TrafficSign.id_of_fixSpeedValues hfix, trivial, TrafficSign.hasPositiveSpeeds_iff.2 fun p hp hcode => ?_⟩
    exact ((TrafficSign.fixSpeedValues_change hfix).2 p hp hcode).2
  removal _ _ hfix := absurd hfix TrafficSign.fixSpeedValues_ne_remove

end Remedy

/-! ## Lights -/

namespace Remedy

theorem emptyCycles : Remedy .trafficLight .trafficLight (fun _ t => t.fixEmpty)
    (fun _ t => t.hasCycle = true) fun t => FitsCount t.cycle where
  steady _ _ _ _ h := h
  keep _ _ ht hfix := (TrafficLight.hasCycle_iff ht).2 (TrafficLight.fixEmpty_eq_keep_iff.1 hfix)
  change n t t' _ hfix := by
    rw [TrafficLight.fixEmpty_change hfix]
    have hcount : FitsCount defaultCycle := by
      unfold FitsCount
      decide
    exact ⟨rfl, hcount, rfl⟩
  removal _ _ hfix := absurd hfix TrafficLight.fixEmpty_ne_remove

theorem durations : Remedy .trafficLight .trafficLight (fun _ t => t.fixDurations)
    (fun _ t => t.hasLastingPhases = true) fun _ => True where
  steady _ _ _ _ h := h
  keep _ _ _ hfix := TrafficLight.hasLastingPhases_iff.2 (TrafficLight.fixDurations_eq_keep_iff.1 hfix)
  change _ _ _ _ hfix := ⟨TrafficLight.id_of_fixDurations hfix, trivial,
    TrafficLight.hasLastingPhases_iff.2 (TrafficLight.fixDurations_change hfix).2⟩
  removal _ _ hfix := absurd hfix TrafficLight.fixDurations_ne_remove

theorem repeatedPhases : Remedy .trafficLight .trafficLight (fun _ t => t.fixRepeatedPhases)
    (fun _ t => t.hasDistinctPhases = true) fun _ => True where
  steady _ _ _ _ h := h
  keep _ _ _ hfix := TrafficLight.hasDistinctPhases_of (TrafficLight.fixRepeatedPhases_eq_keep_iff.1 hfix)
  change _ _ _ _ hfix := ⟨TrafficLight.id_of_fixRepeatedPhases hfix, trivial,
    TrafficLight.hasDistinctPhases_of (TrafficLight.fixRepeatedPhases_change hfix).2⟩
  removal _ _ hfix := absurd hfix TrafficLight.fixRepeatedPhases_ne_remove

end Remedy

/-! ## Intersections -/

namespace Remedy

theorem underfull : Remedy .intersection .intersection (fun _ i => i.fixUnderfull)
    (fun _ i => i.hasIncomings = true) fun i => FitsCount i.incomings where
  steady _ _ _ _ h := h
  keep _ _ hi hfix := (Intersection.hasIncomings_iff hi).2 (Intersection.fixUnderfull_eq_keep_iff.1 hfix)
  change _ _ _ _ hfix := absurd hfix Intersection.fixUnderfull_ne_change
  removal _ _ _ _ _ i := ⟨id, fun _ => ⟨i, rfl, fun h => h, fun h => h⟩⟩

theorem connections : Remedy .intersection .intersection (fun n i => i.fixConnections n)
    (fun _ i => i.hasConnections = true) fun _ => True where
  steady _ _ _ _ h := h
  keep _ _ _ hfix := Intersection.hasConnections_iff.2 (Intersection.fixConnections_eq_keep_iff.1 hfix)
  change n i i' _ hfix := by
    obtain ⟨groups, rfl, hgroups⟩ := Intersection.fixConnections_change hfix
    exact ⟨rfl, trivial, Intersection.hasConnections_iff.2 fun g hg => (hgroups g hg).1⟩
  removal _ _ hfix := absurd hfix Intersection.fixConnections_ne_remove

end Remedy

/-! ## The rules -/

namespace RuleId

theorem cured_sameVerticesSize : sameVerticesSize.Cured (RoadMap.Sound .lanelet fun _ => True) :=
  Remedy.vertexCounts.cured (.ofLanelets _ fun _ _ _ => rfl) fun _ _ => Fault.at_ofLanelet

theorem cured_verticesMoreThanOne : verticesMoreThanOne.Cured (RoadMap.Sound .lanelet Lanelet.FitsCounts) :=
  Remedy.degenerate.cured (.ofLanelets _ fun _ _ _ => rfl) fun _ _ => Fault.at_ofLanelet

theorem cured_polylinesSameDirection : polylinesSameDirection.Cured (RoadMap.Sound .lanelet Lanelet.Measurable) :=
  Remedy.direction.cured (.ofLanelets _ fun _ _ _ => rfl) fun _ _ => Fault.at_ofLanelet

theorem cured_includedStopLineTrafficSigns :
    includedStopLineTrafficSigns.Cured (RoadMap.Sound .lanelet fun _ => True) :=
  Remedy.includedSigns.cured (.ofLanelets _ fun _ _ _ => rfl) fun _ _ => Fault.at_ofLanelet

theorem cured_plates {r : RuleId} (hr : r ∈ [atLeastOneTrafficSignElement, givenAdditionalValue]) :
    r.Cured (RoadMap.Sound .trafficSign TrafficSign.FitsCounts) := by
  fin_cases hr
  · exact Remedy.emptySigns.cured (.ofTrafficSigns _ fun _ _ _ => rfl) fun _ _ => Fault.at_ofSign
  · exact Remedy.missingValues.cured (.ofTrafficSigns _ fun _ _ _ => rfl) fun _ _ => Fault.at_ofSign

theorem cured_validAdditionalValueSpeedSign :
    validAdditionalValueSpeedSign.Cured (RoadMap.Sound .trafficSign fun _ => True) :=
  Remedy.speedValues.cured (.ofTrafficSigns _ fun _ _ _ => rfl) fun _ _ => Fault.at_ofSign

theorem cured_atLeastOneCycleElement :
    atLeastOneCycleElement.Cured (RoadMap.Sound .trafficLight fun t => FitsCount t.cycle) :=
  Remedy.emptyCycles.cured (.ofTrafficLights _ fun _ _ _ => rfl) fun _ _ => Fault.at_ofLight

theorem cured_phases {r : RuleId} (hr : r ∈ [nonZeroDuration, uniqueStateInCycle]) :
    r.Cured (RoadMap.Sound .trafficLight fun _ => True) := by
  fin_cases hr
  · exact Remedy.durations.cured (.ofTrafficLights _ fun _ _ _ => rfl) fun _ _ => Fault.at_ofLight
  · exact Remedy.repeatedPhases.cured (.ofTrafficLights _ fun _ _ _ => rfl) fun _ _ => Fault.at_ofLight

theorem cured_atLeastTwoIncomingElements :
    atLeastTwoIncomingElements.Cured (RoadMap.Sound .intersection fun i => FitsCount i.incomings) :=
  Remedy.underfull.cured (.ofIntersections _ fun _ _ _ => rfl) fun _ _ => Fault.at_ofIntersection

theorem cured_atLeastOneRoadConnection :
    atLeastOneRoadConnection.Cured (RoadMap.Sound .intersection fun _ => True) :=
  Remedy.connections.cured (.ofIntersections _ fun _ _ _ => rfl) fun _ _ => Fault.at_ofIntersection

end RuleId

end RoadRules
