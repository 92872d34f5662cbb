/-
References that lead nowhere are dropped.

A decision that leaves only references that resolve cures the rule that forbids the others (`Remedy.ofReferences`),
since no edit that keeps all ids can make a reference dangle.

- `cured_adjacent`, `cured_links`, `cured_stopLine`: what lanelets refer to.
- `cured_incomings`, `cured_groupSuccessors`, `cured_crossings`: what intersections refer to.
-/
import RoadRules.Proofs.Repair.Cure

namespace RoadRules

/-- A decision without removals that keeps what has only references that resolve, and leaves no others. -/
theorem Remedy.ofReferences {α : Type} {mk : α → Element} {kind : Kind} {fix : Network → α → Fix α} (refKind : Kind)
    (refs : α → List ElementId)
    (hkeep : ∀ n a, fix n a = .keep → ∀ ref ∈ refs a, n.resolves refKind ref = true)
    (hchange : ∀ n a a', fix n a = .change a' →
      (mk a').id = (mk a).id ∧ ∀ ref ∈ refs a', n.resolves refKind ref = true)
    (hremove : ∀ n a, fix n a ≠ .remove) :
    Remedy mk kind fix (fun n a => ∀ ref ∈ refs a, n.resolves refKind ref = true) fun _ => True where
  steady n n' a hresolves hgood := by
    intro ref href
    rw [hresolves]
    exact hgood ref href
  keep n a _ hfix := hkeep n a hfix
  change n a a' _ hfix := by
    obtain ⟨hid, hgood⟩ := hchange n a a' hfix
    exact ⟨hid, trivial, hgood⟩
  removal n a hfix := absurd hfix (hremove n a)

/-! ## Lanelets -/

namespace Remedy

open Network

theorem neighbour (side : Side) : Remedy .lanelet .lanelet (fun n l => l.fixNeighbour side n)
    (fun n l => ∀ ref ∈ ((l.neighbour side).map (·.id)).toList, n.resolves .lanelet ref = true) fun _ => True := by
  refine .ofReferences .lanelet _ (fun n l h ref href => ?_) (fun n l l' h => ?_) fun n l => l.fixNeighbour_ne_remove
  · obtain ⟨a, ha, rfl⟩ := Option.map_eq_some_iff.1 (Option.mem_toList.1 href)
    exact Lanelet.fixNeighbour_eq_keep_iff.1 h a ha
  · rw [Lanelet.fixNeighbour_change h, Lanelet.neighbour_dropNeighbour]
    exact ⟨by cases side <;> rfl, fun ref href => absurd href List.not_mem_nil⟩

/-- dropping the ids that lead nowhere from one set of a lanelet -/
theorem references (kind : Kind) (get : Lanelet → IdSet) (put : Lanelet → IdSet → Lanelet)
    (hid : ∀ l ids, (put l ids).id = l.id) (hget : ∀ l ids, ∀ ref ∈ get (put l ids), ref ∈ ids) :
    Remedy .lanelet .lanelet (fun n l => l.fixReferences kind get put n)
      (fun n l => ∀ ref ∈ (get l).toList, n.resolves kind ref = true) fun _ => True := by
  refine .ofReferences kind _ (fun n l h => Lanelet.fixReferences_eq_keep_iff.1 h) (fun n l l' h => ?_)
    fun n l => Lanelet.fixReferences_ne_remove
  rw [Lanelet.fixReferences_change h]
  exact ⟨hid l _, fun ref href => (mem_resolving_iff.1 (hget l _ ref href)).2⟩

end Remedy

namespace RuleId

open Network

theorem cured_adjacent {r : RuleId} (hr : r ∈ [existenceLeftAdj, existenceRightAdj]) :
    r.Cured (RoadMap.Sound .lanelet fun _ => True) := by
  fin_cases hr
  · exact (Remedy.neighbour .left).cured (.ofDropAdjacency _ fun _ _ _ => rfl) fun _ _ => Fault.at_missingFrom
  · exact (Remedy.neighbour .right).cured (.ofDropAdjacency _ fun _ _ _ => rfl) fun _ _ => Fault.at_missingFrom

/-- the rule about one set of a lanelet -/
theorem cured_dropFrom {r : RuleId} (kind : Kind) (get : Lanelet → IdSet) (put : Lanelet → IdSet → Lanelet)
    (hrepair : ∀ (m : RoadMap) id rest, r.repairAt m id rest = m.edited (m.network.dropFrom id kind get put))
    (hid : ∀ l ids, (put l ids).id = l.id) (hget : ∀ l ids, ∀ ref ∈ get (put l ids), ref ∈ ids)
    (hfault : r.fault = .missingFrom kind fun l => (get l).toList) :
    r.Cured (RoadMap.Sound .lanelet fun _ => True) :=
  (Remedy.references kind get put hid hget).cured (.ofDropFrom kind get put hrepair) fun _ _ => by
    rw [hfault, Fault.at_missingFrom]

theorem cured_links {r : RuleId} (hr : r ∈ [existencePredecessor, existenceSuccessor, existenceTrafficSigns,
    existenceTrafficLights]) : r.Cured (RoadMap.Sound .lanelet fun _ => True) := by
  fin_cases hr
  all_goals
    exact cured_dropFrom _ _ _ (fun _ _ _ => rfl) (fun _ _ => rfl) (fun _ _ _ href => href) rfl

theorem cured_stopLine {r : RuleId} (hr : r ∈ [existenceStopLineTrafficSigns, existenceStopLineTrafficLights]) :
    r.Cured (RoadMap.Sound .lanelet fun _ => True) := by
  have dropped (get : StopLine → IdSet) (put : StopLine → StopLine) {ids : IdSet} (hput : ∀ s, get (put s) = ids)
      (stop : Option StopLine) : ∀ ref ∈ ((stop.map put).map get).getD ∅, ref ∈ ids := by
    intro ref href
    cases stop with
    | none => exact absurd href (SortedSet.not_mem_empty ref)
    | some s => exact hput s ▸ href
  have listed (get : StopLine → IdSet) (stop : Option StopLine) :
      (stop.map fun s => (get s).toList).getD [] = ((stop.map get).getD ∅).toList := by
    cases stop <;> rfl
  fin_cases hr
  · refine cured_dropFrom _ _ _ (fun _ _ _ => rfl) (fun _ _ => rfl) (fun l ids => ?_) ?_
    · exact dropped (·.trafficSigns) ({ · with trafficSigns := ids }) (fun _ => rfl) l.stopLine
    · exact congrArg (Fault.missingFrom _) (funext fun l => listed _ l.stopLine)
  · refine cured_dropFrom _ _ _ (fun _ _ _ => rfl) (fun _ _ => rfl) (fun l ids => ?_) ?_
    · exact dropped (·.trafficLights) ({ · with trafficLights := ids }) (fun _ => rfl) l.stopLine
    · exact congrArg (Fault.missingFrom _) (funext fun l => listed _ l.stopLine)

end RuleId

/-! ## Intersections -/

namespace Remedy

open Network

theorem incomings : Remedy .intersection .intersection (fun n i => i.fixIncomings n)
    (fun n i => ∀ ref ∈ i.incomings.flatMap (·.lanelets.toList), n.resolves .lanelet ref = true) fun _ => True := by
  refine .ofReferences .lanelet _ (fun n i h => ?_) (fun n i i' h => ?_) fun n i => Intersection.fixIncomings_ne_remove
  · exact List.forall_mem_flatMap.2 (Intersection.fixIncomings_eq_keep_iff.1 h)
  · obtain ⟨groups, rfl, hgroups⟩ := Intersection.fixIncomings_change h
    refine ⟨rfl, List.forall_mem_flatMap.2 fun g' hg' ref href => ?_⟩
    obtain ⟨g, -, rfl⟩ := hgroups g' hg'
    exact (mem_resolving_iff.1 href).2

theorem groupSuccessors : Remedy .intersection .intersection (fun n i => i.fixGroupSuccessors n)
    (fun n i => ∀ ref ∈ i.incomings.flatMap (·.successors), n.resolves .lanelet ref = true) fun _ => True := by
  refine .ofReferences .lanelet _ (fun n i h => ?_) (fun n i i' h => ?_)
    fun n i => Intersection.fixGroupSuccessors_ne_remove
  · exact List.forall_mem_flatMap.2 (Intersection.fixGroupSuccessors_eq_keep_iff.1 h)
  · rw [Intersection.fixGroupSuccessors_change h]
    refine ⟨rfl, List.forall_mem_flatMap.2 fun g' hg' ref href => ?_⟩
    obtain ⟨g, -, rfl⟩ := List.mem_map.1 hg'
    simp only [IncomingGroup.successors, List.mem_append] at href
    rcases href with (href | href) | href <;> exact (mem_resolving_iff.1 href).2

theorem crossings : Remedy .intersection .intersection (fun n i => i.fixCrossings n)
    (fun n i => ∀ ref ∈ i.crossings.toList, n.resolves .lanelet ref = true) fun _ => True := by
  refine .ofReferences .lanelet _ (fun n i h => Intersection.fixCrossings_eq_keep_iff.1 h) (fun n i i' h => ?_)
    fun n i => Intersection.fixCrossings_ne_remove
  rw [Intersection.fixCrossings_change h]
  exact ⟨rfl, fun ref href => (mem_resolving_iff.1 href).2⟩

end Remedy

namespace RuleId

theorem cured_incomings : existenceIncomingLanelets.Cured (RoadMap.Sound .intersection fun _ => True) :=
  Remedy.incomings.cured (.ofIntersections _ fun _ _ _ => rfl) fun _ _ => Fault.at_missingAt

theorem cured_groupSuccessors : existenceSuccessorLanelets.Cured (RoadMap.Sound .intersection fun _ => True) :=
  Remedy.groupSuccessors.cured (.ofIntersections _ fun _ _ _ => rfl) fun _ _ => Fault.at_missingAt

theorem cured_crossings : existenceCrossings.Cured (RoadMap.Sound .intersection fun _ => True) :=
  Remedy.crossings.cured (.ofIntersections _ fun _ _ _ => rfl) fun _ _ => Fault.at_missingAt

end RuleId

end RoadRules
