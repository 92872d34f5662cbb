/-
What repairs settle for good.

A repair settles something at its location which no other repair of the same rule unsettles, and after which it finds
nothing to do (`RuleId.Settles`).

- `Settles.repairEach`: after a run over any list of locations all of them are settled, by induction on the list.
- `Settles.repairEach_idle`: a run over settled locations finds nothing to do.
- `Keeps.settles`: decisions that keep what they have changed settle the elements that they are about.
- `settles_border` to `settles_groups`: the rules that are repaired by such decisions.
-/
import RoadRules.Proofs.Repair.Dangling
import RoadRules.Proofs.Repair.Idle
import RoadRules.Proofs.Repair.Remedies

namespace RoadRules

/-! ## Runs over locations -/

namespace RuleId

/-- Under an invariant that it keeps, the repair of the rule at some ids gets something done there that no repair of the
rule undoes, and finds nothing to do where that is done. -/
structure Settles (r : RuleId) (Inv : RoadMap → Prop) (Done : ElementId → List ElementId → RoadMap → Prop) : Prop where
  inv : ∀ m id rest, Inv m → Inv (r.repairAt m id rest).1
  done : ∀ m id rest, Inv m → Done id rest (r.repairAt m id rest).1
  stays : ∀ m id rest id' rest', Inv m → Done id' rest' m → Done id' rest' (r.repairAt m id rest).1
  idle : ∀ m id rest, Done id rest m → r.repairAt m id rest = (m, false)

namespace Settles

variable {r : RuleId} {Inv : RoadMap → Prop} {Done : ElementId → List ElementId → RoadMap → Prop}

/-- is the location settled? Without an id there is nothing to settle. -/
def At (Done : ElementId → List ElementId → RoadMap → Prop) (m : RoadMap) : Location → Prop
  | [] => True
  | id :: rest => Done id rest m

theorem repair (h : r.Settles Inv Done) (m : RoadMap) (hm : Inv m) (l : Location) :
    Inv (m.repair ⟨r, l⟩).1 ∧ At Done (m.repair ⟨r, l⟩).1 l ∧
      ∀ l', At Done m l' → At Done (m.repair ⟨r, l⟩).1 l' := by
  cases l with
  | nil => exact ⟨hm, trivial, fun l' hl' => hl'⟩
  | cons id rest =>
    refine ⟨h.inv m id rest hm, h.done m id rest hm, fun l' hl' => ?_⟩
    cases l' with
    | nil => exact trivial
    | cons id' rest' => exact h.stays m id rest id' rest' hm hl'

/-- **Runs.** All locations of a run are settled after it, and so are those that were before. -/
theorem repairEach (h : r.Settles Inv Done) (ls : List Location) (m : RoadMap) (hm : Inv m) :
    ∀ l, l ∈ ls ∨ At Done m l → At Done (m.repairEach (ls.map (Violation.mk r))).1 l := by
  induction ls generalizing m with
  | nil => exact fun l hl => hl.resolve_left List.not_mem_nil
  | cons l ls ih =>
    obtain ⟨hinv, hdone, hstays⟩ := h.repair m hm l
    intro l' hl'
    refine ih _ hinv l' ?_
    rcases hl' with hl' | hl'
    · rcases List.mem_cons.1 hl' with rfl | hl'
      · exact Or.inr hdone
      · exact Or.inl hl'
    · exact Or.inr (hstays l' hl')

/-- at settled locations a run finds nothing to do -/
theorem repairEach_idle (h : r.Settles Inv Done) (ls : List Location) (m : RoadMap) (hls : ∀ l ∈ ls, At Done m l) :
    m.repairEach (ls.map (Violation.mk r)) = (m, ls.map fun _ => (r, false)) := by
  induction ls with
  | nil => rfl
  | cons l ls ih =>
    have hfirst : m.repair ⟨r, l⟩ = (m, false) := by
      cases l with
      | nil => rfl
      | cons id rest => exact h.idle m id rest (hls _ List.mem_cons_self)
    rw [List.map_cons, RoadMap.repairEach, hfirst]
    simp only [ih fun l' hl' => hls l' (List.mem_cons_of_mem _ hl'), List.map_cons]

end Settles

end RuleId

/-! ## Decisions that keep what they have changed -/

/-- a decision that keeps what it has changed, and goes on to keep what it keeps -/
abbrev Keeps {α : Type} (mk : α → Element) (kind : Kind) (fix : Network → α → Fix α) : Prop :=
  Remedy mk kind fix (fun n a => fix n a = .keep) fun _ => True

namespace Keeps

variable {α : Type} {mk : α → Element} {kind : Kind} {fix : Network → α → Fix α}

/-- a decision without removals, which looks only at the element -/
theorem ofElement {fix : α → Fix α} (hchange : ∀ a a', fix a = .change a' → (mk a').id = (mk a).id ∧ fix a' = .keep)
    (hremove : ∀ a, fix a ≠ .remove) : Keeps mk kind fun _ => fix where
  steady _ _ _ _ h := h
  keep _ _ _ h := h
  change _ a a' _ h := ⟨(hchange a a' h).1, trivial, (hchange a a' h).2⟩
  removal _ a h := absurd h (hremove a)

/-- a cure, if what it does not keep is just what was wrong -/
theorem ofRemedy {good : Network → α → Prop} (h : Remedy mk kind fix good fun _ => True)
    (hkeep : ∀ n a, fix n a = .keep ↔ good n a) : Keeps mk kind fix := by
  obtain rfl : good = fun n a => fix n a = .keep := funext₂ fun n a => propext (hkeep n a).symm
  exact h

end Keeps

/-- does the repair of the rule settle something, whatever the map? -/
def RuleId.SettlesAlways (r : RuleId) : Prop := ∃ Done, r.Settles (fun _ => True) Done

/-- what is left after a repair by decision: nothing that it would not keep -/
theorem Keeps.settles {α : Type} {mk : α → Element} {kind : Kind} {fix : Network → α → Fix α}
    (h : Keeps mk kind fix) {r : RuleId} (hr : r.DecidesBy mk kind fix) : r.SettlesAlways := by
  obtain ⟨f, hf, hrepair⟩ := hr
  have hheals := h.heals hf
  have hall : ∀ n : Network, n.AllSound fun e => ∀ a, e = mk a → True := fun _ _ _ _ _ _ => trivial
  refine ⟨fun id _ m => ∀ x a, m.network.element? x = some (mk a) → (mk a).id = id → fix m.network a = .keep,
    fun _ _ _ _ => trivial, fun m id rest _ x a hx hid => ?_, fun m id rest id' rest' _ hdone x a hx hid => ?_,
    fun m id rest hdone => ?_⟩
  · rw [hrepair] at hx ⊢
    obtain ⟨-, hheeds, hsettled⟩ := hheals.fixAll (hall m.network) id
    by_contra hno
    obtain ⟨e, he, heid, -⟩ := hheeds x _ hx ⟨a, rfl, hno⟩
    obtain ⟨xkind, key⟩ := x
    obtain rfl : xkind = kind := (Network.kind_of_element? hx).symm.trans ((hf.makes.kind_iff _).2 ⟨a, rfl⟩)
    have hkey : key ∈ m.network.keysWithId xkind id := Network.mem_keysWithId.2 (by
      rw [Network.idOf?_of_element? he, heid, hid])
    exact hsettled key hkey _ hx ⟨a, rfl, hno⟩
  · rw [hrepair] at hx ⊢
    obtain ⟨-, hheeds, -⟩ := hheals.fixAll (hall m.network) id
    by_contra hno
    obtain ⟨_, he, heid, b, rfl, hb⟩ := hheeds x _ hx ⟨a, rfl, hno⟩
    exact hb (hdone x b he (heid.trans hid))
  · rw [hrepair, RoadMap.edited_eq_self_iff, Network.fixAll_unchanged_iff]
    intro key e he hid
    obtain ⟨a, rfl⟩ := (hf.makes.kind_iff e).1 (Network.kind_of_element? he)
    exact hf.eq_keep_iff.2 (hdone _ a he hid)

/-! ### Lanelets -/

namespace Keeps

theorem vertexCounts : Keeps .lanelet .lanelet fun _ l => l.fixVertexCounts where
  steady _ _ _ _ h := h
  keep _ _ _ h := h
  change _ _ _ _ hfix := ⟨(Lanelet.redrawn_of_fixVertexCounts hfix).id, trivial,
    Lanelet.fixVertexCounts_eq_keep_iff.2 (Lanelet.length_of_fixVertexCounts hfix)⟩
  removal _ _ _ _ _ l := by
    refine ⟨id, fun id => ⟨l.forgetLanelet id, rfl, fun h => ?_, fun h => h⟩⟩
    have hcounts : l.left.length = l.right.length := Lanelet.fixVertexCounts_eq_keep_iff.1 h
    exact Lanelet.fixVertexCounts_eq_keep_iff.2 hcounts

theorem degenerate : Keeps .lanelet .lanelet fun _ l => l.fixDegenerate where
  steady _ _ _ _ h := h
  keep _ _ _ h := h
  change _ _ _ _ hfix := absurd hfix Lanelet.fixDegenerate_ne_change
  removal _ _ _ _ _ l := ⟨id, fun id => ⟨l.forgetLanelet id, rfl, fun h => h, fun h => h⟩⟩

theorem direction : Keeps .lanelet .lanelet fun _ l => l.fixDirection :=
  .ofElement (fun _ _ hfix => ⟨(Lanelet.redrawn_of_fixDirection hfix).id,
    Lanelet.fixDirection_eq_keep_iff.2 (Lanelet.not_turned_of_fixDirection hfix)⟩)
    fun _ => Lanelet.fixDirection_ne_remove

theorem neighbour (side : Side) : Keeps .lanelet .lanelet fun n l => l.fixNeighbour side n := by
  refine .ofRemedy (.neighbour side) fun n l => Lanelet.fixNeighbour_eq_keep_iff.trans ?_
  cases l.neighbour side <;> simp

/-- dropping the ids that lead nowhere from one set of a lanelet -/
theorem references (kind : Kind) (get : Lanelet → IdSet) (put : Lanelet → IdSet → Lanelet)
    (hid : ∀ l ids, (put l ids).id = l.id) (hget : ∀ l ids, ∀ ref ∈ get (put l ids), ref ∈ ids) :
    Keeps .lanelet .lanelet fun n l => l.fixReferences kind get put n :=
  .ofRemedy (.references kind get put hid hget) fun _ _ => Lanelet.fixReferences_eq_keep_iff

theorem includedSigns : Keeps .lanelet .lanelet fun _ l => l.fixStopLineSigns := by
  refine .ofElement (fun l l' hfix => ?_) fun _ => Lanelet.fixStopLineSigns_ne_remove
  obtain ⟨hid, hincluded⟩ := Lanelet.included_of_fixStopLineSigns hfix
  exact ⟨hid, Lanelet.fixStopLineSigns_eq_keep_iff.2 hincluded⟩

/-! ### Signs and lights -/

theorem emptySigns : Keeps .trafficSign .trafficSign fun _ s => s.fixEmpty where
  steady _ _ _ _ h := h
  keep _ _ _ h := h
  change _ _ _ _ hfix := absurd hfix TrafficSign.fixEmpty_ne_change
  removal _ _ _ _ _ s := ⟨id, fun _ => ⟨s, rfl, fun h => h, fun h => h⟩⟩

theorem missingValues : Keeps .trafficSign .trafficSign fun _ s => s.fixMissingValues :=
  .ofElement (fun _ _ hfix => ⟨TrafficSign.id_of_fixMissingValues hfix,
    TrafficSign.fixMissingValues_eq_keep_iff.2 (TrafficSign.fixMissingValues_change hfix).2⟩)
    fun _ => TrafficSign.fixMissingValues_ne_remove

theorem speedValues : Keeps .trafficSign .trafficSign fun _ s => s.fixSpeedValues :=
  .ofElement (fun _ _ hfix => ⟨TrafficSign.id_of_fixSpeedValues hfix,
    TrafficSign.fixSpeedValues_eq_keep_iff.2 (TrafficSign.fixSpeedValues_change hfix).2⟩)
    fun _ => TrafficSign.fixSpeedValues_ne_remove

theorem emptyCycles : Keeps .trafficLight .trafficLight fun _ t => t.fixEmpty := by
  refine .ofElement (fun t t' hfix => ?_) fun _ => TrafficLight.fixEmpty_ne_remove
  rw [TrafficLight.fixEmpty_change hfix]
  exact ⟨rfl, rfl⟩

theorem durations : Keeps .trafficLight .trafficLight fun _ t => t.fixDurations :=
  .ofElement (fun _ _ hfix => ⟨TrafficLight.id_of_fixDurations hfix,
    TrafficLight.fixDurations_eq_keep_iff.2 (TrafficLight.fixDurations_change hfix).2⟩)
    fun _ => TrafficLight.fixDurations_ne_remove

theorem repeatedPhases : Keeps .trafficLight .trafficLight fun _ t => t.fixRepeatedPhases :=
  .ofElement (fun _ _ hfix => ⟨TrafficLight.id_of_fixRepeatedPhases hfix,
    TrafficLight.fixRepeatedPhases_eq_keep_iff.2 (TrafficLight.fixRepeatedPhases_change hfix).2⟩)
    fun _ => TrafficLight.fixRepeatedPhases_ne_remove

/-! ### Intersections -/

theorem underfull : Keeps .intersection .intersection fun _ i => i.fixUnderfull where
  steady _ _ _ _ h := h
  keep _ _ _ h := h
  change _ _ _ _ hfix := absurd hfix Intersection.fixUnderfull_ne_change
  removal _ _ _ _ _ i := ⟨id, fun _ => ⟨i, rfl, fun h => h, fun h => h⟩⟩

theorem incomings : Keeps .intersection .intersection fun n i => i.fixIncomings n :=
  .ofRemedy .incomings fun _ _ => Intersection.fixIncomings_eq_keep_iff.trans List.forall_mem_flatMap.symm

theorem groupSuccessors : Keeps .intersection .intersection fun n i => i.fixGroupSuccessors n :=
  .ofRemedy .groupSuccessors fun _ _ => Intersection.fixGroupSuccessors_eq_keep_iff.trans List.forall_mem_flatMap.symm

/-- what follows a group counts only if the group leads nowhere -/
theorem connections : Keeps .intersection .intersection fun n i => i.fixConnections n where
  steady _ _ _ _ hfix := Intersection.fixConnections_eq_keep_iff.2 (Intersection.fixConnections_eq_keep_iff.1 hfix)
  keep _ _ _ h := h
  change n i i' _ hfix := by
    obtain ⟨groups, rfl, hgroups⟩ := Intersection.fixConnections_change hfix
    exact ⟨rfl, trivial, Intersection.fixConnections_eq_keep_iff.2 fun g hg => (hgroups g hg).1⟩
  removal _ _ hfix := absurd hfix Intersection.fixConnections_ne_remove

theorem crossings : Keeps .intersection .intersection fun n i => i.fixCrossings n :=
  .ofRemedy .crossings fun _ _ => Intersection.fixCrossings_eq_keep_iff

end Keeps

/-! ### The rules repaired by decision -/

namespace RuleId

theorem settles_border {r : RuleId} (hr : r ∈ [sameVerticesSize, verticesMoreThanOne, polylinesSameDirection]) :
    r.SettlesAlways := by
  fin_cases hr
  · exact Keeps.vertexCounts.settles (.ofLanelets _ fun _ _ _ => rfl)
  · exact Keeps.degenerate.settles (.ofLanelets _ fun _ _ _ => rfl)
  · exact Keeps.direction.settles (.ofLanelets _ fun _ _ _ => rfl)

theorem settles_adjacent {r : RuleId} (hr : r ∈ [existenceLeftAdj, existenceRightAdj]) : r.SettlesAlways := by
  fin_cases hr
  · exact (Keeps.neighbour .left).settles (.ofDropAdjacency _ fun _ _ _ => rfl)
  · exact (Keeps.neighbour .right).settles (.ofDropAdjacency _ fun _ _ _ => rfl)

/-- dropping the ids that lead nowhere from one set of a lanelet -/
theorem settles_dropFrom {r : RuleId} (kind : Kind) (get : Lanelet → IdSet) (put : Lanelet → IdSet → Lanelet)
    (hrepair : ∀ (m : RoadMap) id rest, r.repairAt m id rest = m.edited (m.network.dropFrom id kind get put))
    (hid : ∀ l ids, (put l ids).id = l.id) (hget : ∀ l ids, ∀ ref ∈ get (put l ids), ref ∈ ids) : r.SettlesAlways :=
  (Keeps.references kind get put hid hget).settles (.ofDropFrom kind get put hrepair)

theorem settles_links {r : RuleId} (hr : r ∈ [existencePredecessor, existenceSuccessor, existenceTrafficSigns,
    existenceTrafficLights]) : r.SettlesAlways := by
  fin_cases hr
  all_goals
    exact settles_dropFrom _ _ _ (fun _ _ _ => rfl) (fun _ _ => rfl) fun _ _ _ href => href

theorem settles_stopLine {r : RuleId} (hr : r ∈ [existenceStopLineTrafficSigns, existenceStopLineTrafficLights,
    includedStopLineTrafficSigns]) : r.SettlesAlways := by
  fin_cases hr
  · refine settles_dropFrom _ _ _ (fun _ _ _ => rfl) (fun _ _ => rfl) fun l ids ref href => ?_
    cases hstop : l.stopLine with
    | none =>
      simp only [hstop, Option.map_none, Option.getD_none] at href
      exact absurd href (SortedSet.not_mem_empty ref)
    | some stop => simpa [hstop] using href
  · refine settles_dropFrom _ _ _ (fun _ _ _ => rfl) (fun _ _ => rfl) fun l ids ref href => ?_
    cases hstop : l.stopLine with
    | none =>
      simp only [hstop, Option.map_none, Option.getD_none] at href
      exact absurd href (SortedSet.not_mem_empty ref)
    | some stop => simpa [hstop] using href
  · exact Keeps.includedSigns.settles (.ofLanelets _ fun _ _ _ => rfl)

theorem settles_plates {r : RuleId} (hr : r ∈ [atLeastOneTrafficSignElement, givenAdditionalValue,
    validAdditionalValueSpeedSign]) : r.SettlesAlways := by
  fin_cases hr
  · exact Keeps.emptySigns.settles (.ofTrafficSigns _ fun _ _ _ => rfl)
  · exact Keeps.missingValues.settles (.ofTrafficSigns _ fun _ _ _ => rfl)
  · exact Keeps.speedValues.settles (.ofTrafficSigns _ fun _ _ _ => rfl)

theorem settles_phases {r : RuleId} (hr : r ∈ [atLeastOneCycleElement, nonZeroDuration, uniqueStateInCycle]) :
    r.SettlesAlways := by
  fin_cases hr
  · exact Keeps.emptyCycles.settles (.ofTrafficLights _ fun _ _ _ => rfl)
  · exact Keeps.durations.settles (.ofTrafficLights _ fun _ _ _ => rfl)
  · exact Keeps.repeatedPhases.settles (.ofTrafficLights _ fun _ _ _ => rfl)

theorem settles_groups {r : RuleId} (hr : r ∈ [atLeastTwoIncomingElements, existenceIncomingLanelets,
    existenceSuccessorLanelets, atLeastOneRoadConnection, existenceCrossings]) : r.SettlesAlways := by
  fin_cases hr
  · exact Keeps.underfull.settles (.ofIntersections _ fun _ _ _ => rfl)
  · exact Keeps.incomings.settles (.ofIntersections _ fun _ _ _ => rfl)
  · exact Keeps.groupSuccessors.settles (.ofIntersections _ fun _ _ _ => rfl)
  · exact Keeps.connections.settles (.ofIntersections _ fun _ _ _ => rfl)
  · exact Keeps.crossings.settles (.ofIntersections _ fun _ _ _ => rfl)

end RuleId

end RoadRules
