/-
Repairs that find nothing to do.

A repair of a rule at a location where the rule is not broken leaves the map as it is and says so, with one exception:
a plate for a speed limit without any value is in order for its rule, which asks for values above zero, but the repair
of the rule drops the plate.

- `editEach_unchanged_iff`: edits one after the other change nothing if none of them does.
- `fixAll_unchanged_iff`: decisions about the elements with an id change nothing if they keep all of them.
- `complete_unchanged`, `breakTwoWayLinks_unchanged`: links that are in order stay as they are.
- `repair_of_not_violates`: what a repair asks of the elements with an id is what its rule says of them.
- `repair_idle_iff`: the exception included.
-/
import RoadRules.Proofs.Repair.Attaching
import RoadRules.Proofs.Repair.Dangling
import RoadRules.Proofs.Repair.Linking
import RoadRules.Proofs.Repair.Separating
import RoadRules.Proofs.Rule.Plain

namespace RoadRules

/-! ## Edits that change nothing -/

namespace Network

variable {n : Network}

/-- Edits that never change anything without saying so: together they change nothing if each of them, at the start,
changes nothing. -/
theorem editEach_unchanged_iff {ι : Type} {edit : Network → ι → Edited}
    (honest : ∀ a i, (edit a i).changed = false → (edit a i).network = a) (items : List ι) :
    n.editEach items edit = .unchanged n ↔ ∀ i ∈ items, edit n i = .unchanged n := by
  induction items with
  | nil => exact iff_of_true rfl fun _ hi => absurd hi List.not_mem_nil
  | cons i items ih =>
    rw [editEach_cons, List.forall_mem_cons, ← ih]
    constructor
    · intro h
      have hchanged := congrArg Edited.changed h
      simp only [Edited.andThen, Edited.unchanged, Bool.or_eq_false_iff] at hchanged
      have hsame := honest n i hchanged.1
      have hfirst : edit n i = .unchanged n := by
        rw [Edited.unchanged, ← hchanged.1]
        exact congrArg (Edited.mk · (edit n i).changed) hsame
      rw [hfirst] at h
      exact ⟨hfirst, by simpa only [Edited.andThen, Edited.unchanged, Bool.false_or] using h⟩
    · rintro ⟨hfirst, hrest⟩
      simp [hfirst, hrest, Edited.andThen, Edited.unchanged]

theorem editEach_unchanged {ι : Type} {edit : Network → ι → Edited} {items : List ι}
    (h : ∀ i ∈ items, edit n i = .unchanged n) : n.editEach items edit = .unchanged n := by
  induction items with
  | nil => rfl
  | cons i items ih =>
    rw [editEach_cons, h i List.mem_cons_self]
    simp [Edited.andThen, Edited.unchanged, ih fun j hj => h j (List.mem_cons_of_mem _ hj)]

theorem fixOne_unchanged_iff {kind : Kind} {key : Nat} {fix : Element → Fix Element} :
    n.fixOne kind key fix = .unchanged n ↔ ∀ e, n.element? ⟨kind, key⟩ = some e → fix e = .keep := by
  simp only [fixOne, apply]
  cases n.element? ⟨kind, key⟩ with
  | none => simp
  | some e => cases hfix : fix e <;> simp [hfix, Edited.unchanged]

theorem fixOne_honest {kind : Kind} {key : Nat} {fix : Element → Fix Element}
    (h : (n.fixOne kind key fix).changed = false) : (n.fixOne kind key fix).network = n := by
  simp only [fixOne, apply] at h ⊢
  cases he : n.element? ⟨kind, key⟩ with
  | none => rfl
  | some e =>
    rw [he] at h
    cases hfix : fix e with
    | keep => simp only [hfix]; rfl
    | change e' => simp [hfix] at h
    | remove => simp [hfix] at h

/-- **Decisions that change nothing** keep all elements with the id. -/
theorem fixAll_unchanged_iff {kind : Kind} {id : ElementId} {fix : Network → Element → Fix Element} :
    n.fixAll kind id fix = .unchanged n ↔
      ∀ key e, n.element? ⟨kind, key⟩ = some e → e.id = id → fix n e = .keep := by
  rw [fixAll, editEach_unchanged_iff fun a key => fixOne_honest]
  simp only [fixOne_unchanged_iff, mem_keysWithId]
  constructor
  · intro h key e he hid
    exact h key (hid ▸ idOf?_of_element? he) e he
  · intro h key hkey e he
    exact h key e he (Option.some.inj ((idOf?_of_element? he).symm.trans hkey))

/-- decisions about elements that `mk` makes, under the keys of a store -/
theorem fixAll_unchanged_of_view {α : Type} {mk : α → Element} {kind : Kind} {store : Store α}
    (view : ∀ {x a}, n.element? x = some (mk a) ↔ ∃ k, x = ⟨kind, k⟩ ∧ store.get? k = some a)
    {id : ElementId} {d : Network → α → Fix α} {f : Network → Element → Fix Element} (hf : Fix.Extends mk kind d f) :
    n.fixAll kind id f = .unchanged n ↔ ∀ a ∈ store.values, (mk a).id = id → d n a = .keep := by
  rw [fixAll_unchanged_iff]
  constructor
  · intro h a ha hid
    obtain ⟨k, hk⟩ := Store.mem_values.1 ha
    exact hf.eq_keep_iff.1 (h k _ (view.2 ⟨k, rfl, hk⟩) hid)
  · intro h key e he hid
    obtain ⟨a, rfl⟩ := (hf.makes.kind_iff e).1 (kind_of_element? he)
    obtain ⟨k, -, hk⟩ := view.1 he
    exact hf.eq_keep_iff.2 (h a (Store.mem_values.2 ⟨k, hk⟩) hid)

theorem fixLanelets_unchanged_iff {id : ElementId} {fix : Network → Lanelet → Fix Lanelet} :
    n.fixLanelets id fix = .unchanged n ↔ ∀ l ∈ n.lanelets.values, l.id = id → fix n l = .keep := by
  rw [fixLanelets_eq]
  exact fixAll_unchanged_of_view element?_eq_lanelet (.lanelet fix)

theorem fixTrafficSigns_unchanged_iff {id : ElementId} {fix : TrafficSign → Fix TrafficSign} :
    n.fixTrafficSigns id fix = .unchanged n ↔ ∀ s ∈ n.trafficSigns.values, s.id = id → fix s = .keep := by
  rw [fixTrafficSigns_eq]
  exact fixAll_unchanged_of_view element?_eq_trafficSign (.trafficSign fix)

theorem fixTrafficLights_unchanged_iff {id : ElementId} {fix : TrafficLight → Fix TrafficLight} :
    n.fixTrafficLights id fix = .unchanged n ↔ ∀ t ∈ n.trafficLights.values, t.id = id → fix t = .keep := by
  rw [fixTrafficLights_eq]
  exact fixAll_unchanged_of_view element?_eq_trafficLight (.trafficLight fix)

theorem fixIntersections_unchanged_iff {id : ElementId} {fix : Network → Intersection → Fix Intersection} :
    n.fixIntersections id fix = .unchanged n ↔ ∀ i ∈ n.intersections.values, i.id = id → fix n i = .keep := by
  rw [fixIntersections_eq]
  exact fixAll_unchanged_of_view element?_eq_intersection (.intersection fix)

end Network

/-! ## Where a rule is not broken -/

namespace RoadMap

variable {m : RoadMap} {id : ElementId}

/-- an edit that leaves the map as it is, and says so -/
theorem edited_eq_self_iff {e : Edited} : m.edited e = (m, false) ↔ e = .unchanged m.network := by
  constructor
  · intro h
    exact Edited.mk.injEq .. ▸ ⟨congrArg (·.1.network) h, congrArg Prod.snd h⟩
  · rintro rfl
    rfl

/-- a decision about lanelets that keeps what is not wrong -/
theorem idle_lanelet (fix : Network → Lanelet → Fix Lanelet) {wrong : Lanelet → Prop}
    (hkeep : ∀ l, ¬ wrong l → fix m.network l = .keep) (h : ¬ m.network.SomeLanelet wrong [id]) :
    m.edited (m.network.fixLanelets id fix) = (m, false) :=
  edited_eq_self_iff.2 (Network.fixLanelets_unchanged_iff.2 fun l hl hid =>
    hkeep l fun hw => h ⟨l, hl, hw, by rw [hid]⟩)

theorem idle_trafficSign (fix : TrafficSign → Fix TrafficSign) {wrong : TrafficSign → Prop}
    (hkeep : ∀ s, ¬ wrong s → fix s = .keep) (h : ¬ m.network.SomeSign wrong [id]) :
    m.edited (m.network.fixTrafficSigns id fix) = (m, false) :=
  edited_eq_self_iff.2 (Network.fixTrafficSigns_unchanged_iff.2 fun s hs hid =>
    hkeep s fun hw => h ⟨s, hs, hw, by rw [hid]⟩)

theorem idle_trafficLight (fix : TrafficLight → Fix TrafficLight) {wrong : TrafficLight → Prop}
    (hkeep : ∀ t, ¬ wrong t → fix t = .keep) (h : ¬ m.network.SomeLight wrong [id]) :
    m.edited (m.network.fixTrafficLights id fix) = (m, false) :=
  edited_eq_self_iff.2 (Network.fixTrafficLights_unchanged_iff.2 fun t ht hid =>
    hkeep t fun hw => h ⟨t, ht, hw, by rw [hid]⟩)

theorem idle_intersection (fix : Network → Intersection → Fix Intersection) {wrong : Intersection → Prop}
    (hkeep : ∀ i, ¬ wrong i → fix m.network i = .keep) (h : ¬ m.network.SomeIntersection wrong [id]) :
    m.edited (m.network.fixIntersections id fix) = (m, false) :=
  edited_eq_self_iff.2 (Network.fixIntersections_unchanged_iff.2 fun i hi hid =>
    hkeep i fun hw => h ⟨i, hi, hw, by rw [hid]⟩)

end RoadMap

namespace Network

theorem resolves_of_not_missing {n : Network} {kind : Kind} {id : ElementId} (h : ¬ n.Missing kind id) :
    n.resolves kind id = true :=
  by_contra fun hno => h (missing_iff.2 hno)

end Network

namespace RuleId

open RoadMap Network

variable {r : RuleId} {m : RoadMap} {id : ElementId}

theorem idle_border (hr : r ∈ [sameVerticesSize, verticesMoreThanOne, polylinesSameDirection, leftSelfIntersection,
    rightSelfIntersection]) (h : ¬ r.BrokenAt m.network [id]) : r.repairAt m id [] = (m, false) := by
  have loop : ∀ line : List Point, ¬ Polyline.CrossesItself Vec2.crossing? line →
      Polyline.cutFirstLoop Vec2.crossing? line = none := by
    intro line hline
    rw [← Polyline.firstCrossing_isSome (i := 0), Option.not_isSome_iff_eq_none] at hline
    rw [Polyline.cutFirstLoop, hline]
  fin_cases hr
  · exact idle_lanelet _ (fun l hl => Lanelet.fixVertexCounts_eq_keep_iff.2 (not_not.1 hl)) h
  · refine idle_lanelet _ (fun l hl => Lanelet.fixDegenerate_eq_keep_iff.2 ?_) h
    omega
  · refine idle_lanelet _ (fun l hl => Lanelet.fixDirection_eq_keep_iff.2 ?_) h
    rintro ⟨a, b, z, ha, hb, hz, hlt⟩
    refine hl ⟨a, b, z, ha, hb, hz, fun hle => ?_⟩
    -- the left border cannot start both farther from the start of the right one and no farther
    rcases Double.le_iff.1 hle with hlt' | heq
    · exact Double.lt_asymm hlt hlt'
    · rw [Double.not_beq_of_lt hlt] at heq
      cases heq
  · refine idle_lanelet _ (fun l hl => ?_) h
    simp only [Lanelet.fixLoop, loop _ hl]
  · refine idle_lanelet _ (fun l hl => ?_) h
    simp only [Lanelet.fixLoop, loop _ hl]

theorem idle_lanelet_refs (hr : r ∈ [existenceLeftAdj, existenceRightAdj, existencePredecessor, existenceSuccessor,
    existenceTrafficSigns, existenceTrafficLights, existenceStopLineTrafficSigns, existenceStopLineTrafficLights,
    includedStopLineTrafficSigns]) (h : ¬ r.BrokenAt m.network [id]) : r.repairAt m id [] = (m, false) := by
  -- what a decision drops from a set is missing
  have dropped (kind : Kind) (get : Lanelet → IdSet) (put : Lanelet → IdSet → Lanelet)
      (h : ¬ m.network.SomeLanelet (fun l => ∃ i ∈ get l, m.network.Missing kind i) [id]) :
      m.edited (m.network.dropFrom id kind get put) = (m, false) :=
    idle_lanelet (Lanelet.fixReferences kind get put) (fun l hl => Lanelet.fixReferences_eq_keep_iff.2
      fun i hi => resolves_of_not_missing fun hmissing => hl ⟨i, hi, hmissing⟩) h
  have noted (get : StopLine → IdSet) {stop : Option StopLine} {i : ElementId} (hi : i ∈ (stop.map get).getD ∅) :
      ∃ s ∈ stop, i ∈ get s := by
    cases stop with
    | none => exact absurd hi (SortedSet.not_mem_empty i)
    | some s => exact ⟨s, rfl, hi⟩
  fin_cases hr
  · exact idle_lanelet (Lanelet.fixNeighbour .left) (fun l hl => Lanelet.fixNeighbour_eq_keep_iff.2
      fun a ha => resolves_of_not_missing fun hmissing => hl ⟨a, ha, hmissing⟩) h
  · exact idle_lanelet (Lanelet.fixNeighbour .right) (fun l hl => Lanelet.fixNeighbour_eq_keep_iff.2
      fun a ha => resolves_of_not_missing fun hmissing => hl ⟨a, ha, hmissing⟩) h
  · exact dropped _ _ _ h
  · exact dropped _ _ _ h
  · exact dropped _ _ _ h
  · exact dropped _ _ _ h
  · refine dropped _ _ _ fun ⟨l, hl, ⟨i, hi, hmissing⟩, hloc⟩ => h ⟨l, hl, ?_, hloc⟩
    obtain ⟨stop, hs, hi⟩ := noted (·.trafficSigns) hi
    exact ⟨stop, hs, i, hi, hmissing⟩
  · refine dropped _ _ _ fun ⟨l, hl, ⟨i, hi, hmissing⟩, hloc⟩ => h ⟨l, hl, ?_, hloc⟩
    obtain ⟨stop, hs, hi⟩ := noted (·.trafficLights) hi
    exact ⟨stop, hs, i, hi, hmissing⟩
  · refine idle_lanelet (fun _ => Lanelet.fixStopLineSigns) (fun l hl => ?_) h
    refine Lanelet.fixStopLineSigns_eq_keep_iff.2 fun stop hs i hi => ?_
    by_contra hno
    exact hl ⟨stop, hs, i, hi, hno⟩

theorem idle_plates (hr : r ∈ [atLeastOneTrafficSignElement, givenAdditionalValue])
    (h : ¬ r.BrokenAt m.network [id]) : r.repairAt m id [] = (m, false) := by
  fin_cases hr
  · exact idle_trafficSign _ (fun s hs => TrafficSign.fixEmpty_eq_keep_iff.2 hs) h
  · exact idle_trafficSign _ (fun s hs => TrafficSign.fixMissingValues_eq_keep_iff.2
      fun p hp hneeds hnone => hs ⟨p, hp, hneeds, hnone⟩) h

theorem idle_cycle (hr : r ∈ [atLeastOneCycleElement, nonZeroDuration, uniqueStateInCycle])
    (h : ¬ r.BrokenAt m.network [id]) : r.repairAt m id [] = (m, false) := by
  fin_cases hr
  · exact idle_trafficLight _ (fun t ht => TrafficLight.fixEmpty_eq_keep_iff.2 ht) h
  · exact idle_trafficLight _ (fun t ht => TrafficLight.fixDurations_eq_keep_iff.2
      fun c hc => UInt32.pos_iff_ne_zero.2 fun hzero => ht ⟨c, hc, hzero⟩) h
  · exact idle_trafficLight _ (fun t ht => TrafficLight.fixRepeatedPhases_eq_keep_iff.2 (not_not.1 ht)) h

theorem idle_groups (hr : r ∈ [atLeastTwoIncomingElements, existenceIncomingLanelets, existenceSuccessorLanelets,
    atLeastOneRoadConnection, existenceCrossings]) (h : ¬ r.BrokenAt m.network [id]) :
    r.repairAt m id [] = (m, false) := by
  fin_cases hr
  · exact idle_intersection _ (fun i hi => Intersection.fixUnderfull_eq_keep_iff.2 (Nat.not_lt.1 hi)) h
  · exact idle_intersection (fun n i => i.fixIncomings n) (fun i hi => Intersection.fixIncomings_eq_keep_iff.2
      fun g hg ref href => resolves_of_not_missing fun hmissing => hi ⟨g, hg, ref, href, hmissing⟩) h
  · refine idle_intersection (fun n i => i.fixGroupSuccessors n) (fun i hi => ?_) h
    refine Intersection.fixGroupSuccessors_eq_keep_iff.2 fun g hg ref href => ?_
    refine resolves_of_not_missing fun hmissing => hi ⟨g, hg, ref, ?_, hmissing⟩
    simpa only [IncomingGroup.successors, List.mem_append, SortedSet.mem_toList, or_assoc] using href
  · refine idle_intersection (fun n i => i.fixConnections n) (fun i hi => ?_) h
    refine Intersection.fixConnections_eq_keep_iff.2 fun g hg hnil => ?_
    simp only [IncomingGroup.successors, List.append_eq_nil_iff] at hnil
    exact hi ⟨g, hg, List.isEmpty_iff.2 hnil.1.1, List.isEmpty_iff.2 hnil.1.2, List.isEmpty_iff.2 hnil.2⟩
  · exact idle_intersection (fun n i => i.fixCrossings n) (fun i hi => Intersection.fixCrossings_eq_keep_iff.2
      fun ref href => resolves_of_not_missing fun hmissing => hi ⟨ref, href, hmissing⟩) h

end RuleId

/-! ### Ids, links and references back -/

namespace Network

variable {n : Network} {id : ElementId}

/-- an id that no two elements share -/
theorem tail_handlesWithId (h : ∀ x y, n.idOf? x = some id → n.idOf? y = some id → x = y) :
    (n.handlesWithId id).tail = [] := by
  have hnodup := nodup_handlesWithId n id
  have hborne : ∀ x ∈ n.handlesWithId id, n.idOf? x = some id := fun x hx => mem_handlesWithId.1 hx
  match hhandles : n.handlesWithId id with
  | [] | [_] => rfl
  | x :: y :: rest =>
    rw [hhandles] at hnodup hborne
    have hxy : x = y := h x y (hborne x (by simp)) (hborne y (by simp))
    exact absurd (hxy ▸ List.mem_cons_self) (List.nodup_cons.1 hnodup).1

/-- links that are all answered are not completed -/
theorem complete_unchanged (there back : Lanelet → IdSet) {edit : Network → Nat → Nat → Edited}
    (hedit : ∀ key other, (∀ k, n.lanelets.get? other = some k → id ∈ back k) → edit n key other = .unchanged n)
    (h : ∀ l ∈ n.lanelets.values, l.id = id → ∀ k ∈ n.lanelets.values, k.id ∈ there l → id ∈ back k) :
    n.complete there edit id = .unchanged n := by
  refine editEach_unchanged fun key hkey => editEach_unchanged fun other hother => hedit key other fun k hk => ?_
  obtain ⟨l, hl, hid⟩ := lanelet_of_idOf? (bears_iff.1 hkey)
  rw [hl, Option.map_some, Option.getD_some] at hother
  obtain ⟨o, ho, hother⟩ := List.mem_flatMap.1 hother
  obtain ⟨k', hk', hko⟩ := lanelet_of_idOf? (bears_iff.1 hother)
  cases hk.symm.trans hk'
  exact h l (Store.mem_values.2 ⟨key, hl⟩) hid k (Store.mem_values.2 ⟨other, hk⟩) (hko ▸ ho)

theorem completeForth_unchanged {key other : Nat} (h : ∀ k, n.lanelets.get? other = some k → id ∈ k.successors) :
    n.completeForth id key other = .unchanged n := by
  refine if_neg fun hany => ?_
  cases hk : n.lanelets.get? other with
  | none => simp [hk] at hany
  | some k => simp [hk, SortedSet.contains_iff.2 (h k hk)] at hany

theorem completeBack_unchanged {key other : Nat} (h : ∀ k, n.lanelets.get? other = some k → id ∈ k.predecessors) :
    n.completeBack id key other = .unchanged n := by
  refine if_neg fun hany => ?_
  cases hk : n.lanelets.get? other with
  | none => simp [hk] at hany
  | some k => simp [hk, SortedSet.contains_iff.2 (h k hk)] at hany

/-- without a link in both directions none is broken -/
theorem breakTwoWayLinks_unchanged {other : ElementId}
    (h : ∀ l ∈ n.lanelets.values, l.id = id → ¬ (other ∈ l.predecessors ∧ other ∈ l.successors)) :
    n.breakTwoWayLinks id other = .unchanged n := by
  refine editEach_unchanged fun key hkey => if_neg fun hany => ?_
  obtain ⟨l, hl, hid⟩ := lanelet_of_idOf? (bears_iff.1 hkey)
  rw [hl] at hany
  exact h l (Store.mem_values.2 ⟨key, hl⟩) hid (by simpa using hany)

end Network

namespace RuleId

open RoadMap Network

variable {r : RuleId} {m : RoadMap} {id : ElementId}

/-- the ids of a choice for the one outer variable of a rule -/
theorem ids_of_one {n : Network} {var : String} {d : Domain} {kind : Kind} {b : List Handle}
    (hvars : r.standardBindings = [⟨var, d⟩]) (hd : NetworkIndex.kind? d = some kind)
    (hb : b ∈ Catalog.bindings n.view r.standardEntry) :
    ∃ x id, x.kind = kind ∧ n.idOf? x = some id ∧ b.filterMap n.idOf? = [id] := by
  have hchoices : Catalog.bindings n.view r.standardEntry = choices [n.view.index.domain d] := by
    show choices (r.standardBindings.map _) = _
    rw [hvars]
    rfl
  rw [hchoices, mem_choices_one] at hb
  obtain ⟨x, hx, rfl⟩ := hb
  obtain ⟨hkind, e, he⟩ := (mem_domain hd).1 hx
  exact ⟨x, e.id, hkind, idOf?_of_element? he, by rw [List.filterMap_cons_some (idOf?_of_element? he)]; rfl⟩

/-- the ids of a choice of two lanelets -/
theorem ids_of_two {n : Network} {b : List Handle}
    (hb : b ∈ Catalog.bindings n.view nonPredecessorAsSuccessor.standardEntry) :
    ∃ l ∈ n.lanelets.values, ∃ k ∈ n.lanelets.values, b.filterMap n.idOf? = [l.id, k.id] := by
  have hchoices : Catalog.bindings n.view nonPredecessorAsSuccessor.standardEntry =
    choices [n.view.index.domain .lanelets, n.view.index.domain .lanelets] := rfl
  rw [hchoices, mem_choices_two] at hb
  obtain ⟨x, hx, y, hy, rfl⟩ := hb
  obtain ⟨l, hl⟩ := mem_domain_lanelets.1 hx
  obtain ⟨k, hk⟩ := mem_domain_lanelets.1 hy
  obtain ⟨i, rfl, hi⟩ := element?_eq_lanelet.1 hl
  obtain ⟨j, rfl, hj⟩ := element?_eq_lanelet.1 hk
  refine ⟨l, Store.mem_values.2 ⟨i, hi⟩, k, Store.mem_values.2 ⟨j, hj⟩, ?_⟩
  rw [List.filterMap_cons_some (idOf?_of_lanelet hi), List.filterMap_cons_some (idOf?_of_lanelet hj)]
  rfl

theorem idle_shared {kind : Kind} {x : Handle} (hkind : x.kind = kind) (hx : m.network.idOf? x = some id)
    (h : ¬ m.network.SharedId kind [id]) : m.separateIds id = (m, false) := by
  have alone : ∀ y, m.network.idOf? y = some id → y = x := by
    intro y hy
    by_contra hne
    exact h ⟨x, y, id, hkind, hne, hx, hy, rfl⟩
  rw [separateIds, tail_handlesWithId fun y z hy hz => (alone y hy).trans (alone z hz).symm]
  rfl

theorem idle_connections (hr : r ∈ [connectionsPredecessor, connectionsSuccessor])
    (h : ¬ r.BrokenAt m.network [id]) : r.repairAt m id [] = (m, false) := by
  fin_cases hr
  · refine (repairAt_connectionsPredecessor m id []).trans (edited_eq_self_iff.2 ?_)
    refine complete_unchanged _ (·.successors) (fun _ _ => completeForth_unchanged) fun l hl hid k hk hlinked => ?_
    by_contra hno
    exact h ⟨l, hl, ⟨k, hk, hlinked, hid ▸ hno⟩, by rw [hid]⟩
  · refine (repairAt_connectionsSuccessor m id []).trans (edited_eq_self_iff.2 ?_)
    refine complete_unchanged _ (·.predecessors) (fun _ _ => completeBack_unchanged) fun l hl hid k hk hlinked => ?_
    by_contra hno
    exact h ⟨l, hl, ⟨k, hk, hlinked, hid ▸ hno⟩, by rw [hid]⟩

theorem idle_bothWays {k : Lanelet} (hk : k ∈ m.network.lanelets.values)
    (h : ¬ nonPredecessorAsSuccessor.BrokenAt m.network [id, k.id]) :
    nonPredecessorAsSuccessor.repairAt m id [k.id] = (m, false) :=
  edited_eq_self_iff.2 (breakTwoWayLinks_unchanged fun l hl hid hboth =>
    h ⟨l, hl, k, hk, hboth.1, hboth.2, by rw [hid]⟩)

theorem idle_unreferenced {kind : Kind} {x : Handle} {noted : Lanelet → Bool} {note : Lanelet → Lanelet}
    (hrepair : r.repairAt m id [] = m.edited (m.network.attach kind noted note id))
    (hfault : r.fault = .unreferenced kind fun l => (Element.lanelet l).refs kind)
    (hkind : x.kind = kind) (hx : m.network.idOf? x = some id) (h : ¬ m.network.Violates ⟨r, [id]⟩) :
    r.repairAt m id [] = (m, false) := by
  refine hrepair.trans (edited_eq_self_iff.2 (attach_unchanged ?_))
  by_contra hno
  refine h ⟨[x], ?_, by rw [List.filterMap_cons_some hx]; rfl⟩
  rw [hfault]
  refine Fault.at_unreferenced.2 ⟨x, id, rfl, hkind, hx, fun y l hl href => hno ⟨l, ?_, href⟩⟩
  obtain ⟨k, -, hk⟩ := element?_eq_lanelet.1 hl
  exact Store.mem_values.2 ⟨k, hk⟩

end RuleId

/-! ### Speed limits -/

/-- does a plate for a speed limit have no value? -/
def TrafficSign.HasBlankSpeed (s : TrafficSign) : Prop := ∃ p ∈ s.plates, isSpeedLimitCode p.code = true ∧ p.values = []

/-- of signs whose speed limits are above zero those without a blank one are kept -/
theorem TrafficSign.keeps_speeds_iff {s : TrafficSign}
    (h : ∀ p ∈ s.plates, isSpeedLimitCode p.code = true → ∀ v ∈ p.values, 0.0 < v) :
    s.fixSpeedValues = .keep ↔ ¬ s.HasBlankSpeed := by
  rw [fixSpeedValues_eq_keep_iff]
  constructor
  · rintro hall ⟨p, hp, hcode, hnone⟩
    exact (hall p hp hcode).1 hnone
  · exact fun hblank p hp hcode => ⟨fun hnone => hblank ⟨p, hp, hcode, hnone⟩, h p hp hcode⟩

namespace RuleId

open RoadMap Network

variable {r : RuleId} {m : RoadMap} {id : ElementId}

theorem idle_speed_iff (h : ¬ validAdditionalValueSpeedSign.BrokenAt m.network [id]) :
    validAdditionalValueSpeedSign.repairAt m id [] = (m, false) ↔
      ¬ m.network.SomeSign TrafficSign.HasBlankSpeed [id] := by
  have positive : ∀ s ∈ m.network.trafficSigns.values, s.id = id → ∀ p ∈ s.plates,
      isSpeedLimitCode p.code = true → ∀ v ∈ p.values, 0.0 < v := by
    intro s hs hid p hp hcode v hv
    by_contra hno
    exact h ⟨s, hs, ⟨p, hp, hcode, v, hv, hno⟩, by rw [hid]⟩
  refine edited_eq_self_iff.trans (fixTrafficSigns_unchanged_iff.trans ?_)
  constructor
  · rintro hkeep ⟨s, hs, hblank, hloc⟩
    have hid : s.id = id := (List.cons.inj hloc).1.symm
    exact (TrafficSign.keeps_speeds_iff (positive s hs hid)).1 (hkeep s hs hid) hblank
  · intro hnone s hs hid
    exact (TrafficSign.keeps_speeds_iff (positive s hs hid)).2 fun hblank =>
      hnone ⟨s, hs, hblank, by rw [hid]⟩

/-! ## The rules -/

/-- at the ids of a choice where a rule is not broken its repair finds nothing to do -/
theorem repair_of_not_violates (hn : m.network.Representable) {b : List Handle}
    (hb : b ∈ Catalog.bindings m.network.view r.standardEntry)
    (hnot : ¬ m.network.Violates ⟨r, b.filterMap m.network.idOf?⟩) (hr : r ≠ validAdditionalValueSpeedSign) :
    m.repair ⟨r, b.filterMap m.network.idOf?⟩ = (m, false) := by
  have h : ¬ r.BrokenAt m.network (b.filterMap m.network.idOf?) := fun hbroken =>
    hnot ((violates_iff_brokenAt hn ⟨r, _⟩).2 hbroken)
  cases r
  case validAdditionalValueSpeedSign => exact absurd rfl hr
  case uniqueIdLa | uniqueIdTs | uniqueIdTl | uniqueIdIn =>
    obtain ⟨x, id, hkind, hx, hloc⟩ := ids_of_one rfl rfl hb
    rw [hloc] at h ⊢
    exact idle_shared hkind hx h
  case nonPredecessorAsSuccessor =>
    obtain ⟨l, -, k, hk, hloc⟩ := ids_of_two hb
    rw [hloc] at h ⊢
    exact idle_bothWays hk h
  case referencedTrafficSign =>
    obtain ⟨x, id, hkind, hx, hloc⟩ := ids_of_one rfl rfl hb
    rw [hloc] at hnot ⊢
    exact idle_unreferenced (repairAt_referencedTrafficSign m id []) rfl hkind hx hnot
  case referencedTrafficLight =>
    obtain ⟨x, id, hkind, hx, hloc⟩ := ids_of_one rfl rfl hb
    rw [hloc] at hnot ⊢
    exact idle_unreferenced (repairAt_referencedTrafficLight m id []) rfl hkind hx hnot
  case sameVerticesSize | verticesMoreThanOne | polylinesSameDirection | leftSelfIntersection
    | rightSelfIntersection =>
    obtain ⟨x, id, -, -, hloc⟩ := ids_of_one rfl rfl hb
    rw [hloc] at h ⊢
    exact idle_border (by decide) h
  case existenceLeftAdj | existenceRightAdj | existencePredecessor | existenceSuccessor | existenceTrafficSigns
    | existenceTrafficLights | existenceStopLineTrafficSigns | existenceStopLineTrafficLights
    | includedStopLineTrafficSigns =>
    obtain ⟨x, id, -, -, hloc⟩ := ids_of_one rfl rfl hb
    rw [hloc] at h ⊢
    exact idle_lanelet_refs (by decide) h
  case connectionsPredecessor | connectionsSuccessor =>
    obtain ⟨x, id, -, -, hloc⟩ := ids_of_one rfl rfl hb
    rw [hloc] at h ⊢
    exact idle_connections (by decide) h
  case atLeastOneTrafficSignElement | givenAdditionalValue =>
    obtain ⟨x, id, -, -, hloc⟩ := ids_of_one rfl rfl hb
    rw [hloc] at h ⊢
    exact idle_plates (by decide) h
  case atLeastOneCycleElement | nonZeroDuration | uniqueStateInCycle =>
    obtain ⟨x, id, -, -, hloc⟩ := ids_of_one rfl rfl hb
    rw [hloc] at h ⊢
    exact idle_cycle (by decide) h
  case atLeastTwoIncomingElements | existenceIncomingLanelets | existenceSuccessorLanelets
    | atLeastOneRoadConnection | existenceCrossings =>
    obtain ⟨x, id, -, -, hloc⟩ := ids_of_one rfl rfl hb
    rw [hloc] at h ⊢
    exact idle_groups (by decide) h

end RuleId

/-- **Repairs that find nothing to do.** Where a check reports nothing for a choice of elements, the repair of the rule
at their ids leaves the map as it is and says so, unless the rule is the one about the values of speed limits and a sign
with the id has a plate for a speed limit without any value. -/
theorem RoadMap.repair_idle_iff (m : RoadMap) (hn : m.network.Representable) : ∃ c, Catalog.standard = .ok c ∧
    ∀ r e, c.entry? r = some e → ∀ b ∈ Catalog.bindings m.network.view e,
      ¬ ⟨r, b.filterMap m.network.idOf?⟩ ∈ c.verify m.network [r] →
      (m.repair ⟨r, b.filterMap m.network.idOf?⟩ = (m, false) ↔
        ¬ (r = .validAdditionalValueSpeedSign ∧
          m.network.SomeSign TrafficSign.HasBlankSpeed (b.filterMap m.network.idOf?))) := by
  refine ⟨standardCatalog, Catalog.standard_eq, fun r e he b hb hnot => ?_⟩
  cases (Catalog.entry?_standard r).symm.trans he
  have hsound : ¬ m.network.Violates ⟨r, b.filterMap m.network.idOf?⟩ := fun h =>
    hnot (Violations.mem_verify.2 ⟨List.mem_singleton_self r, h⟩)
  by_cases hr : r = .validAdditionalValueSpeedSign
  · subst hr
    obtain ⟨x, id, -, -, hloc⟩ := RuleId.ids_of_one rfl rfl hb
    rw [hloc] at hsound ⊢
    rw [and_iff_right rfl]
    exact RuleId.idle_speed_iff fun h => hsound ((Network.violates_iff_brokenAt hn ⟨_, [id]⟩).2 h)
  · exact iff_of_true (RuleId.repair_of_not_violates hn hb hsound hr) fun h => hr h.1

/-- a sign with a speed limit of 50, and another one whose speed limit has no value -/
def RoadMap.limits : RoadMap := RoadMap.ofDocument
  { trafficSigns := [{ id := 5, plates := [⟨"274", [50.0]⟩] }, { id := 6, plates := [⟨"274", []⟩] }] }

/-- the first of the two signs is left alone -/
theorem RoadMap.repair_idle_iff_limits : limits.network.Representable ∧ ∃ c e, Catalog.standard = .ok c ∧
    c.entry? .validAdditionalValueSpeedSign = some e ∧ [⟨.trafficSign, 0⟩] ∈ Catalog.bindings limits.network.view e ∧
    ¬ ⟨.validAdditionalValueSpeedSign, [5]⟩ ∈ c.verify limits.network [.validAdditionalValueSpeedSign] ∧
    limits.repair ⟨.validAdditionalValueSpeedSign, [5]⟩ = (limits, false) := by
  have hn : limits.network.Representable :=
    ⟨by decide +kernel, by decide +kernel, by decide +kernel, by decide +kernel⟩
  have hmem : [⟨.trafficSign, 0⟩] ∈ Catalog.bindings limits.network.view
      RuleId.validAdditionalValueSpeedSign.standardEntry := by decide +kernel
  have hnot : ¬ ⟨.validAdditionalValueSpeedSign, [5]⟩ ∈
      (standardCatalog.verify limits.network [.validAdditionalValueSpeedSign]).toList := by decide +kernel
  have hblank : ¬ ∃ s ∈ limits.network.trafficSigns.values,
      (∃ p ∈ s.plates, isSpeedLimitCode p.code = true ∧ p.values = []) ∧ [5] = [s.id] := by decide +kernel
  obtain ⟨c, hc, h⟩ := repair_idle_iff limits hn
  cases Catalog.standard_eq.symm.trans hc
  exact ⟨hn, _, _, hc, rfl, hmem, hnot, (h _ _ rfl _ hmem hnot).2 fun hspeed => hblank hspeed.2⟩

/-- A speed limit without a value is not reported, but the repair of the rule drops the plate. -/
theorem RoadMap.repair_drops_blank_limit : ∃ m, m = RoadMap.ofDocument
      { trafficSigns := [{ id := 5, plates := [⟨"274", []⟩] }] } ∧
    ∃ c e, Catalog.standard = .ok c ∧ c.entry? .validAdditionalValueSpeedSign = some e ∧
      (Catalog.bindings m.network.view e).map (·.filterMap m.network.idOf?) = [[5]] ∧
      (c.verify m.network [.validAdditionalValueSpeedSign]).toList = [] ∧
      (m.repair ⟨.validAdditionalValueSpeedSign, [5]⟩).2 = true ∧
      (m.repair ⟨.validAdditionalValueSpeedSign, [5]⟩).1.network.trafficSigns.values.map (·.plates) = [[]] :=
  ⟨_, rfl, standardCatalog, _, Catalog.standard_eq, rfl, by decide +kernel, by decide +kernel, by decide +kernel,
    by decide +kernel⟩

end RoadRules
