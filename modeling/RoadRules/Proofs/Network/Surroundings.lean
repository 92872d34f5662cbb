/-
What the neighbourhood of some ids holds.

A scope surrounds some ids (`Surrounds`) if it holds the elements that bear them, what these are linked with or refer
to, what refers to them, and the signs, lights and intersections of all its lanelets. `surrounds_aroundAll`: the
neighbourhood taken for a check or a repair surrounds the ids it is taken for, whatever its radius.
-/
import RoadRules.Network.Neighbourhood
import RoadRules.Proofs.Network.Scoped

namespace RoadRules

namespace Network

/-! ## Lanelets within some steps -/

theorem mem_neighbours {n : Network} {keys : SortedSet Nat} {k : Nat} :
    k ∈ n.neighbours keys ↔ ∃ l, n.lanelets.get? k = some l ∧
      ∃ j m, j ∈ keys ∧ n.lanelets.get? j = some m ∧ l.touches m = true := by
  simp only [neighbours, SortedSet.mem_ofList, List.mem_map, List.mem_filter, List.any_eq_true, Prod.exists,
    SortedSet.contains_iff, ← Store.get?_eq_some_iff]
  constructor
  · rintro ⟨k, l, ⟨hk, m, ⟨j, m, ⟨hj, hm⟩, rfl⟩, ht⟩, rfl⟩; exact ⟨l, hk, j, m, hm, hj, ht⟩
  · rintro ⟨l, hk, j, m, hm, hj, ht⟩; exact ⟨k, l, ⟨hk, m, ⟨j, m, ⟨hj, hm⟩, rfl⟩, ht⟩, rfl⟩

theorem subset_ball (n : Network) (radius : Nat) {keys : SortedSet Nat} {k : Nat} (h : k ∈ keys) :
    k ∈ n.ball radius keys := by
  induction radius generalizing keys with
  | zero => exact h
  | succ radius ih =>
    unfold ball
    dsimp only
    split_ifs
    · exact h
    · exact ih (SortedSet.mem_union.2 (Or.inl h))

theorem neighbours_subset_ball (n : Network) {radius : Nat} (hr : 0 < radius) {keys : SortedSet Nat} {k : Nat}
    (h : k ∈ n.neighbours keys) : k ∈ n.ball radius keys := by
  obtain ⟨radius, rfl⟩ : ∃ r, radius = r + 1 := ⟨radius - 1, by omega⟩
  have hw : k ∈ keys.union (n.neighbours keys) := SortedSet.mem_union.2 (Or.inr h)
  unfold ball
  dsimp only
  split_ifs with he
  · exact he ▸ hw
  · exact n.subset_ball radius hw

/-! ## Neighbourhoods -/

theorem mem_laneletsWhere {n : Network} {p : Lanelet → Bool} {k : Nat} :
    k ∈ n.laneletsWhere p ↔ ∃ l, n.lanelets.get? k = some l ∧ p l = true := by
  simp [laneletsWhere, Store.get?_eq_some_iff]

/-- A scope that shows the elements with some ids and everything they have to do with. -/
structure Surrounds (n : Network) (s : Scope) (ids : List ElementId) : Prop where
  bearers : ∀ h id, id ∈ ids → n.idOf? h = some id → s.Has h
  links : ∀ {k l j m}, n.lanelets.get? k = some l → n.lanelets.get? j = some m → m.id ∈ ids → l.touches m = true →
    k ∈ s.lanelets
  signReferrers : ∀ {k t j l}, n.trafficSigns.get? k = some t → t.id ∈ ids → n.lanelets.get? j = some l →
    t.id ∈ l.trafficSignRefs → j ∈ s.lanelets
  lightReferrers : ∀ {k t j l}, n.trafficLights.get? k = some t → t.id ∈ ids → n.lanelets.get? j = some l →
    t.id ∈ l.trafficLightRefs → j ∈ s.lanelets
  intersectionLanelets : ∀ {k i j l}, n.intersections.get? k = some i → i.id ∈ ids → n.lanelets.get? j = some l →
    l.id ∈ i.lanelets → j ∈ s.lanelets
  nearestToSign : ∀ {k t p j}, n.trafficSigns.get? k = some t → t.id ∈ ids →
    (∀ i l, n.lanelets.get? i = some l → t.id ∉ l.trafficSignRefs) → t.position = some p →
    n.nearestLanelet? p attachDistance = some j → j ∈ s.lanelets
  nearestToLight : ∀ {k t p j}, n.trafficLights.get? k = some t → t.id ∈ ids →
    (∀ i l, n.lanelets.get? i = some l → t.id ∉ l.trafficLightRefs) → t.position = some p →
    n.nearestLanelet? p attachDistance = some j → j ∈ s.lanelets
  signs : ∀ {j l k t}, j ∈ s.lanelets → n.lanelets.get? j = some l → n.trafficSigns.get? k = some t →
    t.id ∈ l.trafficSignRefs → k ∈ s.trafficSigns
  lights : ∀ {j l k t}, j ∈ s.lanelets → n.lanelets.get? j = some l → n.trafficLights.get? k = some t →
    t.id ∈ l.trafficLightRefs → k ∈ s.trafficLights
  intersections : ∀ {j l k i}, j ∈ s.lanelets → n.lanelets.get? j = some l → n.intersections.get? k = some i →
    l.id ∈ i.lanelets → k ∈ s.intersections

section Around

variable (n : Network) (radius : Nat) (id : ElementId)

theorem mem_around_lanelets {k : Nat} :
    k ∈ (n.around radius id).lanelets ↔ k ∈ n.reached (max radius 1) id := by
  have hl : k ∈ (n.around radius id).lanelets ↔ (n.around radius id).Has ⟨.lanelet, k⟩ := Iff.rfl
  rw [hl, around, Scope.has_insertAll, mem_handlesWithId]
  constructor
  · rintro (hid | h)
    · refine SortedSet.mem_union.2 (Or.inl (n.subset_ball _ (SortedSet.mem_ofList.2 ?_)))
      obtain ⟨l, hl, hid⟩ := Option.map_eq_some_iff.1 hid
      exact mem_laneletsWithId.2 ⟨l, hl, hid⟩
    · exact h
  · exact Or.inr

theorem subset_around {h : Handle} (hs : (n.withFittings (n.reached (max radius 1) id)).Has h) :
    (n.around radius id).Has h :=
  Scope.has_insertAll.2 (Or.inr hs)

/-- a lanelet one step away from a sign, a light or an intersection with the id is reached -/
theorem reached_of_anchor {k : Nat} (h : k ∈ n.anchors id) : k ∈ (n.around radius id).lanelets :=
  (n.mem_around_lanelets radius id).2 (SortedSet.mem_union.2 (Or.inr (n.subset_ball _ (SortedSet.mem_ofList.2 h))))

theorem mem_anchors {k : Nat} : k ∈ n.anchors id ↔
    (∃ j t, n.trafficSigns.get? j = some t ∧ t.id = id ∧ k ∈ n.signLanelets t) ∨
      (∃ j t, n.trafficLights.get? j = some t ∧ t.id = id ∧ k ∈ n.lightLanelets t) ∨
      ∃ j i, n.intersections.get? j = some i ∧ i.id = id ∧ k ∈ n.intersectionLanelets i := by
  simp only [anchors, List.mem_append, List.mem_flatMap, List.mem_filter, beq_iff_eq, Store.mem_values, or_assoc]
  refine or_congr ?_ (or_congr ?_ ?_)
  all_goals
    constructor
    · rintro ⟨v, ⟨⟨j, hj⟩, hid⟩, hk⟩; exact ⟨j, v, hj, hid, hk⟩
    · rintro ⟨j, v, hj, hid, hk⟩; exact ⟨v, ⟨⟨j, hj⟩, hid⟩, hk⟩

theorem mem_signLanelets_of_ref {t : TrafficSign} {j : Nat} {l : Lanelet} (hl : n.lanelets.get? j = some l)
    (hr : t.id ∈ l.trafficSignRefs) : j ∈ n.signLanelets t := by
  have hm : j ∈ n.laneletsWhere (·.trafficSignRefs.contains t.id) := mem_laneletsWhere.2 ⟨l, hl, by simpa using hr⟩
  unfold signLanelets
  split
  · next h => rw [h] at hm; cases hm
  · exact hm

theorem mem_lightLanelets_of_ref {t : TrafficLight} {j : Nat} {l : Lanelet} (hl : n.lanelets.get? j = some l)
    (hr : t.id ∈ l.trafficLightRefs) : j ∈ n.lightLanelets t := by
  have hm : j ∈ n.laneletsWhere (·.trafficLightRefs.contains t.id) := mem_laneletsWhere.2 ⟨l, hl, by simpa using hr⟩
  unfold lightLanelets
  split
  · next h => rw [h] at hm; cases hm
  · exact hm

theorem signLanelets_of_unreferenced {t : TrafficSign} {p : Point}
    (hno : ∀ i l, n.lanelets.get? i = some l → t.id ∉ l.trafficSignRefs) (hp : t.position = some p) :
    n.signLanelets t = (n.nearestLanelet? p attachDistance).toList := by
  have hw : n.laneletsWhere (·.trafficSignRefs.contains t.id) = [] := by
    refine List.eq_nil_iff_forall_not_mem.2 fun i hi => ?_
    obtain ⟨l, hl, hc⟩ := mem_laneletsWhere.1 hi
    exact hno i l hl (by simpa using hc)
  simp only [signLanelets, hw, hp, Option.bind_some]

theorem lightLanelets_of_unreferenced {t : TrafficLight} {p : Point}
    (hno : ∀ i l, n.lanelets.get? i = some l → t.id ∉ l.trafficLightRefs) (hp : t.position = some p) :
    n.lightLanelets t = (n.nearestLanelet? p attachDistance).toList := by
  have hw : n.laneletsWhere (·.trafficLightRefs.contains t.id) = [] := by
    refine List.eq_nil_iff_forall_not_mem.2 fun i hi => ?_
    obtain ⟨l, hl, hc⟩ := mem_laneletsWhere.1 hi
    exact hno i l hl (by simpa using hc)
  simp only [lightLanelets, hw, hp, Option.bind_some]

theorem mem_fittings {α : Type} {s : Store α} {ls : SortedSet Nat} {p : Lanelet → α → Bool} {k : Nat} :
    k ∈ SortedSet.ofList ((s.entries.filter fun e =>
      ((n.lanelets.entries.filter fun e => ls.contains e.1).map (·.2)).any (p · e.2)).map (·.1)) ↔
      ∃ v, s.get? k = some v ∧ ∃ j l, j ∈ ls ∧ n.lanelets.get? j = some l ∧ p l v = true := by
  simp only [SortedSet.mem_ofList, List.mem_map, List.mem_filter, List.any_eq_true, Prod.exists, SortedSet.contains_iff,
    ← Store.get?_eq_some_iff]
  constructor
  · rintro ⟨k, v, ⟨hk, l, ⟨j, l, ⟨hj, hm⟩, rfl⟩, hp⟩, rfl⟩; exact ⟨v, hk, j, l, hm, hj, hp⟩
  · rintro ⟨v, hk, j, l, hm, hj, hp⟩; exact ⟨k, v, ⟨hk, l, ⟨j, l, ⟨hj, hm⟩, rfl⟩, hp⟩, rfl⟩

end Around

theorem surrounds_around (n : Network) (radius : Nat) (id : ElementId) : Surrounds n (n.around radius id) [id] where
  bearers h id' hm hid := by
    cases List.mem_singleton.1 hm
    exact Scope.has_insertAll.2 (Or.inl (mem_handlesWithId.2 hid))
  links {k l j m} hl hm hid ht := by
    refine (n.mem_around_lanelets radius id).2 (SortedSet.mem_union.2 (Or.inl ?_))
    refine n.neighbours_subset_ball (by omega) (mem_neighbours.2 ⟨l, hl, j, m, ?_, hm, ht⟩)
    exact SortedSet.mem_ofList.2 (mem_laneletsWithId.2 ⟨m, hm, List.mem_singleton.1 hid⟩)
  signReferrers {k t j l} ht hid hl hr :=
    n.reached_of_anchor radius id ((n.mem_anchors id).2
      (Or.inl ⟨k, t, ht, List.mem_singleton.1 hid, n.mem_signLanelets_of_ref hl hr⟩))
  lightReferrers {k t j l} ht hid hl hr :=
    n.reached_of_anchor radius id ((n.mem_anchors id).2
      (Or.inr (Or.inl ⟨k, t, ht, List.mem_singleton.1 hid, n.mem_lightLanelets_of_ref hl hr⟩)))
  intersectionLanelets {k i j l} hi hid hl hr :=
    n.reached_of_anchor radius id ((n.mem_anchors id).2 (Or.inr (Or.inr ⟨k, i, hi, List.mem_singleton.1 hid,
      mem_laneletsWhere.2 ⟨l, hl, by simpa using hr⟩⟩)))
  nearestToSign {k t p j} ht hid hno hp hj :=
    n.reached_of_anchor radius id ((n.mem_anchors id).2 (Or.inl ⟨k, t, ht, List.mem_singleton.1 hid, by
      rw [n.signLanelets_of_unreferenced hno hp, hj]; simp⟩))
  nearestToLight {k t p j} ht hid hno hp hj :=
    n.reached_of_anchor radius id ((n.mem_anchors id).2 (Or.inr (Or.inl ⟨k, t, ht, List.mem_singleton.1 hid, by
      rw [n.lightLanelets_of_unreferenced hno hp, hj]; simp⟩)))
  signs {j l k t} hj hl ht hr := by
    have hk : k ∈ (n.withFittings (n.reached (max radius 1) id)).trafficSigns :=
      (n.mem_fittings (p := fun l (t : TrafficSign) => l.trafficSignRefs.contains t.id)).2
        ⟨t, ht, j, l, (n.mem_around_lanelets radius id).1 hj, hl, by simpa using hr⟩
    exact n.subset_around radius id (h := ⟨.trafficSign, k⟩) hk
  lights {j l k t} hj hl ht hr := by
    have hk : k ∈ (n.withFittings (n.reached (max radius 1) id)).trafficLights :=
      (n.mem_fittings (p := fun l (t : TrafficLight) => l.trafficLightRefs.contains t.id)).2
        ⟨t, ht, j, l, (n.mem_around_lanelets radius id).1 hj, hl, by simpa using hr⟩
    exact n.subset_around radius id (h := ⟨.trafficLight, k⟩) hk
  intersections {j l k i} hj hl hi hr := by
    have hk : k ∈ (n.withFittings (n.reached (max radius 1) id)).intersections :=
      (n.mem_fittings (p := fun l (i : Intersection) => i.lanelets.contains l.id)).2
        ⟨i, hi, j, l, (n.mem_around_lanelets radius id).1 hj, hl, by simpa using hr⟩
    exact n.subset_around radius id (h := ⟨.intersection, k⟩) hk

/-- scopes taken together surround what each of them does -/
theorem Surrounds.union {n : Network} {s t : Scope} {ids ids' : List ElementId} (hs : Surrounds n s ids)
    (ht : Surrounds n t ids') : Surrounds n (s.union t) (ids ++ ids') where
  bearers h id hm hid := Scope.has_union.2 ((List.mem_append.1 hm).imp (hs.bearers h id · hid) (ht.bearers h id · hid))
  links hl hm hid htouch := SortedSet.mem_union.2
    ((List.mem_append.1 hid).imp (hs.links hl hm · htouch) (ht.links hl hm · htouch))
  signReferrers hk hid hl hr := SortedSet.mem_union.2
    ((List.mem_append.1 hid).imp (hs.signReferrers hk · hl hr) (ht.signReferrers hk · hl hr))
  lightReferrers hk hid hl hr := SortedSet.mem_union.2
    ((List.mem_append.1 hid).imp (hs.lightReferrers hk · hl hr) (ht.lightReferrers hk · hl hr))
  intersectionLanelets hk hid hl hr := SortedSet.mem_union.2
    ((List.mem_append.1 hid).imp (hs.intersectionLanelets hk · hl hr) (ht.intersectionLanelets hk · hl hr))
  nearestToSign hk hid hno hp hj := SortedSet.mem_union.2
    ((List.mem_append.1 hid).imp (hs.nearestToSign hk · hno hp hj) (ht.nearestToSign hk · hno hp hj))
  nearestToLight hk hid hno hp hj := SortedSet.mem_union.2
    ((List.mem_append.1 hid).imp (hs.nearestToLight hk · hno hp hj) (ht.nearestToLight hk · hno hp hj))
  signs hj hl hk hr := SortedSet.mem_union.2
    ((SortedSet.mem_union.1 hj).imp (hs.signs · hl hk hr) (ht.signs · hl hk hr))
  lights hj hl hk hr := SortedSet.mem_union.2
    ((SortedSet.mem_union.1 hj).imp (hs.lights · hl hk hr) (ht.lights · hl hk hr))
  intersections hj hl hk hr := SortedSet.mem_union.2
    ((SortedSet.mem_union.1 hj).imp (hs.intersections · hl hk hr) (ht.intersections · hl hk hr))

theorem surrounds_empty (n : Network) : Surrounds n {} [] where
  bearers _ _ h := by cases h
  links _ _ h := by cases h
  signReferrers _ h := by cases h
  lightReferrers _ h := by cases h
  intersectionLanelets _ h := by cases h
  nearestToSign _ h := by cases h
  nearestToLight _ h := by cases h
  signs h := absurd h (SortedSet.not_mem_empty _)
  lights h := absurd h (SortedSet.not_mem_empty _)
  intersections h := absurd h (SortedSet.not_mem_empty _)

theorem surrounds_foldl (n : Network) (radius : Nat) (ids done : List ElementId) (s : Scope)
    (hs : Surrounds n s done) :
    Surrounds n (ids.foldl (fun s id => s.union (n.around radius id)) s) (done ++ ids) := by
  induction ids generalizing s done with
  | nil => rwa [List.append_nil]
  | cons id ids ih =>
    have h := ih (done ++ [id]) _ (hs.union (n.surrounds_around radius id))
    rwa [List.append_assoc] at h

/-- **Neighbourhoods surround their ids.** -/
theorem surrounds_aroundAll (n : Network) (radius : Nat) (ids : List ElementId) :
    Surrounds n (n.aroundAll radius ids) ids :=
  n.surrounds_foldl radius ids [] {} n.surrounds_empty

end Network

end RoadRules
