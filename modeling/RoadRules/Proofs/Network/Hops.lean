/-
How far neighbourhoods reach.

- `Hops`: lanelets at most some steps away from each other, where a step goes along a link or to the side, in either
  direction.
- `mem_ball`: the lanelets within a radius are those at most so many steps away.
- `nearestLanelet?_eq_some_iff`: the nearest lanelet is the one that no other one is nearer than.
- `Reaches`: which lanelets the neighbourhood of an id reaches, in these terms.
- `has_aroundAll`: the neighbourhoods of some ids hold what they reach, and what goes with it.
-/
import RoadRules.Network.Walk
import RoadRules.Proofs.Network.Nearest
import RoadRules.Proofs.Network.Surroundings

namespace RoadRules

namespace Scope

theorem not_has_empty {h : Handle} : ¬ ({} : Scope).Has h := by
  obtain ⟨kind, key⟩ := h
  cases kind <;> exact SortedSet.not_mem_empty key

/-- scopes that hold the same elements are the same -/
theorem ext_has {s t : Scope} (h : ∀ x, s.Has x ↔ t.Has x) : s = t := by
  have hkind : ∀ kind, s.ofKind kind = t.ofKind kind := fun kind => SortedSet.ext fun k => h ⟨kind, k⟩
  obtain ⟨sl, ss, st, si⟩ := s
  obtain ⟨tl, ts, tt, ti⟩ := t
  rw [Scope.mk.injEq]
  exact ⟨hkind .lanelet, hkind .trafficSign, hkind .trafficLight, hkind .intersection⟩

/-- what a scope holds to which something is added for each item of a list -/
theorem has_foldl {ι : Type} {add : Scope → ι → Scope} {Q : ι → Prop} {h : Handle}
    (hadd : ∀ s i, (add s i).Has h ↔ s.Has h ∨ Q i) (items : List ι) (s : Scope) :
    (items.foldl add s).Has h ↔ s.Has h ∨ ∃ i ∈ items, Q i := by
  induction items generalizing s with
  | nil => simp
  | cons i items ih =>
    rw [List.foldl_cons, ih, hadd]
    simp [or_assoc]

end Scope

namespace Network

variable {n : Network} {j k d e : Nat}

/-! ## Steps -/

/-- Does a lanelet have the other one as a successor, a predecessor or a neighbour at its side, by id, or the other way
round? -/
def Adjacent (n : Network) (j k : Nat) : Prop :=
  ∃ l m, n.lanelets.get? j = some l ∧ n.lanelets.get? k = some m ∧ (m.id ∈ l.linkedLanelets ∨ l.id ∈ m.linkedLanelets)

theorem Adjacent.finish (h : n.Adjacent j k) : ∃ m, n.lanelets.get? k = some m := by
  obtain ⟨-, m, -, hm, -⟩ := h
  exact ⟨m, hm⟩

/-- lanelets at most `d` steps away from each other -/
inductive Hops (n : Network) : Nat → Nat → Nat → Prop
  | here {d k : Nat} {l : Lanelet} : n.lanelets.get? k = some l → Hops n d k k
  | step {d j i k : Nat} : n.Adjacent j i → Hops n d i k → Hops n (d + 1) j k

namespace Hops

theorem start (h : n.Hops d j k) : ∃ l, n.lanelets.get? j = some l := by
  cases h with
  | here hl => exact ⟨_, hl⟩
  | step hadjacent _ =>
    obtain ⟨l, -, hl, -⟩ := hadjacent
    exact ⟨l, hl⟩

theorem finish (h : n.Hops d j k) : ∃ l, n.lanelets.get? k = some l := by
  induction h with
  | here hl => exact ⟨_, hl⟩
  | step _ _ ih => exact ih

theorem mono (h : n.Hops d j k) (hle : d ≤ e) : n.Hops e j k := by
  induction h generalizing e with
  | here hl => exact .here hl
  | @step d j i k hadjacent _ ih =>
    obtain ⟨e, rfl⟩ : ∃ e', e = e' + 1 := ⟨e - 1, by omega⟩
    exact .step hadjacent (ih (by omega))

/-- without a step, or with one to a lanelet from which the rest is shorter -/
theorem cases (h : n.Hops d j k) : j = k ∨ 0 < d ∧ ∃ i, n.Adjacent j i ∧ n.Hops (d - 1) i k := by
  cases h with
  | here => exact Or.inl rfl
  | step hadjacent hrest => exact Or.inr ⟨Nat.succ_pos _, _, hadjacent, hrest⟩

/-- a set of lanelets that no step leads out of -/
theorem mem_of_closed {keys : SortedSet Nat} (hclosed : ∀ i ∈ keys, ∀ i', n.Adjacent i i' → i' ∈ keys)
    (h : n.Hops d j k) (hj : j ∈ keys) : k ∈ keys := by
  induction h with
  | here => exact hj
  | step hadjacent _ ih => exact ih (hclosed _ hj _ hadjacent)

end Hops

/-! ## Balls -/

theorem mem_neighbours_iff {keys : SortedSet Nat} : k ∈ n.neighbours keys ↔ ∃ j ∈ keys, n.Adjacent j k := by
  rw [mem_neighbours]
  constructor
  · rintro ⟨l, hl, j, m, hj, hm, htouch⟩
    exact ⟨j, hj, m, l, hm, hl, by simpa [Lanelet.touches, or_comm] using htouch⟩
  · rintro ⟨j, hj, m, l, hm, hl, hlinked⟩
    exact ⟨l, hl, j, m, hj, hm, by simpa [Lanelet.touches, or_comm] using hlinked⟩

/-- **Balls.** The lanelets within a radius are those at most so many steps away. -/
theorem mem_ball {radius : Nat} {keys : SortedSet Nat} :
    k ∈ n.ball radius keys ↔ k ∈ keys ∨ ∃ j ∈ keys, n.Hops radius j k := by
  induction radius generalizing keys with
  | zero =>
    refine ⟨Or.inl, ?_⟩
    rintro (hk | ⟨j, hj, hhops⟩)
    · exact hk
    · rcases hhops.cases with rfl | ⟨hpos, -⟩
      · exact hj
      · exact absurd hpos (Nat.lt_irrefl 0)
  | succ radius ih =>
    unfold ball
    dsimp only
    split_ifs with hsame
    · refine ⟨Or.inl, ?_⟩
      rintro (hk | ⟨j, hj, hhops⟩)
      · exact hk
      · refine hhops.mem_of_closed (fun i hi i' hadjacent => ?_) hj
        rw [← hsame]
        exact SortedSet.mem_union.2 (Or.inr (mem_neighbours_iff.2 ⟨i, hi, hadjacent⟩))
    · rw [ih]
      constructor
      · rintro (hk | ⟨i, hi, hhops⟩)
        · rcases SortedSet.mem_union.1 hk with hk | hk
          · exact Or.inl hk
          · obtain ⟨j, hj, hadjacent⟩ := mem_neighbours_iff.1 hk
            obtain ⟨m, hm⟩ := hadjacent.finish
            exact Or.inr ⟨j, hj, .step hadjacent (.here hm)⟩
        · rcases SortedSet.mem_union.1 hi with hi | hi
          · exact Or.inr ⟨i, hi, hhops.mono (Nat.le_succ _)⟩
          · obtain ⟨j, hj, hadjacent⟩ := mem_neighbours_iff.1 hi
            exact Or.inr ⟨j, hj, .step hadjacent hhops⟩
      · rintro (hk | ⟨j, hj, hhops⟩)
        · exact Or.inl (SortedSet.mem_union.2 (Or.inl hk))
        · rcases hhops.cases with rfl | ⟨-, i, hadjacent, hrest⟩
          · exact Or.inl (SortedSet.mem_union.2 (Or.inl hj))
          · exact Or.inr ⟨i, SortedSet.mem_union.2 (Or.inr (mem_neighbours_iff.2 ⟨j, hj, hadjacent⟩)), hrest⟩

/-! ## The nearest lanelet -/

/-- Is a lanelet within the distance from a point, and no other one nearer to it? Of equally near ones, it has to be the
one with the smallest key. -/
def Nearest (n : Network) (p : Point) (limit : Float) (k : Nat) : Prop :=
  ∃ l a, n.lanelets.get? k = some l ∧ l.distanceWithin? p limit = some a ∧
    ∀ i m b, n.lanelets.get? i = some m → m.distanceWithin? p limit = some b → a < b ∨ ¬ b < a ∧ k ≤ i

theorem Nearest.unique {p : Point} {limit : Float} (hj : n.Nearest p limit j) (hk : n.Nearest p limit k) : j = k := by
  obtain ⟨l, a, hl, ha, hleast⟩ := hj
  obtain ⟨m, b, hm, hb, hleast'⟩ := hk
  rcases hleast k m b hm hb with hab | ⟨hba, hjk⟩
  · rcases hleast' j l a hl ha with hba | ⟨hab', -⟩
    · exact absurd hba (Double.lt_asymm hab)
    · exact absurd hab hab'
  · rcases hleast' j l a hl ha with hba' | ⟨-, hkj⟩
    · exact absurd hba' hba
    · exact Nat.le_antisymm hjk hkj

/-- what the search finds is the nearest one -/
theorem nearest_of_nearestLanelet? {p : Point} {limit : Float} (h : n.nearestLanelet? p limit = some k) :
    n.Nearest p limit k := by
  obtain ⟨before, a, after, hsplit, hbefore, hafter⟩ := near_of_nearestLanelet? h
  have hascending : (before ++ (k, a) :: after).Pairwise fun a b => a.1 < b.1 := hsplit ▸ n.near_ascending p limit
  have hbest : (k, a) ∈ n.near p limit := hsplit ▸ List.mem_append_right _ List.mem_cons_self
  obtain ⟨l, hl, ha⟩ := Option.bind_eq_some_iff.1 (mem_near.1 hbest)
  refine ⟨l, a, hl, ha, fun i m b hm hb => ?_⟩
  have hi : (i, b) ∈ before ++ (k, a) :: after :=
    hsplit ▸ mem_near.2 (Option.bind_eq_some_iff.2 ⟨m, hm, hb⟩)
  obtain ⟨-, hbehind, -⟩ := List.pairwise_append.1 hascending
  rcases List.mem_append.1 hi with hi | hi
  · exact Or.inl (hbefore (i, b) hi)
  · rcases List.mem_cons.1 hi with heq | hi
    · obtain ⟨rfl, rfl⟩ := Prod.mk.inj heq
      exact Or.inr ⟨fun hlt => Double.lt_asymm hlt hlt, Nat.le_refl _⟩
    · exact Or.inr ⟨hafter (i, b) hi, Nat.le_of_lt ((List.pairwise_cons.1 hbehind).1 (i, b) hi)⟩

/-- **The nearest lanelet** is the one that no other one is nearer than. -/
theorem nearestLanelet?_eq_some_iff {p : Point} {limit : Float} :
    n.nearestLanelet? p limit = some k ↔ n.Nearest p limit k := by
  refine ⟨nearest_of_nearestLanelet?, fun h => ?_⟩
  cases hfound : n.nearestLanelet? p limit with
  | some j => rw [(nearest_of_nearestLanelet? hfound).unique h]
  | none =>
    obtain ⟨l, a, hl, ha, -⟩ := h
    have hmem : (k, a) ∈ n.near p limit := mem_near.2 (Option.bind_eq_some_iff.2 ⟨l, hl, ha⟩)
    rw [nearestLanelet?_eq_none_iff.1 hfound] at hmem
    cases hmem

/-! ## What neighbourhoods reach -/

/-- Does a lanelet go with an id at a position? It refers to the id, or no lanelet does and it is the nearest one. -/
def GoesWith (n : Network) (refs : Lanelet → List ElementId) (id : ElementId) (position : Option Point) (j : Nat) :
    Prop :=
  (∃ l, n.lanelets.get? j = some l ∧ id ∈ refs l) ∨
    (∀ k l, n.lanelets.get? k = some l → id ∉ refs l) ∧ ∃ p, position = some p ∧ n.Nearest p attachDistance j

/-- Does a lanelet go with a sign, a light or an intersection that bears the id? -/
def Anchor (n : Network) (id : ElementId) (j : Nat) : Prop :=
  (∃ i s, n.trafficSigns.get? i = some s ∧ s.id = id ∧ n.GoesWith (·.trafficSignRefs) id s.position j) ∨
    (∃ i t, n.trafficLights.get? i = some t ∧ t.id = id ∧ n.GoesWith (·.trafficLightRefs) id t.position j) ∨
    ∃ i x, n.intersections.get? i = some x ∧ x.id = id ∧ ∃ l, n.lanelets.get? j = some l ∧ l.id ∈ x.lanelets

/-- Is a lanelet at most `radius` steps away from one that bears the id, or `radius - 1` steps from one that goes with
another element that bears it? -/
def Reaches (n : Network) (radius : Nat) (id : ElementId) (k : Nat) : Prop :=
  (∃ j l, n.lanelets.get? j = some l ∧ l.id = id ∧ n.Hops radius j k) ∨
    ∃ j, n.Anchor id j ∧ n.Hops (radius - 1) j k

/-- Is an element the lanelet itself, a sign or a light that it refers to, or an intersection that refers to it? -/
def Accompanies (n : Network) (k : Nat) (l : Lanelet) (h : Handle) : Prop :=
  match h.kind with
  | .lanelet => h.key = k
  | .trafficSign => ∃ s, n.trafficSigns.get? h.key = some s ∧ s.id ∈ l.trafficSignRefs
  | .trafficLight => ∃ t, n.trafficLights.get? h.key = some t ∧ t.id ∈ l.trafficLightRefs
  | .intersection => ∃ i, n.intersections.get? h.key = some i ∧ l.id ∈ i.lanelets

/-- what goes with the lanelet under a key, and the lanelet itself -/
def Company (n : Network) (k : Nat) (h : Handle) : Prop := ∃ l, n.lanelets.get? k = some l ∧ n.Accompanies k l h

theorem mem_startsNear {refs : Lanelet → List ElementId} {id : ElementId} {referrers : List Nat}
    (hreferrers : ∀ k, k ∈ referrers ↔ ∃ l, n.lanelets.get? k = some l ∧ id ∈ refs l) (position : Option Point) :
    j ∈ n.startsNear referrers position ↔ n.GoesWith refs id position j := by
  rw [GoesWith, ← hreferrers]
  have hnone : (∀ k l, n.lanelets.get? k = some l → id ∉ refs l) ↔ referrers = [] := by
    simp only [List.eq_nil_iff_forall_not_mem, hreferrers, not_exists, not_and]
  rw [hnone]
  unfold startsNear
  cases referrers with
  | nil =>
    simp only [Option.mem_toList, Option.bind_eq_some_iff, List.not_mem_nil, false_or, true_and,
      nearestLanelet?_eq_some_iff]
  | cons first rest => simp

theorem mem_laneletsWhere_contains {refs : Lanelet → List ElementId} {id : ElementId} :
    k ∈ n.laneletsWhere (fun l => (refs l).contains id) ↔ ∃ l, n.lanelets.get? k = some l ∧ id ∈ refs l := by
  simp only [mem_laneletsWhere, List.contains_iff_mem]

theorem mem_anchors_iff {id : ElementId} : j ∈ n.anchors id ↔ n.Anchor id j := by
  rw [mem_anchors, Anchor]
  refine or_congr (exists_congr fun i => exists_congr fun s => and_congr_right fun _ => ?_)
    (or_congr (exists_congr fun i => exists_congr fun t => and_congr_right fun _ => ?_)
      (exists_congr fun i => exists_congr fun x => and_congr_right fun _ => and_congr_right fun _ => ?_))
  · refine and_congr_right fun hid => ?_
    rw [← hid]
    exact mem_startsNear (fun k => mem_laneletsWhere_contains) s.position
  · refine and_congr_right fun hid => ?_
    rw [← hid]
    exact mem_startsNear (fun k => mem_laneletsWhere_contains) t.position
  · simp only [intersectionLanelets, mem_laneletsWhere, List.contains_iff_mem]

theorem Anchor.start {id : ElementId} (h : n.Anchor id j) : ∃ l, n.lanelets.get? j = some l := by
  have goes : ∀ {refs : Lanelet → List ElementId} {position : Option Point}, n.GoesWith refs id position j →
      ∃ l, n.lanelets.get? j = some l := by
    rintro refs position (⟨l, hl, -⟩ | ⟨-, p, -, l, a, hl, -⟩) <;> exact ⟨l, hl⟩
  rcases h with ⟨i, s, -, -, h⟩ | ⟨i, t, -, -, h⟩ | ⟨i, x, -, -, l, hl, -⟩
  · exact goes h
  · exact goes h
  · exact ⟨l, hl⟩

theorem mem_reached {radius : Nat} {id : ElementId} : k ∈ n.reached radius id ↔ n.Reaches radius id k := by
  rw [reached, SortedSet.mem_union, mem_ball, mem_ball, Reaches]
  simp only [SortedSet.mem_ofList, mem_laneletsWithId, mem_anchors_iff]
  refine or_congr ⟨?_, ?_⟩ ⟨?_, ?_⟩
  · rintro (⟨l, hl, hid⟩ | ⟨j, ⟨l, hl, hid⟩, hhops⟩)
    · exact ⟨k, l, hl, hid, .here hl⟩
    · exact ⟨j, l, hl, hid, hhops⟩
  · rintro ⟨j, l, hl, hid, hhops⟩
    exact Or.inr ⟨j, ⟨l, hl, hid⟩, hhops⟩
  · rintro (hanchor | ⟨j, hanchor, hhops⟩)
    · obtain ⟨l, hl⟩ := hanchor.start
      exact ⟨k, hanchor, .here hl⟩
    · exact ⟨j, hanchor, hhops⟩
  · exact Or.inr

theorem Reaches.finish {radius : Nat} {id : ElementId} (h : n.Reaches radius id k) :
    ∃ l, n.lanelets.get? k = some l := by
  rcases h with ⟨j, l, -, -, hhops⟩ | ⟨j, -, hhops⟩ <;> exact hhops.finish

/-- lanelets with what goes with them -/
theorem has_withFittings {keys : SortedSet Nat} (hkeys : ∀ k ∈ keys, ∃ l, n.lanelets.get? k = some l) {h : Handle} :
    (n.withFittings keys).Has h ↔ ∃ k ∈ keys, n.Company k h := by
  obtain ⟨kind, key⟩ := h
  cases kind with
  | lanelet =>
    constructor
    · intro hkey
      obtain ⟨l, hl⟩ := hkeys key hkey
      exact ⟨key, hkey, l, hl, rfl⟩
    · rintro ⟨k, hk, l, -, rfl⟩
      exact hk
  | trafficSign =>
    refine (n.mem_fittings (p := fun l (s : TrafficSign) => l.trafficSignRefs.contains s.id)).trans ?_
    simp only [List.contains_iff_mem, Company, Accompanies]
    grind
  | trafficLight =>
    refine (n.mem_fittings (p := fun l (t : TrafficLight) => l.trafficLightRefs.contains t.id)).trans ?_
    simp only [List.contains_iff_mem, Company, Accompanies]
    grind
  | intersection =>
    refine (n.mem_fittings (p := fun l (i : Intersection) => i.lanelets.contains l.id)).trans ?_
    simp only [List.contains_iff_mem, Company, Accompanies]
    grind

theorem has_around {radius : Nat} {id : ElementId} {h : Handle} : (n.around radius id).Has h ↔
    n.idOf? h = some id ∨ ∃ k, n.Reaches (max radius 1) id k ∧ n.Company k h := by
  rw [around, Scope.has_insertAll, mem_handlesWithId,
    has_withFittings fun k hk => (mem_reached.1 hk).finish]
  simp only [mem_reached]

/-- **Neighbourhoods of some ids** hold the elements that bear one of them, what they reach, and what goes with it. -/
theorem has_aroundAll {radius : Nat} {ids : List ElementId} {h : Handle} : (n.aroundAll radius ids).Has h ↔
    ∃ id ∈ ids, n.idOf? h = some id ∨ ∃ k, n.Reaches (max radius 1) id k ∧ n.Company k h := by
  have hunion : ∀ (s : Scope) id, (s.union (n.around radius id)).Has h ↔ s.Has h ∨ (n.around radius id).Has h :=
    fun _ _ => Scope.has_union
  rw [aroundAll, Scope.has_foldl hunion, or_iff_right Scope.not_has_empty]
  simp only [has_around]

end Network

end RoadRules
