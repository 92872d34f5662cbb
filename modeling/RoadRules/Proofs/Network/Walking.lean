/-
The walk and the neighbourhoods that it gathers.

- `Level`: the invariant of the queue. It is sorted by depth with at most two depths in it, and while the radius is not
  reached, every neighbour of an expanded lanelet is expanded or waits in the queue no deeper than the next level.
- `walk_sound`, `walk_covers`: the walk shows what is in reach of the queue, and all of it.
- `has_gather`: so from an id it gathers what the id reaches, whatever the scope holds before.
- `gatherAll_exact`: the neighbourhoods of some ids.
-/
import RoadRules.Network.Document
import RoadRules.Proofs.Network.Hops

namespace RoadRules

/-! ## Steps -/

theorem Store.mem_referrers {α : Type} {s : Store α} {refs : α → List ElementId} {id : ElementId} {k : Nat} :
    k ∈ s.referrers refs id ↔ ∃ v, s.get? k = some v ∧ id ∈ refs v := by
  simp only [referrers, List.mem_flatMap, List.mem_map, List.mem_filter, beq_iff_eq, Prod.exists,
    Store.get?_eq_some_iff]
  constructor
  · rintro ⟨k, v, hv, id, ⟨href, rfl⟩, rfl⟩; exact ⟨v, hv, href⟩
  · rintro ⟨v, hv, href⟩; exact ⟨k, v, hv, id, ⟨href, rfl⟩, rfl⟩

namespace Network

variable {n : Network} {radius depth key : Nat} {queue : List (Nat × Nat)} {scope : Scope} {expanded : SortedSet Nat}
  {l : Lanelet}

theorem mem_beside (hl : n.lanelets.get? key = some l) {k : Nat} : k ∈ n.beside l ↔ n.Adjacent key k := by
  simp only [beside, List.mem_append, List.mem_flatMap, mem_laneletsWithId, Store.mem_referrers]
  constructor
  · rintro (⟨id, hlinked, m, hm, rfl⟩ | ⟨m, hm, hlinked⟩)
    · exact ⟨l, m, hl, hm, Or.inl hlinked⟩
    · exact ⟨l, m, hl, hm, Or.inr hlinked⟩
  · rintro ⟨l', m, hl', hm, hlinked⟩
    cases hl.symm.trans hl'
    rcases hlinked with hlinked | hlinked
    · exact Or.inl ⟨m.id, hlinked, m, hm, rfl⟩
    · exact Or.inr ⟨m, hm, hlinked⟩

theorem mem_upcoming (hl : n.lanelets.get? key = some l) {e : Nat × Nat} :
    e ∈ n.upcoming l expanded depth ↔ n.Adjacent key e.1 ∧ ¬ e.1 ∈ expanded ∧ e.2 = depth := by
  simp only [upcoming, List.mem_map, List.mem_filter, mem_beside hl, SortedSet.contains, Bool.not_eq_true',
    decide_eq_false_iff_not]
  constructor
  · rintro ⟨k, ⟨hadjacent, hk⟩, rfl⟩; exact ⟨hadjacent, hk, rfl⟩
  · rintro ⟨hadjacent, hk, rfl⟩; exact ⟨e.1, ⟨hadjacent, hk⟩, rfl⟩

theorem has_reveal (hl : n.lanelets.get? key = some l) {h : Handle} :
    (n.reveal scope key l).Has h ↔ scope.Has h ∨ n.Company key h := by
  have company : n.Company key h ↔ n.Accompanies key l h := by
    simp only [Company, hl, Option.some.injEq, exists_eq_left']
  rw [company]
  obtain ⟨kind, k⟩ := h
  cases kind with
  | lanelet => exact SortedSet.mem_insert.trans or_comm
  | trafficSign =>
    refine SortedSet.mem_insertAll.trans (or_congr_right ?_)
    simp only [List.mem_flatMap, mem_trafficSignsWithId]
    constructor
    · rintro ⟨id, href, s, hs, rfl⟩; exact ⟨s, hs, href⟩
    · rintro ⟨s, hs, href⟩; exact ⟨s.id, href, s, hs, rfl⟩
  | trafficLight =>
    refine SortedSet.mem_insertAll.trans (or_congr_right ?_)
    simp only [List.mem_flatMap, mem_trafficLightsWithId]
    constructor
    · rintro ⟨id, href, t, ht, rfl⟩; exact ⟨t, ht, href⟩
    · rintro ⟨t, ht, href⟩; exact ⟨t.id, href, t, ht, rfl⟩
  | intersection => exact SortedSet.mem_insertAll.trans (or_congr_right Store.mem_referrers)

/-! ## What the walk shows is in reach -/

/-- the scope only grows -/
theorem subset_walk {h : Handle} (hs : scope.Has h) : (n.walk radius queue scope expanded).Has h := by
  fun_induction walk n radius queue scope expanded with
  | case1 => exact hs
  | case2 _ _ _ _ _ _ ih => exact ih hs
  | case3 _ _ _ _ _ _ _ _ ih => exact ih hs
  | case4 _ _ _ _ _ _ hl _ _ ih => exact ih ((has_reveal hl).2 (Or.inl hs))
  | case5 _ _ _ _ _ _ hl _ _ ih => exact ih ((has_reveal hl).2 (Or.inl hs))

/-- **Soundness.** What is shown was in the scope before, or goes with a lanelet in reach of the queue. -/
theorem walk_sound {h : Handle} (hs : (n.walk radius queue scope expanded).Has h) :
    scope.Has h ∨ ∃ e ∈ queue, ∃ k, n.Hops (radius - e.2) e.1 k ∧ n.Company k h := by
  fun_induction walk n radius queue scope expanded with
  | case1 => exact Or.inl hs
  | case2 key depth queue scope expanded hl ih =>
    refine (ih hs).imp_right ?_
    rintro ⟨e, he, hreach⟩
    exact ⟨e, List.mem_cons_of_mem _ he, hreach⟩
  | case3 key depth queue scope expanded l hl hmet ih =>
    refine (ih hs).imp_right ?_
    rintro ⟨e, he, hreach⟩
    exact ⟨e, List.mem_cons_of_mem _ he, hreach⟩
  | case4 key depth queue scope expanded l hl hmet hradius ih =>
    rcases ih hs with hs | ⟨e, he, hreach⟩
    · refine ((has_reveal hl).1 hs).imp_right fun hcompany => ?_
      exact ⟨_, List.mem_cons_self, key, .here hl, hcompany⟩
    · exact Or.inr ⟨e, List.mem_cons_of_mem _ he, hreach⟩
  | case5 key depth queue scope expanded l hl hmet hradius ih =>
    rcases ih hs with hs | ⟨e, he, k, hhops, hcompany⟩
    · refine ((has_reveal hl).1 hs).imp_right fun hcompany => ?_
      exact ⟨_, List.mem_cons_self, key, .here hl, hcompany⟩
    · rcases List.mem_append.1 he with he | he
      · exact Or.inr ⟨e, List.mem_cons_of_mem _ he, k, hhops, hcompany⟩
      · -- the neighbour was queued one step deeper, so the lanelet has one step more
        obtain ⟨hadjacent, -, hdepth⟩ := (mem_upcoming hl).1 he
        have hstep : radius - depth = radius - e.2 + 1 := by omega
        exact Or.inr ⟨_, List.mem_cons_self, k, hstep ▸ .step hadjacent hhops, hcompany⟩

/-! ## What is in reach is shown -/

/-- Does a scope hold the lanelets at most `d` steps away, with what goes with them? -/
def Covers (n : Network) (result : Scope) (d x : Nat) : Prop :=
  ∀ k h, n.Hops d x k → n.Company k h → result.Has h

theorem Covers.mono {result : Scope} {d d' x : Nat} (h : n.Covers result d x) (hle : d' ≤ d) : n.Covers result d' x :=
  fun k y hhops => h k y (hhops.mono hle)

/-- The queue on the way, with lanelets at one depth in front and at the next one behind. As long as the radius is not
reached, what is next to an expanded lanelet is expanded too, or in the queue. -/
structure Level (n : Network) (radius depth : Nat) (queue : List (Nat × Nat)) (scope : Scope)
    (expanded : SortedSet Nat) : Prop where
  depths : ∀ e ∈ queue, e.2 = depth ∨ e.2 = depth + 1
  sorted : queue.Pairwise fun a b => a.2 ≤ b.2
  shown : ∀ x ∈ expanded, ∀ h, n.Company x h → scope.Has h
  ahead : depth < radius → ∀ x ∈ expanded, ∀ y, n.Adjacent x y →
    y ∈ expanded ∨ ∃ d, d ≤ depth + 1 ∧ (y, d) ∈ queue

namespace Level

variable {d : Nat}

/-- the level of the first lanelet in the queue -/
theorem relabel (h : Level n radius depth ((key, d) :: queue) scope expanded) :
    Level n radius d ((key, d) :: queue) scope expanded := by
  have hd := h.depths _ List.mem_cons_self
  dsimp only at hd
  refine ⟨fun e he => ?_, h.sorted, h.shown, fun hradius x hx y hadjacent => ?_⟩
  · have hle : d ≤ e.2 := by
      rcases List.mem_cons.1 he with rfl | he
      · exact Nat.le_refl _
      · exact (List.pairwise_cons.1 h.sorted).1 e he
    have he := h.depths e he
    omega
  · refine (h.ahead (by omega) x hx y hadjacent).imp_right ?_
    rintro ⟨d', hle, hmem⟩
    exact ⟨d', by omega, hmem⟩

/-- the first lanelet is taken from the queue, and shown or not -/
theorem pop (h : Level n radius d ((key, d) :: queue) scope expanded) {scope' : Scope}
    (hscope : ∀ x, scope.Has x → scope'.Has x)
    (hkey : d < radius → ∀ x, n.Adjacent x key → key ∈ expanded) : Level n radius d queue scope' expanded where
  depths e he := h.depths e (List.mem_cons_of_mem _ he)
  sorted := (List.pairwise_cons.1 h.sorted).2
  shown x hx y hcompany := hscope y (h.shown x hx y hcompany)
  ahead hradius x hx y hadjacent := by
    rcases h.ahead hradius x hx y hadjacent with hy | ⟨d', hle, hmem⟩
    · exact Or.inl hy
    · rcases List.mem_cons.1 hmem with heq | hmem
      · obtain ⟨rfl, rfl⟩ := Prod.mk.inj heq
        exact Or.inl (hkey hradius x hadjacent)
      · exact Or.inr ⟨d', hle, hmem⟩

/-- the first lanelet is shown, and its neighbours are queued -/
theorem expand (h : Level n radius d ((key, d) :: queue) scope expanded) (hl : n.lanelets.get? key = some l) :
    Level n radius d (queue ++ n.upcoming l (expanded.insert key) (d + 1)) (n.reveal scope key l)
      (expanded.insert key) where
  depths e he := by
    rcases List.mem_append.1 he with he | he
    · exact h.depths e (List.mem_cons_of_mem _ he)
    · exact Or.inr ((mem_upcoming hl).1 he).2.2
  sorted := by
    refine List.pairwise_append.2 ⟨(List.pairwise_cons.1 h.sorted).2, ?_, fun a ha b hb => ?_⟩
    · exact List.pairwise_map.2 (List.pairwise_of_forall fun _ _ => Nat.le_refl _)
    · have ha := h.depths a (List.mem_cons_of_mem _ ha)
      have hb := ((mem_upcoming hl).1 hb).2.2
      omega
  shown x hx y hcompany := by
    rcases SortedSet.mem_insert.1 hx with rfl | hx
    · exact (has_reveal hl).2 (Or.inr hcompany)
    · exact (has_reveal hl).2 (Or.inl (h.shown x hx y hcompany))
  ahead hradius x hx y hadjacent := by
    by_cases hy : y ∈ expanded.insert key
    · exact Or.inl hy
    · refine Or.inr ?_
      rcases SortedSet.mem_insert.1 hx with rfl | hx
      · exact ⟨d + 1, Nat.le_refl _, List.mem_append_right _ ((mem_upcoming hl).2 ⟨hadjacent, hy, rfl⟩)⟩
      · rcases h.ahead hradius x hx y hadjacent with hmem | ⟨d', hle, hmem⟩
        · exact absurd (SortedSet.mem_insert.2 (Or.inr hmem)) hy
        · rcases List.mem_cons.1 hmem with heq | hmem
          · exact absurd (SortedSet.mem_insert.2 (Or.inl (Prod.mk.inj heq).1)) hy
          · exact ⟨d', hle, List.mem_append_left _ hmem⟩

/-- What the queue reaches and what the expanded lanelets reach from the level of the first one in the queue is all that
they reach from the level before. -/
theorem covers_cons (h : Level n radius depth ((key, d) :: queue) scope expanded) {result : Scope}
    (hscope : ∀ x, scope.Has x → result.Has x) (hkey : n.Covers result (radius - d) key)
    (hqueue : ∀ e ∈ queue, n.Covers result (radius - e.2) e.1)
    (hexpanded : ∀ x ∈ expanded, n.Covers result (radius - d) x) :
    (∀ e ∈ (key, d) :: queue, n.Covers result (radius - e.2) e.1) ∧
      ∀ x ∈ expanded, n.Covers result (radius - depth) x := by
  have hall : ∀ e ∈ (key, d) :: queue, n.Covers result (radius - e.2) e.1 := by
    intro e he
    rcases List.mem_cons.1 he with rfl | he
    · exact hkey
    · exact hqueue e he
  refine ⟨hall, fun x hx k y hhops hcompany => ?_⟩
  have hd := h.depths _ List.mem_cons_self
  dsimp only at hd
  rcases hhops.cases with rfl | ⟨hpos, i, hadjacent, hrest⟩
  · exact hscope y (h.shown x hx y hcompany)
  · rcases h.ahead (by omega) x hx i hadjacent with hi | ⟨d', hle, hmem⟩
    · exact (hexpanded i hi).mono (by omega) k y hrest hcompany
    · exact (hall _ hmem).mono (by dsimp only; omega) k y hrest hcompany

end Level

/-- **Completeness.** What is in reach of the queue is shown, and so is what is in reach of the expanded lanelets. -/
theorem walk_covers (h : Level n radius depth queue scope expanded) :
    (∀ e ∈ queue, n.Covers (n.walk radius queue scope expanded) (radius - e.2) e.1) ∧
      ∀ x ∈ expanded, n.Covers (n.walk radius queue scope expanded) (radius - depth) x := by
  fun_induction walk n radius queue scope expanded generalizing depth with
  | case1 expanded scope =>
    refine ⟨fun e he => absurd he List.not_mem_nil, fun x hx k y hhops hcompany => ?_⟩
    rcases hhops.cases with rfl | ⟨hpos, -⟩
    · exact h.shown x hx y hcompany
    · -- nothing waits any more, so no step leads out of what is expanded
      refine h.shown k (hhops.mem_of_closed (fun i hi i' hadjacent => ?_) hx) y hcompany
      rcases h.ahead (by omega) i hi i' hadjacent with hi' | ⟨_, -, hmem⟩
      · exact hi'
      · exact absurd hmem List.not_mem_nil
  | case2 key d queue scope expanded hl ih =>
    have absent : ∀ x, ¬ n.Adjacent x key := fun x hadjacent => by
      obtain ⟨m, hm⟩ := hadjacent.finish
      cases hl.symm.trans hm
    obtain ⟨hqueue, hexpanded⟩ := ih (h.relabel.pop (fun _ hx => hx) fun _ x hx => absurd hx (absent x))
    refine h.covers_cons (fun _ => subset_walk) (fun k y hhops _ => ?_) hqueue hexpanded
    obtain ⟨m, hm⟩ := hhops.start
    cases hl.symm.trans hm
  | case3 key d queue scope expanded l hl hmet ih =>
    obtain ⟨hqueue, hexpanded⟩ := ih (h.relabel.pop (fun _ hx => hx) fun _ _ _ => hmet.2)
    exact h.covers_cons (fun _ => subset_walk) (hexpanded key hmet.2) hqueue hexpanded
  | case4 key d queue scope expanded l hl hmet hradius ih =>
    have hgrown : ∀ x, scope.Has x → (n.reveal scope key l).Has x := fun x hx => (has_reveal hl).2 (Or.inl hx)
    obtain ⟨hqueue, hexpanded⟩ := ih (h.relabel.pop hgrown fun hlt => absurd hlt (Nat.not_lt.2 hradius))
    refine h.covers_cons (fun x hx => subset_walk (hgrown x hx)) (fun k y hhops hcompany => ?_) hqueue hexpanded
    rcases hhops.cases with rfl | ⟨hpos, -⟩
    · exact subset_walk ((has_reveal hl).2 (Or.inr hcompany))
    · omega
  | case5 key d queue scope expanded l hl hmet hradius ih =>
    have hgrown : ∀ x, scope.Has x → (n.reveal scope key l).Has x := fun x hx => (has_reveal hl).2 (Or.inl hx)
    obtain ⟨hqueue, hexpanded⟩ := ih (h.relabel.expand hl)
    refine h.covers_cons (fun x hx => subset_walk (hgrown x hx)) (hexpanded key (SortedSet.mem_insert.2 (Or.inl rfl)))
      (fun e he => hqueue e (List.mem_append_left _ he)) fun x hx =>
        hexpanded x (SortedSet.mem_insert.2 (Or.inr hx))

/-! ## From an id -/

/-- **Starts.** The walk starts at the lanelets that bear the id, and one step on at those that go with other elements
that bear it. -/
theorem mem_starts {id : ElementId} {e : Nat × Nat} : e ∈ (n.handlesWithId id).flatMap (n.starts id) ↔
    e.2 = 0 ∧ (∃ l, n.lanelets.get? e.1 = some l ∧ l.id = id) ∨ e.2 = 1 ∧ n.Anchor id e.1 := by
  obtain ⟨k, d⟩ := e
  simp only [List.mem_flatMap, mem_handlesWithId]
  constructor
  · rintro ⟨⟨kind, key⟩, hid, he⟩
    cases kind with
    | lanelet =>
      obtain ⟨rfl, rfl⟩ : k = key ∧ d = 0 := by simpa [starts] using he
      exact Or.inl ⟨rfl, Option.map_eq_some_iff.1 hid⟩
    | trafficSign =>
      obtain ⟨s, hs, hid⟩ := Option.map_eq_some_iff.1 hid
      obtain ⟨j, hj, heq⟩ := List.mem_map.1 he
      cases heq
      rw [hs, Option.bind_some, mem_startsNear fun k => Store.mem_referrers] at hj
      exact Or.inr ⟨rfl, Or.inl ⟨key, s, hs, hid, hj⟩⟩
    | trafficLight =>
      obtain ⟨t, ht, hid⟩ := Option.map_eq_some_iff.1 hid
      obtain ⟨j, hj, heq⟩ := List.mem_map.1 he
      cases heq
      rw [ht, Option.bind_some, mem_startsNear fun k => Store.mem_referrers] at hj
      exact Or.inr ⟨rfl, Or.inr (Or.inl ⟨key, t, ht, hid, hj⟩)⟩
    | intersection =>
      obtain ⟨i, hi, hid⟩ := Option.map_eq_some_iff.1 hid
      simp only [starts, hi, List.mem_map, List.mem_flatMap, mem_laneletsWithId] at he
      obtain ⟨j, ⟨o, ho, l, hl, rfl⟩, heq⟩ := he
      cases heq
      exact Or.inr ⟨rfl, Or.inr (Or.inr ⟨key, i, hi, hid, l, hl, ho⟩)⟩
  · rintro (⟨rfl, l, hl, hid⟩ |
      ⟨rfl, ⟨key, s, hs, hid, hgoes⟩ | ⟨key, t, ht, hid, hgoes⟩ | ⟨key, i, hi, hid, l, hl, ho⟩⟩)
    · exact ⟨⟨.lanelet, k⟩, Option.map_eq_some_iff.2 ⟨l, hl, hid⟩, List.mem_singleton.2 rfl⟩
    · refine ⟨⟨.trafficSign, key⟩, Option.map_eq_some_iff.2 ⟨s, hs, hid⟩, List.mem_map.2 ⟨k, ?_, rfl⟩⟩
      rw [hs, Option.bind_some, mem_startsNear fun k => Store.mem_referrers]
      exact hgoes
    · refine ⟨⟨.trafficLight, key⟩, Option.map_eq_some_iff.2 ⟨t, ht, hid⟩, List.mem_map.2 ⟨k, ?_, rfl⟩⟩
      rw [ht, Option.bind_some, mem_startsNear fun k => Store.mem_referrers]
      exact hgoes
    · refine ⟨⟨.intersection, key⟩, Option.map_eq_some_iff.2 ⟨i, hi, hid⟩, ?_⟩
      simp only [starts, hi, List.mem_map, List.mem_flatMap, mem_laneletsWithId]
      exact ⟨k, ⟨l.id, ho, l, hl, rfl⟩, rfl⟩

/-- only the lanelets that bear the id are there without a step -/
theorem depth_starts {id : ElementId} {x : Handle} {e : Nat × Nat} (he : e ∈ n.starts id x) :
    e.2 = if x.kind = .lanelet then 0 else 1 := by
  obtain ⟨kind, key⟩ := x
  cases kind with
  | lanelet => rw [List.mem_singleton.1 he]; rfl
  | trafficSign => obtain ⟨j, -, rfl⟩ := List.mem_map.1 he; rfl
  | trafficLight => obtain ⟨j, -, rfl⟩ := List.mem_map.1 he; rfl
  | intersection =>
    simp only [starts] at he
    split at he
    · obtain ⟨j, -, rfl⟩ := List.mem_map.1 he; rfl
    · cases he

/-- lanelets come first among the elements that bear an id -/
theorem handlesWithId_lanelets_first (n : Network) (id : ElementId) :
    (n.handlesWithId id).Pairwise fun x y => y.kind = .lanelet → x.kind = .lanelet := by
  have hkinds : Kind.values.Pairwise fun a b => b = .lanelet → a = .lanelet := by decide
  refine List.pairwise_flatMap.2 ⟨fun kind _ => ?_, hkinds.imp fun {a b} hab x hx y hy => ?_⟩
  · exact List.pairwise_map.2 (List.pairwise_of_forall fun _ _ h => h)
  · obtain ⟨i, -, rfl⟩ := List.mem_map.1 hx
    obtain ⟨j, -, rfl⟩ := List.mem_map.1 hy
    exact hab

/-- so the starts are sorted by depth -/
theorem level_starts (n : Network) (radius : Nat) (id : ElementId) (scope : Scope) :
    Level n radius 0 ((n.handlesWithId id).flatMap (n.starts id)) scope ∅ where
  depths e he := (mem_starts.1 he).imp And.left And.left
  sorted := by
    have order := n.handlesWithId_lanelets_first id
    refine List.pairwise_flatMap.2 ⟨fun x _ => ?_, order.imp fun {x y} hxy a ha b hb => ?_⟩
    · refine List.pairwise_iff_forall_sublist.2 fun {a b} hab => ?_
      have ha := depth_starts (hab.subset List.mem_cons_self)
      have hb := depth_starts (hab.subset (List.mem_cons_of_mem _ List.mem_cons_self))
      exact (ha.trans hb.symm).le
    · rw [depth_starts ha, depth_starts hb]
      by_cases hy : y.kind = .lanelet
      · rw [if_pos (hxy hy), if_pos hy]
      · rw [if_neg hy]
        split_ifs <;> decide
  shown x hx := absurd hx (SortedSet.not_mem_empty x)
  ahead _ x hx := absurd hx (SortedSet.not_mem_empty x)

/-- **From an id** the walk gathers the elements that bear it, what it reaches, and what goes with it, whatever the
scope holds before. -/
theorem has_gather {id : ElementId} {h : Handle} : (n.gather radius scope id).Has h ↔
    scope.Has h ∨ n.idOf? h = some id ∨ ∃ k, n.Reaches (max radius 1) id k ∧ n.Company k h := by
  unfold gather
  dsimp only
  constructor
  · intro hs
    rcases walk_sound hs with hs | ⟨e, he, k, hhops, hcompany⟩
    · rcases Scope.has_insertAll.1 hs with hs | hs
      · exact Or.inr (Or.inl (mem_handlesWithId.1 hs))
      · exact Or.inl hs
    · refine Or.inr (Or.inr ⟨k, ?_, hcompany⟩)
      rcases mem_starts.1 he with ⟨hdepth, l, hl, hid⟩ | ⟨hdepth, hanchor⟩
      · rw [hdepth] at hhops
        exact Or.inl ⟨e.1, l, hl, hid, hhops⟩
      · rw [hdepth] at hhops
        exact Or.inr ⟨e.1, hanchor, hhops⟩
  · obtain ⟨hcovers, -⟩ := walk_covers (n.level_starts (max radius 1) id (scope.insertAll (n.handlesWithId id)))
    rintro (hs | hid | ⟨k, ⟨j, l, hl, hid, hhops⟩ | ⟨j, hanchor, hhops⟩, hcompany⟩)
    · exact subset_walk (Scope.has_insertAll.2 (Or.inr hs))
    · exact subset_walk (Scope.has_insertAll.2 (Or.inl (mem_handlesWithId.2 hid)))
    · exact hcovers (j, 0) (mem_starts.2 (Or.inl ⟨rfl, l, hl, hid⟩)) k h hhops hcompany
    · exact hcovers (j, 1) (mem_starts.2 (Or.inr ⟨rfl, hanchor⟩)) k h hhops hcompany

theorem has_gatherAll {ids : List ElementId} {h : Handle} : (n.gatherAll radius ids).Has h ↔
    ∃ id ∈ ids, n.idOf? h = some id ∨ ∃ k, n.Reaches (max radius 1) id k ∧ n.Company k h := by
  have hgather : ∀ scope id, (n.gather radius scope id).Has h ↔
      scope.Has h ∨ n.idOf? h = some id ∨ ∃ k, n.Reaches (max radius 1) id k ∧ n.Company k h := fun _ _ => has_gather
  rw [gatherAll, Scope.has_foldl hgather, or_iff_right Scope.not_has_empty]

/-! ## The neighbourhoods of some ids -/

theorem mem_gatherAll_lanelets {ids : List ElementId} {k : Nat} :
    k ∈ (n.gatherAll radius ids).lanelets ↔ ∃ id ∈ ids, n.Reaches (max radius 1) id k := by
  refine (has_gatherAll (h := ⟨.lanelet, k⟩)).trans (exists_congr fun id => and_congr_right fun _ => ?_)
  constructor
  · rintro (hid | ⟨j, hreaches, l, hl, rfl⟩)
    · obtain ⟨l, hl, hid⟩ := Option.map_eq_some_iff.1 hid
      exact Or.inl ⟨k, l, hl, hid, .here hl⟩
    · exact hreaches
  · intro hreaches
    obtain ⟨l, hl⟩ := hreaches.finish
    exact Or.inr ⟨k, hreaches, l, hl, rfl⟩

/-- the elements that bear one of the ids, and the company of the lanelets -/
theorem has_gatherAll_iff {ids : List ElementId} {h : Handle} :
    (n.gatherAll radius ids).Has h ↔ (∃ id ∈ ids, n.idOf? h = some id) ∨
      ∃ j l, j ∈ (n.gatherAll radius ids).lanelets ∧ n.lanelets.get? j = some l ∧ n.Accompanies j l h := by
  rw [has_gatherAll]
  simp only [mem_gatherAll_lanelets, Company]
  constructor
  · rintro ⟨id, hmem, hid | ⟨j, hreaches, l, hl, haccompanies⟩⟩
    · exact Or.inl ⟨id, hmem, hid⟩
    · exact Or.inr ⟨j, l, ⟨id, hmem, hreaches⟩, hl, haccompanies⟩
  · rintro (⟨id, hmem, hid⟩ | ⟨j, l, ⟨id, hmem, hreaches⟩, hl, haccompanies⟩)
    · exact ⟨id, hmem, Or.inl hid⟩
    · exact ⟨id, hmem, Or.inr ⟨j, hreaches, l, hl, haccompanies⟩⟩

/-- the elements of one sort: what they bear, and what they have to do with the lanelets -/
theorem has_gatherAll_store {α : Type} {ids : List ElementId} (store : Store α) (elementId : α → ElementId)
    (goes : α → Lanelet → Prop) {h : Handle} (hid : n.idOf? h = (store.get? h.key).map elementId)
    (haccompanies : ∀ j l, n.Accompanies j l h ↔ ∃ a, store.get? h.key = some a ∧ goes a l) :
    (n.gatherAll radius ids).Has h ↔ ∃ a, store.get? h.key = some a ∧ (elementId a ∈ ids ∨
      ∃ j l, j ∈ (n.gatherAll radius ids).lanelets ∧ n.lanelets.get? j = some l ∧ goes a l) := by
  rw [has_gatherAll_iff, hid]
  simp only [haccompanies, Option.map_eq_some_iff]
  constructor
  · rintro (⟨_, hmem, a, ha, rfl⟩ | ⟨j, l, hj, hl, a, ha, hgoes⟩)
    · exact ⟨a, ha, Or.inl hmem⟩
    · exact ⟨a, ha, Or.inr ⟨j, l, hj, hl, hgoes⟩⟩
  · rintro ⟨a, ha, hmem | ⟨j, l, hj, hl, hgoes⟩⟩
    · exact Or.inl ⟨_, hmem, a, ha, rfl⟩
    · exact Or.inr ⟨j, l, hj, hl, a, ha, hgoes⟩

/-- **The walk gathers just the neighbourhoods.** For every network, radius and list of ids, in whatever order and
however often repeated: the lanelets gathered are those that one of the ids reaches, with at most `radius` steps from
those that bear it and one step less from those that go with a sign, a light or an intersection that bears it; the signs
and lights are those that bear one of the ids or are referred to by a lanelet gathered; the intersections are those that
bear one of the ids or refer to a lanelet gathered. The neighbourhoods taken by levels are the same. -/
theorem gatherAll_exact (n : Network) (radius : Nat) (ids : List ElementId) :
    (∀ k, k ∈ (n.gatherAll radius ids).lanelets ↔ ∃ id ∈ ids, n.Reaches (max radius 1) id k) ∧
    (∀ k, k ∈ (n.gatherAll radius ids).trafficSigns ↔ ∃ s, n.trafficSigns.get? k = some s ∧
      (s.id ∈ ids ∨ ∃ j l, j ∈ (n.gatherAll radius ids).lanelets ∧ n.lanelets.get? j = some l ∧
        s.id ∈ l.trafficSignRefs)) ∧
    (∀ k, k ∈ (n.gatherAll radius ids).trafficLights ↔ ∃ t, n.trafficLights.get? k = some t ∧
      (t.id ∈ ids ∨ ∃ j l, j ∈ (n.gatherAll radius ids).lanelets ∧ n.lanelets.get? j = some l ∧
        t.id ∈ l.trafficLightRefs)) ∧
    (∀ k, k ∈ (n.gatherAll radius ids).intersections ↔ ∃ i, n.intersections.get? k = some i ∧
      (i.id ∈ ids ∨ ∃ j l, j ∈ (n.gatherAll radius ids).lanelets ∧ n.lanelets.get? j = some l ∧
        l.id ∈ i.lanelets)) ∧
    n.gatherAll radius ids = n.aroundAll radius ids ∧
    ∀ ids', (∀ id, id ∈ ids' ↔ id ∈ ids) → n.gatherAll radius ids' = n.gatherAll radius ids := by
  refine ⟨fun k => mem_gatherAll_lanelets,
    fun k => has_gatherAll_store n.trafficSigns (·.id) (fun s l => s.id ∈ l.trafficSignRefs) (h := ⟨.trafficSign, k⟩)
      rfl fun _ _ => Iff.rfl,
    fun k => has_gatherAll_store n.trafficLights (·.id) (fun t l => t.id ∈ l.trafficLightRefs)
      (h := ⟨.trafficLight, k⟩) rfl fun _ _ => Iff.rfl,
    fun k => has_gatherAll_store n.intersections (·.id) (fun i l => l.id ∈ i.lanelets) (h := ⟨.intersection, k⟩)
      rfl fun _ _ => Iff.rfl,
    Scope.ext_has fun h => ?_, fun ids' hids => Scope.ext_has fun h => ?_⟩
  · rw [has_gatherAll, has_aroundAll]
  · rw [has_gatherAll, has_gatherAll]
    simp only [hids]

/-- four lanelets in a row, and a sign on the third: the order of the ids does not matter, nor that one is repeated -/
theorem gatherAll_exact_row : ∃ n, n = (RoadMap.ofDocument
      { lanelets := [{ id := 1, successors := .ofList [2] }, { id := 2, successors := .ofList [3] },
          { id := 3, successors := .ofList [4], trafficSigns := .ofList [50] }, { id := 4 }],
        trafficSigns := [{ id := 50 }] }).network ∧
    (n.gatherAll 1 [1]).lanelets.toList = [0, 1] ∧ (n.gatherAll 1 [50]).lanelets.toList = [2] ∧
    (∀ id, id ∈ [50, 1, 50] ↔ id ∈ ([1, 50] : List ElementId)) ∧ n.gatherAll 1 [50, 1, 50] = n.gatherAll 1 [1, 50] := by
  refine ⟨_, rfl, ?_, ?_, by grind, (gatherAll_exact _ _ _).2.2.2.2.2 _ (by grind)⟩
  · rw [(gatherAll_exact _ _ _).2.2.2.2.1]
    decide +kernel
  · rw [(gatherAll_exact _ _ _).2.2.2.2.1]
    decide +kernel

end Network

end RoadRules
