/-
Looking up elements by key.

A store is known by what it holds under each key (`Store.ext_get?`), and every operation on it by what it does there
(`get?_insert`, `get?_modify`, `get?_erase`, `get?_restrict`, `get?_merge_eq`). For a network the same view is `idOf?`,
the id borne by the element of a handle: `mem_handles`, `mem_handlesWithId` and `resolves_iff` say in terms of it what a
network lists and which references it resolves.
-/
import Mathlib.Tactic
import RoadRules.Network.Scope

namespace RoadRules

/-! ## Lists of pairs -/

/-- in a list with one pair for each first item, looking up finds just the pairs there are -/
theorem lookup_eq_some_iff {α β : Type} [DecidableEq α] {l : List (α × β)} (hn : (l.map (·.1)).Nodup) {a : α} {b : β} :
    l.lookup a = some b ↔ (a, b) ∈ l := by
  induction l with
  | nil => simp
  | cons e rest ih =>
    obtain ⟨k, c⟩ := e
    simp only [List.map_cons, List.nodup_cons] at hn
    rw [List.lookup_cons]
    by_cases hk : a = k
    · subst hk
      have : (a, b) ∉ rest := fun h => hn.1 (List.mem_map.2 ⟨_, h, rfl⟩)
      simp [this, eq_comm]
    · simp [beq_eq_false_iff_ne.mpr hk, hk, ih hn.2]

/-! ## Stores -/

namespace Store

variable {α : Type}

theorem find?_key {l : List (Nat × α)} (hl : l.Pairwise fun a b => a.1 < b.1) {k : Nat} {v : α} :
    l.find? (·.1 == k) = some (k, v) ↔ (k, v) ∈ l := by
  constructor
  · exact fun h => List.mem_of_find?_eq_some h
  · intro h
    induction l with
    | nil => simp at h
    | cons e rest ih =>
      obtain ⟨first, others⟩ := List.pairwise_cons.1 hl
      rcases List.mem_cons.1 h with rfl | h
      · simp
      · have : e.1 ≠ k := by have := first _ h; simp only at this; omega
        rw [List.find?_cons_of_neg (by simpa using this)]
        exact ih others h

theorem get?_eq_some_iff {s : Store α} {k : Nat} {v : α} : s.get? k = some v ↔ (k, v) ∈ s.entries := by
  rw [← find?_key s.ascending]
  unfold get?
  constructor
  · intro h
    obtain ⟨e, he, rfl⟩ := Option.map_eq_some_iff.1 h
    have hk : e.1 = k := by simpa using List.find?_some he
    rw [he, ← hk]
  · intro h
    rw [h]; rfl

theorem entries_inj {s t : Store α} (h : s.entries = t.entries) : s = t := by
  cases s; cases t; cases h; rfl

theorem sorted_entries_eq {l m : List (Nat × α)} (hl : l.Pairwise fun a b => a.1 < b.1)
    (hm : m.Pairwise fun a b => a.1 < b.1) (h : ∀ e, e ∈ l ↔ e ∈ m) : l = m := by
  induction l generalizing m with
  | nil => exact (List.eq_nil_iff_forall_not_mem.2 fun e he => List.not_mem_nil ((h e).2 he)).symm
  | cons a l ih =>
    cases m with
    | nil => exact absurd ((h a).1 List.mem_cons_self) List.not_mem_nil
    | cons b m =>
      obtain ⟨al, sl⟩ := List.pairwise_cons.1 hl
      obtain ⟨bm, sm⟩ := List.pairwise_cons.1 hm
      have e : a = b := by
        rcases List.mem_cons.1 ((h a).1 List.mem_cons_self) with e | am
        · exact e
        · rcases List.mem_cons.1 ((h b).2 List.mem_cons_self) with e | bl
          · exact e.symm
          · have := al b bl; have := bm a am; omega
      subst e
      refine congrArg _ (ih sl sm fun c => ⟨fun hc => ?_, fun hc => ?_⟩)
      · rcases List.mem_cons.1 ((h c).1 (List.mem_cons_of_mem _ hc)) with rfl | hm
        · exact absurd (al c hc) (Nat.lt_irrefl _)
        · exact hm
      · rcases List.mem_cons.1 ((h c).2 (List.mem_cons_of_mem _ hc)) with rfl | hm
        · exact absurd (bm c hc) (Nat.lt_irrefl _)
        · exact hm

/-- stores that hold the same under every key are equal -/
theorem ext_get? {s t : Store α} (h : ∀ k, s.get? k = t.get? k) : s = t := by
  refine entries_inj (sorted_entries_eq s.ascending t.ascending fun e => ?_)
  obtain ⟨k, v⟩ := e
  rw [← get?_eq_some_iff, ← get?_eq_some_iff, h]

theorem mem_values {s : Store α} {v : α} : v ∈ s.values ↔ ∃ k, s.get? k = some v := by
  simp [values, get?_eq_some_iff]

theorem mem_keys {s : Store α} {k : Nat} : k ∈ s.keys ↔ ∃ v, s.get? k = some v := by
  simp [keys, get?_eq_some_iff]

theorem nodup_keys (s : Store α) : s.keys.Nodup := List.pairwise_map.2 (s.ascending.imp fun h => Nat.ne_of_lt h)

theorem contains_iff {s : Store α} {k : Nat} : s.contains k = true ↔ ∃ v, s.get? k = some v := by
  simp [contains, Option.isSome_iff_exists]

theorem mem_insertInto_iff {key : Nat} {v : α} {l : List (Nat × α)} (hl : l.Pairwise fun a b => a.1 < b.1)
    {e : Nat × α} : e ∈ insertInto key v l ↔ e = (key, v) ∨ e ∈ l ∧ e.1 ≠ key := by
  induction l with
  | nil => simp [insertInto]
  | cons c rest ih =>
    obtain ⟨first, others⟩ := List.pairwise_cons.1 hl
    unfold insertInto
    split_ifs with hlt heq
    · have later : ∀ e ∈ c :: rest, e.1 ≠ key := by
        rintro e he rfl
        rcases List.mem_cons.1 he with rfl | he
        · omega
        · have := first e he; omega
      rw [List.mem_cons]
      exact or_congr_right ⟨fun he => ⟨he, later e he⟩, fun he => he.1⟩
    · have later : ∀ e ∈ rest, e.1 ≠ key := by
        rintro e he rfl
        have := first e he; omega
      rw [List.mem_cons, List.mem_cons]
      refine or_congr_right ⟨fun he => ⟨Or.inr he, later e he⟩, ?_⟩
      rintro ⟨rfl | he, hne⟩
      · exact absurd heq.symm hne
      · exact he
    · rw [List.mem_cons, ih others, List.mem_cons]
      constructor
      · rintro (rfl | rfl | ⟨he, hne⟩)
        · exact Or.inr ⟨Or.inl rfl, Ne.symm heq⟩
        · exact Or.inl rfl
        · exact Or.inr ⟨Or.inr he, hne⟩
      · rintro (rfl | ⟨rfl | he, hne⟩)
        · exact Or.inr (Or.inl rfl)
        · exact Or.inl rfl
        · exact Or.inr (Or.inr ⟨he, hne⟩)

theorem get?_insert (s : Store α) (key : Nat) (v : α) (k : Nat) :
    (s.insert key v).get? k = if k = key then some v else s.get? k := by
  ext w
  rw [get?_eq_some_iff, insert, mem_insertInto_iff s.ascending]
  split_ifs with hk
  · subst hk
    simp [eq_comm]
  · simp [hk, get?_eq_some_iff]

theorem get?_insertFrom (s : Store α) (key : Nat) (vs : List α) (k : Nat) :
    (s.insertFrom key vs).get? k = if k < key then s.get? k else (vs[k - key]?).or (s.get? k) := by
  induction vs generalizing s key with
  | nil => simp [insertFrom]
  | cons v rest ih =>
    rw [insertFrom, ih, get?_insert]
    rcases Nat.lt_trichotomy k key with hlt | rfl | hgt
    · rw [if_pos (by omega), if_pos hlt, if_neg (by omega)]
    · simp
    · obtain ⟨i, rfl⟩ : ∃ i, k = key + 1 + i := ⟨k - (key + 1), by omega⟩
      have hi : key + 1 + i - key = i + 1 := by omega
      rw [if_neg (by omega), if_neg (by omega), if_neg (by omega), hi, List.getElem?_cons_succ,
        Nat.add_sub_cancel_left]

@[simp] theorem get?_mapEntries (s : Store α) (f : Nat → α → α) (k : Nat) :
    (s.mapEntries f).get? k = (s.get? k).map (f k) := by
  ext v
  simp only [get?_eq_some_iff, mapEntries, List.mem_map, Option.map_eq_some_iff, Prod.mk.injEq, Prod.exists]
  constructor
  · rintro ⟨a, b, hm, rfl, rfl⟩; exact ⟨b, hm, rfl⟩
  · rintro ⟨b, hm, rfl⟩; exact ⟨k, b, hm, rfl, rfl⟩

@[simp] theorem get?_map (s : Store α) (f : α → α) (k : Nat) : (s.map f).get? k = (s.get? k).map f :=
  get?_mapEntries s _ k

@[simp] theorem get?_modify (s : Store α) (key : Nat) (f : α → α) (k : Nat) :
    (s.modify key f).get? k = if k = key then (s.get? k).map f else s.get? k := by
  rw [modify, get?_mapEntries]
  split
  · rfl
  · simp

@[simp] theorem get?_replace (s : Store α) (key : Nat) (v : α) (k : Nat) :
    (s.replace key v).get? k = if k = key then (s.get? k).map fun _ => v else s.get? k :=
  get?_modify s key _ k

@[simp] theorem get?_restrict (s : Store α) (p : Nat → Bool) (k : Nat) :
    (s.restrict p).get? k = if p k then s.get? k else none := by
  ext v
  simp only [get?_eq_some_iff, restrict, List.mem_filter]
  split
  · next h => simp [get?_eq_some_iff, h]
  · next h => simp [h]

@[simp] theorem get?_erase (s : Store α) (key : Nat) (k : Nat) :
    (s.erase key).get? k = if k = key then none else s.get? k := by
  have : s.erase key = s.restrict (· != key) := rfl
  rw [this, get?_restrict]
  by_cases h : k = key <;> simp [h]

theorem mem_outside {s : Store α} {scope : SortedSet Nat} {v : α} :
    v ∈ s.outside scope ↔ ∃ k, s.get? k = some v ∧ ¬ k ∈ scope := by
  simp only [outside, List.mem_map, List.mem_filter, Prod.exists, get?_eq_some_iff, Bool.not_eq_true',
    ← Bool.not_eq_true, SortedSet.contains_iff]
  constructor
  · rintro ⟨k, v, h, rfl⟩; exact ⟨k, h⟩
  · rintro ⟨k, h⟩; exact ⟨k, v, h, rfl⟩

/-- what a merge writes under the keys given out before -/
theorem get?_updated (s copy : Store α) (scope : SortedSet Nat) (k : Nat) :
    ((s.restrict fun k => !scope.contains k || copy.contains k).mapEntries fun k old =>
      if scope.contains k then (copy.get? k).getD old else old).get? k =
      if k ∈ scope then (s.get? k).bind fun _ => copy.get? k else s.get? k := by
  have hc : ∀ k, scope.contains k = decide (k ∈ scope) := fun _ => rfl
  simp only [get?_mapEntries, get?_restrict, hc]
  by_cases hk : k ∈ scope
  · simp only [hk, decide_true, Bool.not_true, Bool.false_or, if_true]
    cases hcopy : copy.get? k with
    | none => simp [contains, hcopy]
    | some v => cases s.get? k <;> simp [contains, hcopy]
  · simp [hk]

/-- **A merge, key by key.** From `key` on come the values that the copy has outside the scope. -/
theorem get?_merge_eq (s : Store α) (scope : SortedSet Nat) (copy : Store α) (key k : Nat) :
    (s.merge scope copy key).get? k =
      if k < key then if k ∈ scope then (s.get? k).bind fun _ => copy.get? k else s.get? k
      else ((copy.outside scope)[k - key]?).or
        (if k ∈ scope then (s.get? k).bind fun _ => copy.get? k else s.get? k) := by
  simp only [merge, get?_insertFrom, get?_updated]

/-- A copy with nothing outside the scope puts nothing in: what is in the scope is as in the copy. -/
theorem get?_merge {s copy : Store α} {scope : SortedSet Nat} (h : ∀ k v, copy.get? k = some v → k ∈ scope)
    (key k : Nat) : (s.merge scope copy key).get? k =
      if k ∈ scope then (s.get? k).bind fun _ => copy.get? k else s.get? k := by
  have outer : copy.outside scope = [] := by
    refine List.eq_nil_iff_forall_not_mem.2 fun v hv => ?_
    obtain ⟨k, hk, hn⟩ := mem_outside.1 hv
    exact hn (h k v hk)
  rw [get?_merge_eq, outer, List.getElem?_nil, Option.none_or, ite_self]

end Store

/-! ## Networks -/

namespace Network

@[simp] theorem idOf?_lanelet (n : Network) (k : Nat) : n.idOf? ⟨.lanelet, k⟩ = (n.lanelets.get? k).map (·.id) := rfl

@[simp] theorem idOf?_trafficSign (n : Network) (k : Nat) :
    n.idOf? ⟨.trafficSign, k⟩ = (n.trafficSigns.get? k).map (·.id) := rfl

@[simp] theorem idOf?_trafficLight (n : Network) (k : Nat) :
    n.idOf? ⟨.trafficLight, k⟩ = (n.trafficLights.get? k).map (·.id) := rfl

@[simp] theorem idOf?_intersection (n : Network) (k : Nat) :
    n.idOf? ⟨.intersection, k⟩ = (n.intersections.get? k).map (·.id) := rfl

theorem mem_kinds (k : Kind) : k ∈ Kind.values := by cases k <;> decide

theorem mem_keys {n : Network} {kind : Kind} {k : Nat} : k ∈ n.keys kind ↔ ∃ id, n.idOf? ⟨kind, k⟩ = some id := by
  cases kind <;> simp [keys, Store.mem_keys]

theorem mem_handles {n : Network} {kind : Kind} {h : Handle} :
    h ∈ n.handles kind ↔ h.kind = kind ∧ ∃ id, n.idOf? h = some id := by
  obtain ⟨hk, key⟩ := h
  simp only [handles, List.mem_map, Handle.mk.injEq, mem_keys]
  constructor
  · rintro ⟨k, hid, rfl, rfl⟩; exact ⟨rfl, hid⟩
  · rintro ⟨rfl, hid⟩; exact ⟨key, hid, rfl, rfl⟩

theorem mem_allHandles {n : Network} {h : Handle} : h ∈ n.allHandles ↔ ∃ id, n.idOf? h = some id := by
  simp only [allHandles, List.mem_flatMap, mem_handles]
  exact ⟨fun ⟨_, _, _, hid⟩ => hid, fun hid => ⟨h.kind, mem_kinds _, rfl, hid⟩⟩

theorem mem_ids {n : Network} {kind : Kind} {id : ElementId} :
    id ∈ n.ids kind ↔ ∃ k, n.idOf? ⟨kind, k⟩ = some id := by
  cases kind <;> simp only [ids, List.mem_map, Store.mem_values, idOf?_lanelet, idOf?_trafficSign, idOf?_trafficLight,
    idOf?_intersection, Option.map_eq_some_iff]
  all_goals
    constructor
    · rintro ⟨v, ⟨k, hv⟩, rfl⟩; exact ⟨k, v, hv, rfl⟩
    · rintro ⟨k, v, hv, rfl⟩; exact ⟨v, ⟨k, hv⟩, rfl⟩

theorem mem_allIds {n : Network} {id : ElementId} : id ∈ n.allIds ↔ ∃ h, n.idOf? h = some id := by
  simp only [allIds, List.mem_flatMap, mem_ids]
  exact ⟨fun ⟨kind, _, k, hid⟩ => ⟨⟨kind, k⟩, hid⟩, fun ⟨h, hid⟩ => ⟨h.kind, mem_kinds _, h.key, hid⟩⟩

theorem mem_laneletsWithId {n : Network} {id : ElementId} {k : Nat} :
    k ∈ n.laneletsWithId id ↔ ∃ l, n.lanelets.get? k = some l ∧ l.id = id := by
  simp [laneletsWithId, Store.get?_eq_some_iff]

theorem mem_trafficSignsWithId {n : Network} {id : ElementId} {k : Nat} :
    k ∈ n.trafficSignsWithId id ↔ ∃ s, n.trafficSigns.get? k = some s ∧ s.id = id := by
  simp [trafficSignsWithId, Store.get?_eq_some_iff]

theorem mem_trafficLightsWithId {n : Network} {id : ElementId} {k : Nat} :
    k ∈ n.trafficLightsWithId id ↔ ∃ t, n.trafficLights.get? k = some t ∧ t.id = id := by
  simp [trafficLightsWithId, Store.get?_eq_some_iff]

theorem mem_intersectionsWithId {n : Network} {id : ElementId} {k : Nat} :
    k ∈ n.intersectionsWithId id ↔ ∃ i, n.intersections.get? k = some i ∧ i.id = id := by
  simp [intersectionsWithId, Store.get?_eq_some_iff]

theorem mem_keysWithId {n : Network} {kind : Kind} {id : ElementId} {k : Nat} :
    k ∈ n.keysWithId kind id ↔ n.idOf? ⟨kind, k⟩ = some id := by
  cases kind <;> simp [keysWithId, mem_laneletsWithId, mem_trafficSignsWithId, mem_trafficLightsWithId,
    mem_intersectionsWithId]

theorem mem_handlesWithId {n : Network} {id : ElementId} {h : Handle} :
    h ∈ n.handlesWithId id ↔ n.idOf? h = some id := by
  obtain ⟨kind, key⟩ := h
  simp only [handlesWithId, List.mem_flatMap, List.mem_map, Handle.mk.injEq, mem_keysWithId]
  constructor
  · rintro ⟨kind, -, key, hid, rfl, rfl⟩; exact hid
  · intro hid; exact ⟨kind, mem_kinds _, key, hid, rfl, rfl⟩

theorem hasLocal_iff {n : Network} {kind : Kind} {id : ElementId} :
    n.hasLocal kind id = true ↔ ∃ k, n.idOf? ⟨kind, k⟩ = some id := by
  rw [hasLocal, List.contains_iff_mem, mem_ids]

/-- an id resolves if it is external or some element of the kind bears it -/
theorem resolves_iff {n : Network} {kind : Kind} {id : ElementId} :
    n.resolves kind id = true ↔ n.external.contains kind id = true ∨ ∃ k, n.idOf? ⟨kind, k⟩ = some id := by
  rw [resolves, Bool.or_eq_true, hasLocal_iff]

/-! ### Elements by handle -/

theorem element?_eq_lanelet {n : Network} {h : Handle} {l : Lanelet} :
    n.element? h = some (.lanelet l) ↔ ∃ k, h = ⟨.lanelet, k⟩ ∧ n.lanelets.get? k = some l := by
  obtain ⟨kind, k⟩ := h
  cases kind <;> simp [element?]

theorem element?_eq_trafficSign {n : Network} {h : Handle} {s : TrafficSign} :
    n.element? h = some (.trafficSign s) ↔ ∃ k, h = ⟨.trafficSign, k⟩ ∧ n.trafficSigns.get? k = some s := by
  obtain ⟨kind, k⟩ := h
  cases kind <;> simp [element?]

theorem element?_eq_trafficLight {n : Network} {h : Handle} {t : TrafficLight} :
    n.element? h = some (.trafficLight t) ↔ ∃ k, h = ⟨.trafficLight, k⟩ ∧ n.trafficLights.get? k = some t := by
  obtain ⟨kind, k⟩ := h
  cases kind <;> simp [element?]

theorem element?_eq_intersection {n : Network} {h : Handle} {i : Intersection} :
    n.element? h = some (.intersection i) ↔ ∃ k, h = ⟨.intersection, k⟩ ∧ n.intersections.get? k = some i := by
  obtain ⟨kind, k⟩ := h
  cases kind <;> simp [element?]

theorem exists_lanelet_iff {n : Network} (x : Handle) :
    (∃ l, n.element? x = some (.lanelet l)) ↔ x.kind = .lanelet ∧ ∃ e, n.element? x = some e := by
  obtain ⟨kind, k⟩ := x
  cases kind <;> simp [element?]

theorem exists_trafficSign_iff {n : Network} (x : Handle) :
    (∃ s, n.element? x = some (.trafficSign s)) ↔ x.kind = .trafficSign ∧ ∃ e, n.element? x = some e := by
  obtain ⟨kind, k⟩ := x
  cases kind <;> simp [element?]

theorem exists_trafficLight_iff {n : Network} (x : Handle) :
    (∃ t, n.element? x = some (.trafficLight t)) ↔ x.kind = .trafficLight ∧ ∃ e, n.element? x = some e := by
  obtain ⟨kind, k⟩ := x
  cases kind <;> simp [element?]

theorem exists_intersection_iff {n : Network} (x : Handle) :
    (∃ i, n.element? x = some (.intersection i)) ↔ x.kind = .intersection ∧ ∃ e, n.element? x = some e := by
  obtain ⟨kind, k⟩ := x
  cases kind <;> simp [element?]

theorem idOf?_eq (n : Network) (h : Handle) : n.idOf? h = (n.element? h).map Element.id := by
  obtain ⟨kind, k⟩ := h
  cases kind <;> simp [element?, Function.comp_def, Element.id]

theorem idOf?_of_element? {n : Network} {h : Handle} {e : Element} (he : n.element? h = some e) :
    n.idOf? h = some e.id := by
  rw [idOf?_eq, he]; rfl

theorem exists_element {n : Network} {h : Handle} {id : ElementId} (hid : n.idOf? h = some id) :
    ∃ e, n.element? h = some e ∧ e.id = id :=
  Option.map_eq_some_iff.1 (n.idOf?_eq h ▸ hid)

/-- an id borne after an addition is the one of the new element or was borne before -/
theorem idOf?_add {n : Network} {e : Element} {x : Handle} {id : ElementId} (h : (n.add e).idOf? x = some id) :
    id = e.id ∨ n.idOf? x = some id := by
  -- the store of the element's own kind has the new entry, the others are as they were
  have inserted : ∀ {α : Type} {s : Store α} {bears : α → ElementId} {v : α} {k : Nat},
      ((s.insert n.nextKey v).get? k).map bears = some id → id = bears v ∨ (s.get? k).map bears = some id := by
    intro α s bears v k hid
    obtain ⟨w, hw, rfl⟩ := Option.map_eq_some_iff.1 hid
    rw [Store.get?_insert] at hw
    split_ifs at hw
    · exact Or.inl (by rw [Option.some.inj hw])
    · exact Or.inr (by rw [hw]; rfl)
  obtain ⟨kind, k⟩ := x
  cases e <;> cases kind <;> first | exact Or.inr h | exact inserted h

end Network

end RoadRules
