/-
Copies of scopes, and what comes of writing them back.

An edited copy (`EditedCopy`) still has the external ids of the copy it started as and holds nothing that was not there
at first. What an edit may do to the elements themselves is left open.

- `resolves_extract`: a copy resolves the same references as the network.
- `element?_merge`: writing a copy back replaces what is in the scope and leaves all else alone.
- `resolves_merge`: afterwards the network resolves what the copy resolves.
-/
import RoadRules.Proofs.Network.Lookup

namespace RoadRules

theorem SortedSet.contains_eq {α : Type} [LT α] [DecidableEq α] (s : SortedSet α) (a : α) :
    s.contains a = decide (a ∈ s) := rfl

/-! ## Scopes -/

namespace Scope

/-- is the element in the scope? -/
def Has (s : Scope) (h : Handle) : Prop := h.key ∈ s.ofKind h.kind

instance (s : Scope) (h : Handle) : Decidable (s.Has h) := inferInstanceAs (Decidable (h.key ∈ s.ofKind h.kind))

theorem contains_iff {s : Scope} {h : Handle} : s.contains h = true ↔ s.Has h := SortedSet.contains_iff

theorem has_insert {s : Scope} {g h : Handle} : (s.insert g).Has h ↔ h = g ∨ s.Has h := by
  obtain ⟨gk, g⟩ := g
  obtain ⟨hk, h⟩ := h
  cases gk <;> cases hk <;> simp [Has, insert, ofKind]

theorem has_insertAll {s : Scope} {hs : List Handle} {h : Handle} : (s.insertAll hs).Has h ↔ h ∈ hs ∨ s.Has h := by
  unfold insertAll
  induction hs generalizing s with
  | nil => simp
  | cons g hs ih => rw [List.foldl_cons, ih, has_insert, List.mem_cons, ← or_assoc, or_comm (a := h ∈ hs)]

theorem has_union {s t : Scope} {h : Handle} : (s.union t).Has h ↔ s.Has h ∨ t.Has h := by
  obtain ⟨kind, h⟩ := h
  cases kind <;> exact SortedSet.mem_union

end Scope

namespace Network

/-! ## Copies -/

@[simp] theorem get?_extract_lanelet (n : Network) (s : Scope) (k : Nat) :
    (n.extract s).lanelets.get? k = if k ∈ s.lanelets then n.lanelets.get? k else none := by
  simp [extract, SortedSet.contains_eq]

@[simp] theorem get?_extract_trafficSign (n : Network) (s : Scope) (k : Nat) :
    (n.extract s).trafficSigns.get? k = if k ∈ s.trafficSigns then n.trafficSigns.get? k else none := by
  simp [extract, SortedSet.contains_eq]

@[simp] theorem get?_extract_trafficLight (n : Network) (s : Scope) (k : Nat) :
    (n.extract s).trafficLights.get? k = if k ∈ s.trafficLights then n.trafficLights.get? k else none := by
  simp [extract, SortedSet.contains_eq]

@[simp] theorem get?_extract_intersection (n : Network) (s : Scope) (k : Nat) :
    (n.extract s).intersections.get? k = if k ∈ s.intersections then n.intersections.get? k else none := by
  simp [extract, SortedSet.contains_eq]

theorem element?_extract (n : Network) (s : Scope) (h : Handle) :
    (n.extract s).element? h = if s.Has h then n.element? h else none := by
  obtain ⟨kind, k⟩ := h
  cases kind <;> simp only [element?, get?_extract_lanelet, get?_extract_trafficSign, get?_extract_trafficLight,
    get?_extract_intersection]
  all_goals exact apply_ite (Option.map _) _ _ _

theorem idOf?_extract (n : Network) (s : Scope) (h : Handle) :
    (n.extract s).idOf? h = if s.Has h then n.idOf? h else none := by
  rw [idOf?_eq, idOf?_eq, element?_extract]
  exact apply_ite (Option.map _) _ _ _

theorem element?_extract_of_has {n : Network} {s : Scope} {h : Handle} (hs : s.Has h) :
    (n.extract s).element? h = n.element? h := by
  rw [element?_extract, if_pos hs]

theorem idOf?_extract_of_has {n : Network} {s : Scope} {h : Handle} (hs : s.Has h) :
    (n.extract s).idOf? h = n.idOf? h := by
  rw [idOf?_extract, if_pos hs]

theorem element?_of_extract {n : Network} {s : Scope} {h : Handle} {e : Element}
    (he : (n.extract s).element? h = some e) : s.Has h ∧ n.element? h = some e := by
  rw [element?_extract] at he
  split_ifs at he with hs
  exact ⟨hs, he⟩

theorem idOf?_of_extract {n : Network} {s : Scope} {h : Handle} {id : ElementId}
    (hid : (n.extract s).idOf? h = some id) : s.Has h ∧ n.idOf? h = some id := by
  rw [idOf?_extract] at hid
  split_ifs at hid with hs
  exact ⟨hs, hid⟩

theorem external_extract {n : Network} {s : Scope} {kind : Kind} {id : ElementId} :
    (n.extract s).external.contains kind id = true ↔
      n.external.contains kind id = true ∨ ∃ k, ¬ s.Has ⟨kind, k⟩ ∧ n.idOf? ⟨kind, k⟩ = some id := by
  cases kind <;> simp only [ExternalIds.contains, ExternalIds.ofKind, extract, SortedSet.contains_iff,
    SortedSet.mem_insertAll, List.mem_map, Store.mem_outside, Scope.Has, Scope.ofKind, idOf?_lanelet, idOf?_trafficSign,
    idOf?_trafficLight, idOf?_intersection, Option.map_eq_some_iff]
  all_goals
    refine or_congr_right ⟨?_, ?_⟩
    · rintro ⟨v, ⟨k, hv, hk⟩, rfl⟩; exact ⟨k, hk, v, hv, rfl⟩
    · rintro ⟨k, hk, v, hv, rfl⟩; exact ⟨v, ⟨k, hv, hk⟩, rfl⟩

/-- **A copy resolves the same references.** -/
theorem resolves_extract (n : Network) (s : Scope) (kind : Kind) (id : ElementId) :
    (n.extract s).resolves kind id = n.resolves kind id := by
  rw [Bool.eq_iff_iff, resolves_iff, resolves_iff, external_extract]
  constructor
  · rintro ((he | ⟨k, -, hk⟩) | ⟨k, hk⟩)
    · exact Or.inl he
    · exact Or.inr ⟨k, hk⟩
    · exact Or.inr ⟨k, (idOf?_of_extract hk).2⟩
  · rintro (he | ⟨k, hk⟩)
    · exact Or.inl (Or.inl he)
    · by_cases hs : s.Has ⟨kind, k⟩
      · exact Or.inr ⟨k, (idOf?_extract_of_has hs).trans hk⟩
      · exact Or.inl (Or.inr ⟨k, hs, hk⟩)

/-! ## Edited copies -/

/-- a copy of a scope, edited without putting anything in -/
structure EditedCopy (n : Network) (s : Scope) (copy : Network) : Prop where
  external : copy.external = (n.extract s).external
  present : ∀ h id, copy.idOf? h = some id → ∃ old, (n.extract s).idOf? h = some old

namespace EditedCopy

variable {n copy : Network} {s : Scope}

theorem refl (n : Network) (s : Scope) : EditedCopy n s (n.extract s) := ⟨rfl, fun _ id h => ⟨id, h⟩⟩

theorem inside (hc : EditedCopy n s copy) {h : Handle} {id : ElementId} (hid : copy.idOf? h = some id) :
    s.Has h ∧ ∃ old, n.idOf? h = some old := by
  obtain ⟨old, ho⟩ := hc.present h id hid
  exact ⟨(idOf?_of_extract ho).1, old, (idOf?_of_extract ho).2⟩

/-- for a kind whose store is `get`, what the copy holds under a key is in the scope, and the network has the key too -/
theorem inside_store (hc : EditedCopy n s copy) {α : Type} (kind : Kind) (get : Network → Store α) (id : α → ElementId)
    (hget : ∀ m : Network, ∀ k, m.idOf? ⟨kind, k⟩ = ((get m).get? k).map id) {k : Nat} {v : α}
    (hv : (get copy).get? k = some v) : k ∈ s.ofKind kind ∧ ∃ old, (get n).get? k = some old := by
  obtain ⟨hk, old, ho⟩ := hc.inside (h := ⟨kind, k⟩) (by rw [hget, hv]; rfl)
  rw [hget] at ho
  obtain ⟨w, hw, -⟩ := Option.map_eq_some_iff.1 ho
  exact ⟨hk, w, hw⟩

end EditedCopy

/-- **A merge of elements that are in the scope.** Those that the network has lost do not come back. -/
theorem element?_merge_of_inside {n copy : Network} {s : Scope} (h : ∀ x id, copy.idOf? x = some id → s.Has x)
    (x : Handle) : (n.merge s copy).element? x =
      if s.Has x then (n.element? x).bind fun _ => copy.element? x else n.element? x := by
  have store : ∀ {α : Type} (kind : Kind) (get : Network → Store α) (id : α → ElementId) (wrap : α → Element),
      (∀ m : Network, ∀ k, m.idOf? ⟨kind, k⟩ = ((get m).get? k).map id) → ∀ key k,
      (((get n).merge (s.ofKind kind) (get copy) key).get? k).map wrap = if s.Has ⟨kind, k⟩ then
        (((get n).get? k).map wrap).bind fun _ => ((get copy).get? k).map wrap else ((get n).get? k).map wrap := by
    intro α kind get id wrap hget key k
    rw [Store.get?_merge fun k v hv => h ⟨kind, k⟩ (id v) (by rw [hget, hv]; rfl)]
    by_cases hk : k ∈ s.ofKind kind
    · rw [if_pos hk, if_pos (show s.Has ⟨kind, k⟩ from hk)]
      cases (get n).get? k <;> rfl
    · rw [if_neg hk, if_neg (show ¬ s.Has ⟨kind, k⟩ from hk)]
  obtain ⟨kind, k⟩ := x
  cases kind with
  | lanelet => exact store .lanelet (·.lanelets) (·.id) .lanelet (fun _ _ => rfl) _ k
  | trafficSign => exact store .trafficSign (·.trafficSigns) (·.id) .trafficSign (fun _ _ => rfl) _ k
  | trafficLight => exact store .trafficLight (·.trafficLights) (·.id) .trafficLight (fun _ _ => rfl) _ k
  | intersection => exact store .intersection (·.intersections) (·.id) .intersection (fun _ _ => rfl) _ k

section Merge

variable {n copy : Network} {s : Scope} (hc : EditedCopy n s copy)

include hc

theorem element?_merge (h : Handle) :
    (n.merge s copy).element? h = if s.Has h then copy.element? h else n.element? h := by
  rw [element?_merge_of_inside fun x id hid => (hc.inside hid).1]
  split_ifs with hs
  · cases he : copy.element? h with
    | none => cases n.element? h <;> rfl
    | some e =>
      obtain ⟨-, old, ho⟩ := hc.inside (idOf?_of_element? he)
      obtain ⟨e₀, he₀, -⟩ := exists_element ho
      rw [he₀]; rfl
  · rfl

theorem idOf?_merge (h : Handle) : (n.merge s copy).idOf? h = if s.Has h then copy.idOf? h else n.idOf? h := by
  rw [idOf?_eq, idOf?_eq, idOf?_eq, element?_merge hc]
  exact apply_ite (Option.map _) _ _ _

/-- **After the merge the network resolves what the copy resolves.** -/
theorem resolves_merge (kind : Kind) (id : ElementId) : (n.merge s copy).resolves kind id = copy.resolves kind id := by
  rw [Bool.eq_iff_iff, resolves_iff, resolves_iff, hc.external, external_extract]
  have hext : (n.merge s copy).external = n.external := rfl
  rw [hext]
  constructor
  · rintro (he | ⟨k, hk⟩)
    · exact Or.inl (Or.inl he)
    · rw [idOf?_merge hc] at hk
      split_ifs at hk with hs
      · exact Or.inr ⟨k, hk⟩
      · exact Or.inl (Or.inr ⟨k, hs, hk⟩)
  · rintro ((he | ⟨k, hs, hk⟩) | ⟨k, hk⟩)
    · exact Or.inl he
    · exact Or.inr ⟨k, by rw [idOf?_merge hc, if_neg hs]; exact hk⟩
    · exact Or.inr ⟨k, by rw [idOf?_merge hc, if_pos (hc.inside hk).1]; exact hk⟩

end Merge

end Network

end RoadRules
