/-
Elements that come in, and the keys they get.

- `element?_add`: an addition puts the element under the next key and changes nothing else.
- `newcomers`: the elements of a copy outside its scope. A merge gives them keys from the next key on, in the order in
  which the copy lists them (`element?_merge_new`, `nextKey_merge`).
- `element?_merge_old`: under the keys given out before, a merge writes what the copy has of the scope.
-/
import RoadRules.Proofs.Network.Rewriting

namespace RoadRules

namespace Store

variable {α : Type}

/-- keys that are not in the scope, in ascending order -/
def keysOutside (s : Store α) (scope : SortedSet Nat) : List Nat := s.keys.filter fun k => !scope.contains k

theorem keysOutside_eq (s : Store α) (scope : SortedSet Nat) :
    s.keysOutside scope = (s.entries.filter fun e => !scope.contains e.1).map (·.1) := List.filter_map

theorem length_outside (s : Store α) (scope : SortedSet Nat) :
    (s.outside scope).length = (s.keysOutside scope).length := by
  rw [keysOutside_eq, List.length_map, outside, List.length_map]

theorem getElem?_outside (s : Store α) (scope : SortedSet Nat) (i : Nat) :
    (s.outside scope)[i]? = ((s.keysOutside scope)[i]?).bind s.get? := by
  rw [keysOutside_eq, outside, List.getElem?_map, List.getElem?_map]
  cases he : (s.entries.filter fun e => !scope.contains e.1)[i]? with
  | none => rfl
  | some e =>
    have hmem : e ∈ s.entries := (List.mem_filter.1 (List.mem_of_getElem? he)).1
    exact (get?_eq_some_iff.2 hmem).symm

end Store

namespace Network

/-! ## Additions -/

/-- **Additions.** The element comes under the next key. -/
theorem element?_add (n : Network) (e : Element) (h : Handle) :
    (n.add e).element? h = if h = ⟨e.kind, n.nextKey⟩ then some e else n.element? h := by
  obtain ⟨kind, k⟩ := h
  cases e <;> cases kind <;> simp only [add, element?, Element.kind, Store.get?_insert, Handle.mk.injEq, true_and,
    reduceCtorEq, false_and, if_false]
  all_goals split_ifs <;> rfl

theorem nextKey_add (n : Network) (e : Element) : (n.add e).nextKey = n.nextKey + 1 := by cases e <;> rfl

/-! ## Newcomers -/

/-- the elements of one kind that a copy has outside the scope -/
def newcomersOf (s : Scope) (c : Network) (kind : Kind) : List Handle :=
  ((c.keys kind).filter fun k => !(s.ofKind kind).contains k).map (Handle.mk kind)

/-- the elements that a copy has outside the scope, in the order in which they are listed -/
def newcomers (s : Scope) (c : Network) : List Handle := Kind.values.flatMap (newcomersOf s c)

theorem kind_of_newcomersOf {s : Scope} {c : Network} {kind : Kind} {h : Handle} (hh : h ∈ newcomersOf s c kind) :
    h.kind = kind := by
  obtain ⟨k, -, rfl⟩ := List.mem_map.1 hh
  rfl

theorem newcomers_eq (s : Scope) (c : Network) : newcomers s c = c.allHandles.filter fun h => !s.contains h := by
  have one : ∀ kind, newcomersOf s c kind = (c.handles kind).filter fun h => !s.contains h := fun kind => by
    rw [handles, List.filter_map]; rfl
  rw [newcomers, allHandles, List.filter_flatMap]
  exact congrArg (List.flatMap · Kind.values) (funext one)

theorem mem_newcomers {s : Scope} {c : Network} {h : Handle} :
    h ∈ newcomers s c ↔ h ∈ c.allHandles ∧ ¬ s.Has h := by
  rw [newcomers_eq, List.mem_filter, Bool.not_eq_true', ← Bool.not_eq_true, Scope.contains_iff]

/-- in a list with the handles of one kind side by side these are found from where they start -/
theorem getElem?_filter_kind {kind : Kind} {before own behind : List Handle} (hbefore : ∀ h ∈ before, h.kind ≠ kind)
    (hown : ∀ h ∈ own, h.kind = kind) (hbehind : ∀ h ∈ behind, h.kind ≠ kind) (i : Nat) :
    ((before ++ (own ++ behind))[i]?).filter (·.kind == kind) =
      if i < before.length then none else own[i - before.length]? := by
  have none_of : ∀ {l : List Handle} (j : Nat), (∀ h ∈ l, h.kind ≠ kind) → (l[j]?).filter (·.kind == kind) = none := by
    intro l j hl
    cases hj : l[j]? with
    | none => rfl
    | some h => simp [hl h (List.mem_of_getElem? hj)]
  split_ifs with hi
  · rw [List.getElem?_append_left hi]
    exact none_of i hbefore
  · rw [List.getElem?_append_right (by omega)]
    by_cases hj : i - before.length < own.length
    · rw [List.getElem?_append_left hj, List.getElem?_eq_getElem hj]
      simp [hown _ (List.getElem_mem hj)]
    · rw [List.getElem?_append_right (by omega), none_of _ hbehind, List.getElem?_eq_none (by omega)]

/-! ## Merges -/

section Merge

variable {n c : Network} {s : Scope}

/-- the newcomers of the kinds before a kind -/
def newcomersBefore (s : Scope) (c : Network) (kind : Kind) : List Handle :=
  (Kind.values.takeWhile (· != kind)).flatMap (newcomersOf s c)

/-- among all newcomers those of a kind stand behind the ones of the kinds before it -/
theorem getElem?_newcomers (s : Scope) (c : Network) (kind : Kind) (i : Nat) :
    ((newcomers s c)[i]?).filter (·.kind == kind) = if i < (newcomersBefore s c kind).length then none
      else (newcomersOf s c kind)[i - (newcomersBefore s c kind).length]? := by
  obtain ⟨behind, hkinds, hbefore, hbehind⟩ : ∃ behind, Kind.values = Kind.values.takeWhile (· != kind) ++
      kind :: behind ∧ (∀ k ∈ Kind.values.takeWhile (· != kind), k ≠ kind) ∧ ∀ k ∈ behind, k ≠ kind := by
    refine ⟨(Kind.values.dropWhile (· != kind)).tail, ?_⟩
    cases kind <;> decide
  have others : ∀ kinds : List Kind, (∀ k ∈ kinds, k ≠ kind) → ∀ h ∈ kinds.flatMap (newcomersOf s c),
      h.kind ≠ kind := by
    intro kinds hk h hh
    obtain ⟨k, hkmem, hh⟩ := List.mem_flatMap.1 hh
    exact kind_of_newcomersOf hh ▸ hk k hkmem
  have hall : newcomers s c =
      newcomersBefore s c kind ++ (newcomersOf s c kind ++ behind.flatMap (newcomersOf s c)) := by
    rw [newcomers, hkinds, List.flatMap_append, List.flatMap_cons]; rfl
  rw [hall]
  exact getElem?_filter_kind (others _ hbefore) (fun h => kind_of_newcomersOf) (others _ hbehind) i

/-- of each kind a merge puts in as many elements as the copy has outside the scope -/
theorem length_outside_eq (s : Scope) (c : Network) :
    (c.lanelets.outside s.lanelets).length = (newcomersOf s c .lanelet).length ∧
      (c.trafficSigns.outside s.trafficSigns).length = (newcomersOf s c .trafficSign).length ∧
      (c.trafficLights.outside s.trafficLights).length = (newcomersOf s c .trafficLight).length ∧
      (c.intersections.outside s.intersections).length = (newcomersOf s c .intersection).length := by
  simp only [Store.length_outside, newcomersOf, List.length_map]
  exact ⟨rfl, rfl, rfl, rfl⟩

/-- what a merge writes under a key given out before: in the scope what the copy has, elsewhere what there was -/
def written? (n : Network) (s : Scope) (c : Network) (h : Handle) : Option Element :=
  if s.Has h then (n.element? h).bind fun _ => c.element? h else n.element? h

/-- a merge of one kind of elements, which come in from `key` on -/
theorem get?_merge_of_kind {α : Type} (kind : Kind) (get : Network → Store α) {wrap : α → Element}
    (hget : ∀ m : Network, ∀ k, m.element? ⟨kind, k⟩ = ((get m).get? k).map wrap)
    (hkeys : ∀ m : Network, m.keys kind = (get m).keys) (key k : Nat) :
    (((get n).merge (s.ofKind kind) (get c) key).get? k).map wrap =
      if k < key then n.written? s c ⟨kind, k⟩
      else (((newcomersOf s c kind)[k - key]?).bind c.element?).or (n.written? s c ⟨kind, k⟩) := by
  have old : (if k ∈ s.ofKind kind then ((get n).get? k).bind fun _ => (get c).get? k else (get n).get? k).map wrap =
      n.written? s c ⟨kind, k⟩ := by
    rw [written?, hget, hget]
    by_cases hk : k ∈ s.ofKind kind
    · rw [if_pos hk, if_pos (show s.Has ⟨kind, k⟩ from hk)]
      cases (get n).get? k <;> rfl
    · rw [if_neg hk, if_neg (show ¬ s.Has ⟨kind, k⟩ from hk)]
  have new : ((get c).outside (s.ofKind kind))[k - key]?.map wrap =
      ((newcomersOf s c kind)[k - key]?).bind c.element? := by
    rw [Store.getElem?_outside, newcomersOf, hkeys, List.getElem?_map]
    change Option.map wrap ((((get c).keysOutside (s.ofKind kind))[k - key]?).bind (get c).get?) =
      (Option.map (Handle.mk kind) (((get c).keysOutside (s.ofKind kind))[k - key]?)).bind c.element?
    cases ((get c).keysOutside (s.ofKind kind))[k - key]? with
    | none => rfl
    | some j => exact (hget c j).symm
  rw [Store.get?_merge_eq, apply_ite (Option.map wrap), old, Option.map_or, old, new]

/-- **Merges, kind by kind.** -/
theorem element?_merge_eq (n c : Network) (s : Scope) (kind : Kind) (k : Nat) :
    (n.merge s c).element? ⟨kind, k⟩ =
      if k < n.nextKey + (newcomersBefore s c kind).length then n.written? s c ⟨kind, k⟩
      else (((newcomersOf s c kind)[k - (n.nextKey + (newcomersBefore s c kind).length)]?).bind c.element?).or
        (n.written? s c ⟨kind, k⟩) := by
  obtain ⟨hl, hs, ht, -⟩ := length_outside_eq s c
  cases kind with
  | lanelet => exact get?_merge_of_kind .lanelet (·.lanelets) (fun _ _ => rfl) (fun _ => rfl) _ k
  | trafficSign =>
    have hkey : n.nextKey + (newcomersBefore s c .trafficSign).length =
        n.nextKey + (c.lanelets.outside s.lanelets).length := by
      simp [newcomersBefore, Kind.values, hl]
    rw [hkey]
    exact get?_merge_of_kind .trafficSign (·.trafficSigns) (fun _ _ => rfl) (fun _ => rfl) _ k
  | trafficLight =>
    have hkey : n.nextKey + (newcomersBefore s c .trafficLight).length =
        n.nextKey + (c.lanelets.outside s.lanelets).length + (c.trafficSigns.outside s.trafficSigns).length := by
      simp [newcomersBefore, Kind.values, hl, hs, Nat.add_assoc]
    rw [hkey]
    exact get?_merge_of_kind .trafficLight (·.trafficLights) (fun _ _ => rfl) (fun _ => rfl) _ k
  | intersection =>
    have hkey : n.nextKey + (newcomersBefore s c .intersection).length =
        n.nextKey + (c.lanelets.outside s.lanelets).length + (c.trafficSigns.outside s.trafficSigns).length +
          (c.trafficLights.outside s.trafficLights).length := by
      simp [newcomersBefore, Kind.values, hl, hs, ht, Nat.add_assoc]
    rw [hkey]
    exact get?_merge_of_kind .intersection (·.intersections) (fun _ _ => rfl) (fun _ => rfl) _ k

/-- **What is there before a merge.** In the scope it is written as it is in the copy, outside it stays. -/
theorem element?_merge_old {h : Handle} (hk : h.key < n.nextKey) : (n.merge s c).element? h =
    if s.Has h then (n.element? h).bind fun _ => c.element? h else n.element? h := by
  obtain ⟨kind, k⟩ := h
  rw [element?_merge_eq, if_pos (Nat.lt_of_lt_of_le hk (Nat.le_add_right _ _)), written?]

/-- **What comes in with a merge.** The newcomers get the next keys one after the other. -/
theorem element?_merge_new (hn : ∀ h ∈ n.allHandles, h.key < n.nextKey) {h : Handle} (hk : n.nextKey ≤ h.key) :
    (n.merge s c).element? h =
      (((newcomers s c)[h.key - n.nextKey]?).filter (·.kind == h.kind)).bind c.element? := by
  obtain ⟨kind, k⟩ := h
  have absent : n.element? ⟨kind, k⟩ = none := by
    refine Option.eq_none_iff_forall_ne_some.2 fun e he => ?_
    have := hn _ (mem_allHandles.2 ⟨e.id, idOf?_of_element? he⟩)
    omega
  simp only at hk
  rw [element?_merge_eq, getElem?_newcomers, written?, absent]
  simp only [Option.bind_none, ite_self, Option.or_none]
  by_cases hlt : k < n.nextKey + (newcomersBefore s c kind).length
  · rw [if_pos hlt, if_pos (by omega)]
    rfl
  · rw [if_neg hlt, if_neg (by omega), Nat.sub_add_eq]

theorem nextKey_merge (n : Network) (s : Scope) (c : Network) :
    (n.merge s c).nextKey = n.nextKey + (newcomers s c).length := by
  obtain ⟨hl, hs, ht, hi⟩ := length_outside_eq s c
  simp only [merge, hl, hs, ht, hi, newcomers, Kind.values, List.flatMap_cons, List.flatMap_nil, List.append_nil,
    List.length_append, Nat.add_assoc]

end Merge

end Network

end RoadRules
