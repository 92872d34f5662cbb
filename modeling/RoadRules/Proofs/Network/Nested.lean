/-
Copies of copies.

- `extract_extract`: a copy from a copy is a copy from the network, of the elements that are in both scopes.
- `foldl_extract`: so is a copy at any depth, of the elements that are in all scopes.
- `copies_compose`: what a part of a part holds and resolves. The repair of a violation inside a block copies from a
  copy, and what it takes for dangling must be so in the whole network.
-/
import RoadRules.Proofs.Network.Rewriting

namespace RoadRules

theorem Scope.has_inter {s t : Scope} {h : Handle} : (s.inter t).Has h ↔ s.Has h ∧ t.Has h := by
  obtain ⟨kind, h⟩ := h
  cases kind <;> exact SortedSet.mem_inter

/-- external ids that say the same of every id are the same -/
theorem ExternalIds.ext_contains {e f : ExternalIds}
    (h : ∀ kind id, e.contains kind id = true ↔ f.contains kind id = true) : e = f := by
  have hkind : ∀ kind, e.ofKind kind = f.ofKind kind := fun kind => SortedSet.ext fun id => by
    rw [← SortedSet.contains_iff, ← SortedSet.contains_iff]
    exact h kind id
  obtain ⟨el, es, et, ei⟩ := e
  obtain ⟨fl, fs, ft, fi⟩ := f
  rw [ExternalIds.mk.injEq]
  exact ⟨hkind .lanelet, hkind .trafficSign, hkind .trafficLight, hkind .intersection⟩

namespace Network

theorem element?_extract_extract (n : Network) (s t : Scope) (x : Handle) :
    ((n.extract s).extract t).element? x = (n.extract (s.inter t)).element? x := by
  rw [element?_extract, element?_extract, element?_extract]
  by_cases ht : t.Has x
  · by_cases hs : s.Has x
    · rw [if_pos ht, if_pos hs, if_pos (Scope.has_inter.2 ⟨hs, ht⟩)]
    · rw [if_pos ht, if_neg hs, if_neg fun h => hs (Scope.has_inter.1 h).1]
  · rw [if_neg ht, if_neg fun h => ht (Scope.has_inter.1 h).2]

/-- what either copy has left out is external in the end, and nothing else has become so -/
theorem external_extract_extract (n : Network) (s t : Scope) :
    ((n.extract s).extract t).external = (n.extract (s.inter t)).external := by
  refine ExternalIds.ext_contains fun kind id => ?_
  rw [external_extract, external_extract, external_extract, or_assoc]
  refine or_congr_right ⟨?_, ?_⟩
  · rintro (⟨k, hs, hid⟩ | ⟨k, ht, hid⟩)
    · exact ⟨k, fun h => hs (Scope.has_inter.1 h).1, hid⟩
    · exact ⟨k, fun h => ht (Scope.has_inter.1 h).2, (idOf?_of_extract hid).2⟩
  · rintro ⟨k, hst, hid⟩
    by_cases hs : s.Has ⟨kind, k⟩
    · have ht : ¬ t.Has ⟨kind, k⟩ := fun ht => hst (Scope.has_inter.2 ⟨hs, ht⟩)
      exact Or.inr ⟨k, ht, (idOf?_extract_of_has hs).trans hid⟩
    · exact Or.inl ⟨k, hs, hid⟩

/-- **A copy of a copy** is a copy of what is in both scopes. -/
theorem extract_extract (n : Network) (s t : Scope) : (n.extract s).extract t = n.extract (s.inter t) :=
  ext_element? (n.element?_extract_extract s t) (n.external_extract_extract s t) rfl

/-- **At any depth** a copy is one of what is in all scopes. -/
theorem foldl_extract (n : Network) (s : Scope) (inner : List Scope) :
    inner.foldl extract (n.extract s) = n.extract (inner.foldl Scope.inter s) := by
  induction inner generalizing s with
  | nil => rfl
  | cons t inner ih => rw [List.foldl_cons, extract_extract, ih, List.foldl_cons]

/-- **Parts of parts.** For every network and all scopes: what is extracted from a part of the network, has the
elements, the external ids and the next key of what is extracted from the network with the elements of both scopes, at
any depth. A part resolves just the ids that the network resolves. -/
theorem copies_compose (n : Network) (s t : Scope) :
    (n.extract s).extract t = n.extract (s.inter t) ∧
      (∀ inner : List Scope, inner.foldl extract (n.extract s) = n.extract (inner.foldl Scope.inter s)) ∧
      ∀ kind id, (n.extract s).resolves kind id = true ↔ n.resolves kind id = true := by
  refine ⟨n.extract_extract s t, n.foldl_extract s, fun kind id => ?_⟩
  rw [resolves_extract]

end Network

end RoadRules
