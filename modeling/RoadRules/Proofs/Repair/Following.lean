/-
The same edits made to a network and to a copy of a part of it.

The copy follows the network (`Follows`) as long as both have the same elements in the scope and the network has not
changed outside it. Edits that look only at what resolves and touch only elements of the scope keep this up
(`Follows.step`, `Follows.remove`, `Follows.link`), and in the end writing the copy back gives just the edited network
(`Follows.merge_eq`).
-/
import RoadRules.Proofs.Network.Rewriting
import RoadRules.Proofs.Network.Surroundings

namespace RoadRules

namespace Network

/-! ## Elements with an id -/

theorem ascending_eq {l m : List Nat} (hl : l.Pairwise (· < ·)) (hm : m.Pairwise (· < ·)) (h : ∀ k, k ∈ l ↔ k ∈ m) :
    l = m := by
  have e : (⟨l, hl⟩ : SortedSet Nat) = ⟨m, hm⟩ := SortedSet.ext h
  exact congrArg SortedSet.toList e

theorem keysWithId_ascending (n : Network) (kind : Kind) (id : ElementId) :
    (n.keysWithId kind id).Pairwise (· < ·) := by
  have filtered : ∀ {α : Type} (s : Store α) (p : Nat × α → Bool), ((s.entries.filter p).map (·.1)).Pairwise (· < ·) :=
    fun s p => List.pairwise_map.2 (s.ascending.filter p)
  cases kind
  · exact filtered n.lanelets _
  · exact filtered n.trafficSigns _
  · exact filtered n.trafficLights _
  · exact filtered n.intersections _

/-- networks in which the same elements of a kind bear an id list the same keys for it -/
theorem keysWithId_congr {n m : Network} {kind : Kind} {id : ElementId}
    (h : ∀ k, n.idOf? ⟨kind, k⟩ = some id ↔ m.idOf? ⟨kind, k⟩ = some id) :
    n.keysWithId kind id = m.keysWithId kind id :=
  ascending_eq (n.keysWithId_ascending kind id) (m.keysWithId_ascending kind id) fun k => by
    rw [mem_keysWithId, mem_keysWithId, h]

/-! ## Following -/

/-- a copy of a scope of `n` that has changed to `c` just as the network has changed to `m` -/
structure Follows (n : Network) (s : Scope) (m c : Network) : Prop where
  inside : ∀ {h}, s.Has h → c.element? h = m.element? h
  nothing : ∀ {h}, ¬ s.Has h → c.element? h = none
  outside : ∀ {h}, ¬ s.Has h → m.element? h = n.element? h
  present : ∀ {h e}, m.element? h = some e → ∃ old, n.element? h = some old
  external : m.external = n.external
  copied : c.external = (n.extract s).external
  nextKey : m.nextKey = n.nextKey

namespace Follows

variable {n m c m' c' : Network} {s : Scope}

theorem start (n : Network) (s : Scope) : Follows n s n (n.extract s) where
  inside hs := element?_extract_of_has hs
  nothing hs := by rw [element?_extract, if_neg hs]
  outside _ := rfl
  present he := ⟨_, he⟩
  external := rfl
  copied := rfl
  nextKey := rfl

theorem editedCopy (h : Follows n s m c) : EditedCopy n s c where
  external := h.copied
  present x id hid := by
    obtain ⟨e, he, -⟩ := exists_element hid
    by_cases hs : s.Has x
    · obtain ⟨old, ho⟩ := h.present (h.inside hs ▸ he)
      exact ⟨old.id, (idOf?_extract_of_has hs).trans (idOf?_of_element? ho)⟩
    · rw [h.nothing hs] at he; cases he

theorem nextKey_merge (hc : EditedCopy n s c) : (n.merge s c).nextKey = n.nextKey := by
  have none_outside : ∀ {α : Type} (kind : Kind) (get : Network → Store α) (id : α → ElementId),
      (∀ m : Network, ∀ k, m.idOf? ⟨kind, k⟩ = ((get m).get? k).map id) → (get c).outside (s.ofKind kind) = [] := by
    intro α kind get id hget
    refine List.eq_nil_iff_forall_not_mem.2 fun v hv => ?_
    obtain ⟨k, hk, hn⟩ := Store.mem_outside.1 hv
    exact hn (hc.inside_store kind get id hget hk).1
  have hl := none_outside .lanelet (·.lanelets) (·.id) fun _ _ => rfl
  have hs := none_outside .trafficSign (·.trafficSigns) (·.id) fun _ _ => rfl
  have ht := none_outside .trafficLight (·.trafficLights) (·.id) fun _ _ => rfl
  have hi := none_outside .intersection (·.intersections) (·.id) fun _ _ => rfl
  simp only [Scope.ofKind] at hl hs ht hi
  simp [merge, hl, hs, ht, hi]

/-- **Writing back a copy that follows a network gives that network.** -/
theorem merge_eq (h : Follows n s m c) : n.merge s c = m := by
  refine ext_element? (fun x => ?_) h.external.symm ((nextKey_merge h.editedCopy).trans h.nextKey.symm)
  rw [element?_merge h.editedCopy]
  split_ifs with hs
  · exact h.inside hs
  · exact (h.outside hs).symm

theorem resolves (h : Follows n s m c) (kind : Kind) (id : ElementId) : m.resolves kind id = c.resolves kind id := by
  rw [← h.merge_eq]
  exact resolves_merge h.editedCopy kind id

theorem idOf?_inside (h : Follows n s m c) {x : Handle} (hs : s.Has x) : c.idOf? x = m.idOf? x := by
  rw [idOf?_eq, idOf?_eq, h.inside hs]

theorem lanelet_inside (h : Follows n s m c) {k : Nat} (hs : k ∈ s.lanelets) :
    c.lanelets.get? k = m.lanelets.get? k :=
  Option.map_injective (fun _ _ e => by cases e; rfl) (h.inside (h := ⟨.lanelet, k⟩) hs)

theorem has_of_copy (h : Follows n s m c) {x : Handle} {id : ElementId} (hid : c.idOf? x = some id) : s.Has x :=
  (h.editedCopy.inside hid).1

/-- where only elements of the scope bear an id, the copy lists the same ones as the network -/
theorem keysWithId (h : Follows n s m c) (kind : Kind) {id : ElementId}
    (hs : ∀ k, m.idOf? ⟨kind, k⟩ = some id → s.Has ⟨kind, k⟩) : c.keysWithId kind id = m.keysWithId kind id :=
  keysWithId_congr fun k =>
    ⟨fun hid => h.idOf?_inside (h.has_of_copy hid) ▸ hid, fun hid => (h.idOf?_inside (hs k hid)).trans hid⟩

/-- **Edits step by step.** The same rewrite on both sides, if it leaves alone what is outside the scope. -/
theorem step (h : Follows n s m c) {f : Rewrite} (hm : Rewrites f m m') (hc : Rewrites f c c')
    (hf : ∀ x e, ¬ s.Has x → m.element? x = some e → f x e = some e) : Follows n s m' c' where
  inside {x} hs := by rw [hm.element, hc.element, h.inside hs]
  nothing {x} hs := by rw [hc.element, h.nothing hs]; rfl
  outside {x} hs := by
    rw [hm.element, ← h.outside hs]
    cases he : m.element? x with
    | none => rfl
    | some e => exact hf x e hs he
  present {x e} he := by
    rw [hm.element] at he
    obtain ⟨e', he', -⟩ := Option.bind_eq_some_iff.1 he
    exact h.present he'
  external := hm.external.trans h.external
  copied := hc.external.trans h.copied
  nextKey := hm.nextKey.trans h.nextKey

/-- a change of one element of the scope -/
theorem only (h : Follows n s m c) {x : Handle} {g : Element → Element} (hm : Rewrites (.only x g) m m')
    (hc : Rewrites (.only x g) c c') (hs : s.Has x) : Follows n s m' c' :=
  h.step hm hc fun y e hy _ => by
    have : y ≠ x := fun e => hy (e ▸ hs)
    simp [Rewrite.only, this]

theorem discard (h : Follows n s m c) {x : Handle} (hs : s.Has x) : Follows n s (m.discard x) (c.discard x) := by
  have drop : ∀ a : Network, Rewrites (fun y e => if y = x then none else some e) a (a.discard x) := fun a =>
    ⟨fun y => by rw [element?_discard]; split_ifs <;> cases a.element? y <;> simp,
      a.external_discard x, a.nextKey_discard x⟩
  exact h.step (drop m) (drop c) fun y e hy _ => if_neg (by rintro rfl; exact hy hs)

/-- a lanelet, a sign or a light of the scope goes, to whose id nothing outside the scope refers -/
theorem remove (h : Follows n s m c) {x : Handle} {id : ElementId} (hid : m.idOf? x = some id) (hs : s.Has x)
    (hout : ∀ y e, ¬ s.Has y → n.element? y = some e → id ∉ e.refs x.kind) : Follows n s (m.remove x) (c.remove x) := by
  have hc := rewrites_remove ((h.idOf?_inside hs).trans hid)
  rw [← (h.discard hs).resolves] at hc
  refine h.step (rewrites_remove hid) hc fun y e hy he => ?_
  have hne : y ≠ x := fun e => hy (e ▸ hs)
  have hforget : e.forget x.kind id = e := Element.forget_of_not_mem (hout y e hy (h.outside hy ▸ he))
  simp [Rewrite.removal, hne, hforget]

theorem link (h : Follows n s m c) {pred succ : Nat} (hp : pred ∈ s.lanelets) (hs : succ ∈ s.lanelets) :
    Follows n s (m.link pred succ) (c.link pred succ) ∧ m.canLink pred succ = c.canLink pred succ := by
  have ep := h.lanelet_inside hp
  have es := h.lanelet_inside hs
  refine ⟨?_, by simp only [canLink, ep, es]⟩
  cases hmp : m.lanelets.get? pred with
  | none => simpa only [Network.link, ep, hmp] using h
  | some p =>
    cases hms : m.lanelets.get? succ with
    | none => simpa only [Network.link, ep, es, hmp, hms] using h
    | some q =>
      refine h.step (rewrites_link hmp hms) (rewrites_link (ep.trans hmp) (es.trans hms)) fun y e hy _ => ?_
      have hyp : y ≠ ⟨.lanelet, pred⟩ := fun e => hy (e ▸ hp)
      have hys : y ≠ ⟨.lanelet, succ⟩ := fun e => hy (e ▸ hs)
      simp [linking, Rewrite.only, hyp, hys]

theorem unlink (h : Follows n s m c) {pred succ : Nat} (hp : pred ∈ s.lanelets) (hs : succ ∈ s.lanelets) :
    Follows n s (m.unlink pred succ) (c.unlink pred succ) ∧ m.canUnlink pred succ = c.canUnlink pred succ := by
  have ep := h.lanelet_inside hp
  have es := h.lanelet_inside hs
  refine ⟨?_, by simp only [canUnlink, ep, es]⟩
  cases hmp : m.lanelets.get? pred with
  | none => simpa only [Network.unlink, ep, hmp] using h
  | some p =>
    cases hms : m.lanelets.get? succ with
    | none => simpa only [Network.unlink, ep, es, hmp, hms] using h
    | some q =>
      refine h.step (rewrites_unlink hmp hms) (rewrites_unlink (ep.trans hmp) (es.trans hms)) fun y e hy _ => ?_
      have hyp : y ≠ ⟨.lanelet, pred⟩ := fun e => hy (e ▸ hp)
      have hys : y ≠ ⟨.lanelet, succ⟩ := fun e => hy (e ▸ hs)
      simp [unlinking, Rewrite.only, hyp, hys]

end Follows

/-! ## What refers to the ids of a neighbourhood -/

/-- whatever refers to an id that a scope surrounds, and that an element bears, is in the scope -/
theorem Surrounds.has_of_ref {n : Network} {s : Scope} {ids : List ElementId} (hs : Surrounds n s ids) {x y : Handle}
    {id : ElementId} {e : Element} (hid : n.idOf? x = some id) (hm : id ∈ ids) (hy : n.element? y = some e)
    (href : id ∈ e.refs x.kind) : s.Has y := by
  obtain ⟨b, hb, rfl⟩ := exists_element hid
  cases e with
  | trafficSign t => cases href
  | trafficLight t => cases href
  | lanelet l =>
    obtain ⟨k, rfl, hl⟩ := element?_eq_lanelet.1 hy
    cases b with
    | lanelet b =>
      obtain ⟨j, rfl, hb'⟩ := element?_eq_lanelet.1 hb
      refine hs.links hl hb' hm ?_
      simp only [Lanelet.touches, Bool.or_eq_true, List.contains_iff_mem]
      exact Or.inl href
    | trafficSign b =>
      obtain ⟨j, rfl, hb'⟩ := element?_eq_trafficSign.1 hb
      exact hs.signReferrers hb' hm hl href
    | trafficLight b =>
      obtain ⟨j, rfl, hb'⟩ := element?_eq_trafficLight.1 hb
      exact hs.lightReferrers hb' hm hl href
    | intersection b =>
      obtain ⟨j, rfl, -⟩ := element?_eq_intersection.1 hb
      cases href
  | intersection i =>
    obtain ⟨k, rfl, hi⟩ := element?_eq_intersection.1 hy
    cases b with
    | lanelet b =>
      obtain ⟨j, rfl, hb'⟩ := element?_eq_lanelet.1 hb
      exact hs.intersections (hs.bearers _ _ hm hid) hb' hi href
    | trafficSign b => obtain ⟨j, rfl, -⟩ := element?_eq_trafficSign.1 hb; cases href
    | trafficLight b => obtain ⟨j, rfl, -⟩ := element?_eq_trafficLight.1 hb; cases href
    | intersection b => obtain ⟨j, rfl, -⟩ := element?_eq_intersection.1 hb; cases href

end Network

end RoadRules
