/-
No sign or light is left without a lanelet that refers to it.

A sign or a light to which nothing refers is noted by the lanelet nearest to it, or goes. References to other ids stay,
and references to its own id stay as long as an element bears it (`KeepsRefs`); so what is done with remains so, and no
other element loses its last reference.

- `attach_settles`: afterwards every element with the id has a lanelet that refers to it.
- `cured_referencedTrafficSign`, `cured_referencedTrafficLight`: the two rules.
-/
import RoadRules.Proofs.Network.Nearest
import RoadRules.Proofs.Repair.Cure

namespace RoadRules

/-- forgetting an id does not touch the references to others -/
theorem Element.mem_refs_forget {kind : Kind} {id o : ElementId} (hne : o ≠ id) {l : Lanelet}
    (ho : o ∈ (Element.lanelet l).refs kind) : ∃ l', (Element.lanelet l).forget kind id = .lanelet l' ∧
      o ∈ (Element.lanelet l').refs kind := by
  obtain ⟨l', hforget⟩ : ∃ l', (lanelet l).forget kind id = lanelet l' := by cases kind <;> exact ⟨_, rfl⟩
  exact ⟨l', hforget, hforget ▸ mem_refs_forget_iff.2 ⟨ho, fun _ => hne⟩⟩

/-- a change of lanelets that makes them refer to an id, besides all that they refer to -/
structure Lanelet.RefersAlso (kind : Kind) (o : ElementId) (note : Lanelet → Lanelet) : Prop where
  id : ∀ l, (note l).id = l.id
  grows : ∀ l, ∀ ref ∈ (Element.lanelet l).refs kind, ref ∈ (Element.lanelet (note l)).refs kind
  refers : ∀ l, o ∈ (Element.lanelet (note l)).refs kind

theorem Lanelet.Notes.refersAlso {kind : Kind} {id : ElementId} {noted : Lanelet → Bool} {note : Lanelet → Lanelet}
    (h : Notes kind id noted note) : RefersAlso kind id note where
  id := h.noting.id
  grows l ref href := (h.refs l kind ref).2 (Or.inr href)
  refers l := (h.refs l kind id).2 (Or.inl ⟨rfl, rfl⟩)

namespace Network

variable {kind : Kind} {id : ElementId} {n a b c : Network}

/-- the nearest lanelet is one of the lanelets -/
theorem lanelet_of_nearest {p : Point} {limit : Float} {k : Nat} (h : n.nearestLanelet? p limit = some k) :
    ∃ l, n.lanelets.get? k = some l := by
  obtain ⟨before, d, after, hnear, -, -⟩ := near_of_nearestLanelet? h
  have hmem : (k, d) ∈ n.near p limit := hnear ▸ List.mem_append_right _ List.mem_cons_self
  obtain ⟨l, hl, -⟩ := Option.bind_eq_some_iff.1 (mem_near.1 hmem)
  exact ⟨l, hl⟩

/-- Elements keep their ids or go, and lanelets keep their references: to all ids but one in any case, and to that one
as long as an element bears it. -/
structure KeepsRefs (kind : Kind) (id : ElementId) (a b : Network) : Prop where
  kept : ∀ {x i}, b.idOf? x = some i → a.idOf? x = some i
  refs : ∀ {y l o}, a.element? y = some (.lanelet l) → o ∈ (Element.lanelet l).refs kind →
    (o = id → ∃ key, b.idOf? ⟨kind, key⟩ = some id) →
    ∃ l', b.element? y = some (.lanelet l') ∧ o ∈ (Element.lanelet l').refs kind

/-- if an element bears the id under the key, some lanelet refers to the id -/
def Attached (kind : Kind) (id : ElementId) (key : Nat) (b : Network) : Prop :=
  b.idOf? ⟨kind, key⟩ = some id → ∃ y l, b.element? y = some (.lanelet l) ∧ id ∈ (Element.lanelet l).refs kind

namespace KeepsRefs

theorem refl (a : Network) : KeepsRefs kind id a a := ⟨fun h => h, fun {_ l _} hl ho _ => ⟨l, hl, ho⟩⟩

theorem trans (h : KeepsRefs kind id a b) (h' : KeepsRefs kind id b c) : KeepsRefs kind id a c where
  kept hx := h.kept (h'.kept hx)
  refs {y l o} hl ho hborne := by
    obtain ⟨l', hl', ho'⟩ := h.refs hl ho fun heq => by
      obtain ⟨key, hkey⟩ := hborne heq
      exact ⟨key, h'.kept hkey⟩
    exact h'.refs hl' ho' hborne

/-- what is attached stays attached, under whatever id -/
theorem attached (h : KeepsRefs kind id a b) {o : ElementId} {key : Nat} (ha : Attached kind o key a) :
    Attached kind o key b := by
  intro hkey
  obtain ⟨y, l, hl, ho⟩ := ha (h.kept hkey)
  obtain ⟨l', hl', ho'⟩ := h.refs hl ho fun heq => ⟨key, heq ▸ hkey⟩
  exact ⟨y, l', hl', ho'⟩

/-- a lanelet notes something -/
theorem note {note : Lanelet → Lanelet} (hid : ∀ l, (note l).id = l.id)
    (hnote : ∀ l, ∀ o ∈ (Element.lanelet l).refs kind, o ∈ (Element.lanelet (note l)).refs kind) (k : Nat) :
    KeepsRefs kind id a { a with lanelets := a.lanelets.modify k note } where
  kept {x i} hx := by rwa [idOf?_modifyLanelet a k hid] at hx
  refs {y l o} hl ho _ := by
    rw [(a.rewrites_modifyLanelet k note).element, hl]
    by_cases hy : y = ⟨.lanelet, k⟩
    · exact ⟨note l, by simp [Rewrite.only, Element.onLanelet, hy], hnote l o ho⟩
    · exact ⟨l, by simp [Rewrite.only, hy], ho⟩

/-- an element with the id goes -/
theorem remove (hkind : kind ≠ .lanelet) {key : Nat} (hid : a.idOf? ⟨kind, key⟩ = some id) :
    KeepsRefs kind id a (a.remove ⟨kind, key⟩) := by
  have hrewrites := rewrites_remove hid
  have hkept : ∀ {x i}, (a.remove ⟨kind, key⟩).idOf? x = some i → x ≠ ⟨kind, key⟩ ∧ a.idOf? x = some i := by
    intro x i hx
    obtain ⟨e', he', rfl⟩ := exists_element hx
    rw [hrewrites.element] at he'
    obtain ⟨e, he, hrw⟩ := Option.bind_eq_some_iff.1 he'
    simp only [Rewrite.removal] at hrw
    split_ifs at hrw with hxk hstays
    · exact ⟨hxk, Option.some.inj hrw ▸ idOf?_of_element? he⟩
    · cases hrw
      exact ⟨hxk, (e.id_forget kind id).symm ▸ idOf?_of_element? he⟩
  refine ⟨fun hx => (hkept hx).2, fun {y l o} hl ho hborne => ?_⟩
  have hne : y ≠ ⟨kind, key⟩ := by
    rintro rfl
    exact hkind (kind_of_element? hl).symm
  cases hstays : (a.discard ⟨kind, key⟩).resolves kind id with
  | true => exact ⟨l, by simp [hrewrites.element, hl, Rewrite.removal, hne, hstays], ho⟩
  | false =>
    -- no element bears the id any more, so the reference is one to another id
    have hother : o ≠ id := by
      intro heq
      obtain ⟨j, hj⟩ := hborne heq
      obtain ⟨hjk, hj⟩ := hkept hj
      have hthere : (a.discard ⟨kind, key⟩).idOf? ⟨kind, j⟩ = some id := by
        rw [idOf?_eq, element?_discard, if_neg hjk, ← idOf?_eq, hj]
      rw [resolves_iff.2 (Or.inr ⟨j, hthere⟩)] at hstays
      cases hstays
    obtain ⟨l', hforget, ho'⟩ := Element.mem_refs_forget hother ho
    exact ⟨l', by simp [hrewrites.element, hl, Rewrite.removal, hne, hstays, hforget], ho'⟩

end KeepsRefs

/-- **Attaching.** Afterwards some lanelet refers to the id, if an element bears it. -/
theorem attach_settles {note : Lanelet → Lanelet} (noted : Lanelet → Bool) (hkind : kind ≠ .lanelet)
    (hnote : Lanelet.RefersAlso kind id note) (n : Network) :
    KeepsRefs kind id n (n.attach kind noted note id).network ∧
      ∀ key ∈ n.keysWithId kind id, Attached kind id key (n.attach kind noted note id).network := by
  unfold attach
  split_ifs with hany
  · obtain ⟨l, hl, href⟩ := List.any_eq_true.1 hany
    obtain ⟨k, hk⟩ := Store.mem_values.1 hl
    exact ⟨.refl n, fun key _ _ => ⟨⟨.lanelet, k⟩, l, element?_eq_lanelet.2 ⟨k, rfl, hk⟩, by simpa using href⟩⟩
  · refine editEach_settles (P := KeepsRefs kind id n) (Q := Attached kind id) (n.keysWithId kind id) (.refl n)
      fun a ha key hkey => ?_
    split
    · next k hnear =>
      have hstep : KeepsRefs kind id a { a with lanelets := a.lanelets.modify k note } := .note hnote.id hnote.grows k
      refine ⟨ha.trans hstep, fun _ => ?_, fun j hj => hstep.attached hj⟩
      obtain ⟨p, -, hp⟩ := Option.bind_eq_some_iff.1 hnear
      obtain ⟨l, hl⟩ := lanelet_of_nearest hp
      refine ⟨⟨.lanelet, k⟩, note l, element?_eq_lanelet.2 ⟨k, rfl, ?_⟩, hnote.refers l⟩
      simp [hl]
    · cases hborne : a.idOf? ⟨kind, key⟩ with
      | none =>
        have hgone : a.element? ⟨kind, key⟩ = none := Option.map_eq_none_iff.1 (a.idOf?_eq _ ▸ hborne)
        rw [remove_of_absent hgone]
        refine ⟨ha, fun hthere => ?_, fun j hj => hj⟩
        cases hborne.symm.trans hthere
      | some i =>
        have hi : i = id := Option.some.inj ((ha.kept hborne).symm.trans (mem_keysWithId.1 hkey))
        subst hi
        have hstep : KeepsRefs kind i a (a.remove ⟨kind, key⟩) := .remove hkind hborne
        refine ⟨ha.trans hstep, fun hthere => ?_, fun j hj => hstep.attached hj⟩
        rw [idOf?_eq, (rewrites_remove hborne).element] at hthere
        cases he : a.element? ⟨kind, key⟩ <;> simp [he, Rewrite.removal] at hthere

end Network

/-! ## The rules -/

namespace RuleId

open Network

theorem cured_unreferenced {r : RuleId} {kind : Kind} (hkind : kind ≠ .lanelet) {noted : ElementId → Lanelet → Bool}
    {note : ElementId → Lanelet → Lanelet}
    (hrepair : ∀ (m : RoadMap) id rest, r.repairAt m id rest =
      m.edited (m.network.attach kind (noted id) (note id) id))
    (hnote : ∀ id, Lanelet.RefersAlso kind id (note id))
    (hfault : r.fault = .unreferenced kind fun l => (Element.lanelet l).refs kind) : r.Cured fun _ => True where
  inv _ _ _ _ := trivial
  violates m id rest location _ hviolates := by
    rw [hrepair] at hviolates
    obtain ⟨hkeeps, hattached⟩ := attach_settles (noted id) hkind (hnote id) m.network
    obtain ⟨b, hat, hloc⟩ := hviolates
    obtain ⟨x, i, rfl, hx, hi, hno⟩ := Fault.at_unreferenced.1 (hfault ▸ hat)
    obtain ⟨xkind, key⟩ := x
    obtain rfl : xkind = kind := hx
    rw [List.filterMap_cons_some hi] at hloc
    subst hloc
    have hi' := hkeeps.kept hi
    have hne : i ≠ id := by
      rintro rfl
      obtain ⟨y, l, hl, href⟩ := hattached key (mem_keysWithId.2 hi') hi
      exact hno y l hl href
    refine ⟨⟨[⟨xkind, key⟩], ?_, ?_⟩, fun heq => hne (List.cons.inj heq).1⟩
    · rw [hfault]
      refine Fault.at_unreferenced.2 ⟨_, i, rfl, rfl, hi', fun y l hl href => ?_⟩
      obtain ⟨l', hl', href'⟩ := hkeeps.refs hl href fun heq => absurd heq hne
      exact hno y l' hl' href'
    · rw [List.filterMap_cons_some hi']
      rfl

theorem cured_referencedTrafficSign : referencedTrafficSign.Cured fun _ => True :=
  cured_unreferenced (by decide) repairAt_referencedTrafficSign
    (fun id => (Lanelet.notes_trafficSign id).refersAlso) rfl

theorem cured_referencedTrafficLight : referencedTrafficLight.Cured fun _ => True :=
  cured_unreferenced (by decide) repairAt_referencedTrafficLight
    (fun id => (Lanelet.notes_trafficLight id).refersAlso) rfl

end RuleId

end RoadRules
