/-
Elements that share an id come to have ids of their own.

Of the elements with an id all but the first draw fresh ones. A fresh id is borne by no element, so the only elements
that share an id afterwards are ones that did before and did not draw (`Separates`).

The counter has to last. There is room (`RoadMap.Roomy`) for as many draws as there are more elements than ids; a draw
by an element that shares its id adds an id, so it takes no room away from the others.
-/
import RoadRules.Proofs.Network.Index
import RoadRules.Proofs.Repair.Cure
import RoadRules.Proofs.Run.Round

namespace RoadRules

namespace Network

variable {n a b c : Network}

/-! ## Counting elements and ids -/

theorem elementCount_eq (n : Network) : n.elementCount = n.allHandles.length := by
  simp [elementCount, allHandles, Kind.values, handles, count, Nat.add_assoc]

theorem elementCount_setId (n : Network) (h : Handle) (id : ElementId) :
    (n.setId h id).elementCount = n.elementCount := by
  have keys_modify {α : Type} (s : Store α) (key : Nat) (f : α → α) : (s.modify key f).keys = s.keys := by
    simp [Store.keys, Store.modify, Store.mapEntries]
  obtain ⟨kind, key⟩ := h
  cases kind <;> simp [elementCount, count, keys, setId, keys_modify, Kind.values]

theorem nodup_handlesWithId (n : Network) (id : ElementId) : (n.handlesWithId id).Nodup := by
  have one (kind : Kind) : ((n.keysWithId kind id).map fun key => Handle.mk kind key).Nodup := by
    refine List.Nodup.map (fun a b h => (Handle.mk.inj h).2) ?_
    exact (n.keysWithId_ascending kind id).imp Nat.ne_of_lt
  refine List.nodup_flatMap.2 ⟨fun kind _ => one kind, ?_⟩
  have hkinds : Kind.values.Nodup := by decide
  refine hkinds.imp fun {a b} hab => ?_
  rw [Function.onFun, List.disjoint_left]
  intro h ha hb
  obtain ⟨_, -, rfl⟩ := List.mem_map.1 ha
  obtain ⟨_, -, heq⟩ := List.mem_map.1 hb
  exact hab (Handle.mk.inj heq).1.symm

/-- of the elements with an id only one is not in the tail -/
theorem eq_of_not_mem_tail {id : ElementId} {x y : Handle} (hx : n.idOf? x = some id) (hy : n.idOf? y = some id)
    (hxs : x ∉ (n.handlesWithId id).tail) (hys : y ∉ (n.handlesWithId id).tail) : x = y := by
  have hx := mem_handlesWithId.2 hx
  have hy := mem_handlesWithId.2 hy
  cases hhandles : n.handlesWithId id with
  | nil =>
    rw [hhandles] at hx
    cases hx
  | cons first hs =>
    rw [hhandles] at hx hy hxs hys
    exact ((List.mem_cons.1 hx).resolve_right hxs).trans ((List.mem_cons.1 hy).resolve_right hys).symm

/-- how many ids there are, each counted once -/
def idCount (n : Network) : Nat := n.allIds.toFinset.card

/-- elements that share an id are more than their ids -/
theorem idCount_lt {x y : Handle} {id : ElementId} (hne : y ≠ x) (hx : n.idOf? x = some id)
    (hy : n.idOf? y = some id) : n.idCount < n.elementCount := by
  have hmem : x ∈ n.allHandles := mem_allHandles.2 ⟨id, hx⟩
  -- without the one element all ids are still there
  have hsub : n.allIds.toFinset ⊆ ((n.allHandles.erase x).filterMap n.idOf?).toFinset := by
    intro i hi
    obtain ⟨z, hz⟩ := mem_allIds.1 (List.mem_toFinset.1 hi)
    refine List.mem_toFinset.2 (List.mem_filterMap.2 ?_)
    by_cases hzx : z = x
    · subst hzx
      exact ⟨y, (List.mem_erase_of_ne hne).2 (mem_allHandles.2 ⟨id, hy⟩), hy.trans (hx.symm.trans hz)⟩
    · exact ⟨z, (List.mem_erase_of_ne hzx).2 (mem_allHandles.2 ⟨i, hz⟩), hz⟩
  have hcard := (Finset.card_le_card hsub).trans (List.toFinset_card_le _)
  have hlength := List.length_filterMap_le n.idOf? (n.allHandles.erase x)
  have hpos := List.length_pos_of_mem hmem
  rw [List.length_erase_of_mem hmem] at hlength
  rw [elementCount_eq, idCount]
  omega

/-! ## Fresh ids -/

/-- an element with a shared id that comes to a fresh one adds to the ids -/
theorem idCount_setId {x y : Handle} {id fresh : ElementId} (hne : y ≠ x) (hx : n.idOf? x = some id)
    (hy : n.idOf? y = some id) (hfresh : ∀ z, n.idOf? z ≠ some fresh) :
    (n.setId x fresh).idCount = n.idCount + 1 := by
  have hids : (n.setId x fresh).allIds.toFinset = insert fresh n.allIds.toFinset := by
    ext i
    rw [Finset.mem_insert, List.mem_toFinset, List.mem_toFinset, mem_allIds, mem_allIds]
    constructor
    · intro ⟨z, hz⟩
      rw [idOf?_setId hx] at hz
      split_ifs at hz
      · exact Or.inl (Option.some.inj hz).symm
      · exact Or.inr ⟨z, hz⟩
    · rintro (rfl | ⟨z, hz⟩)
      · exact ⟨x, by rw [idOf?_setId hx, if_pos rfl]⟩
      · by_cases hzx : z = x
        · subst hzx
          exact ⟨y, by rw [idOf?_setId hx, if_neg hne, hy, ← hx, hz]⟩
        · exact ⟨z, by rw [idOf?_setId hx, if_neg hzx, hz]⟩
  have hnew : fresh ∉ n.allIds.toFinset := by
    intro hmem
    obtain ⟨z, hz⟩ := mem_allIds.1 (List.mem_toFinset.1 hmem)
    exact hfresh z hz
  rw [idCount, hids, Finset.card_insert_of_notMem hnew, idCount]

/-- Elements that share an id shared it before, and are none of some. -/
def Separates (hs : List Handle) (a b : Network) : Prop :=
  ∀ x y id, x ≠ y → b.idOf? x = some id → b.idOf? y = some id →
    a.idOf? x = some id ∧ a.idOf? y = some id ∧ x ∉ hs ∧ y ∉ hs

theorem Separates.refl (a : Network) : Separates [] a a := fun _ _ _ _ hx hy =>
  ⟨hx, hy, List.not_mem_nil, List.not_mem_nil⟩

theorem Separates.cons {h : Handle} {hs : List Handle} (hab : Separates [h] a b) (hbc : Separates hs b c) :
    Separates (h :: hs) a c := by
  intro x y id hne hx hy
  obtain ⟨hx, hy, hxs, hys⟩ := hbc x y id hne hx hy
  obtain ⟨hx, hy, hxh, hyh⟩ := hab x y id hne hx hy
  rw [List.mem_singleton] at hxh hyh
  exact ⟨hx, hy, List.not_mem_cons_of_ne_of_not_mem hxh hxs, List.not_mem_cons_of_ne_of_not_mem hyh hys⟩

/-- an element with a fresh id shares it with no other -/
theorem Separates.setId {h : Handle} {old fresh : ElementId} (hh : a.idOf? h = some old)
    (hfresh : ∀ z, a.idOf? z ≠ some fresh) : Separates [h] a (a.setId h fresh) := by
  intro x y id hne hx hy
  rw [idOf?_setId hh] at hx hy
  simp only [List.mem_singleton]
  split_ifs at hx with hxh
  · split_ifs at hy with hyh
    · exact absurd (hxh.trans hyh.symm) hne
    · cases hx
      exact absurd hy (hfresh y)
  · split_ifs at hy with hyh
    · cases hy
      exact absurd hx (hfresh x)
    · exact ⟨hx, hy, hxh, hyh⟩

end Network

/-! ## Drawing -/

namespace RoadMap

open Network

/-- The counter has gone beyond all ids, and has left as many as there are more elements than ids. -/
structure Roomy (m : RoadMap) : Prop where
  counted : m.Counted
  room : m.ids.watermark + m.network.elementCount ≤ idLimit + m.network.idCount

/-- **One draw.** An element that shares its id gets a fresh one, and there is room as before. -/
theorem reassignId?_of_shared {m : RoadMap} (hm : m.Roomy) {x y : Handle} {id : ElementId} (hne : y ≠ x)
    (hx : m.network.idOf? x = some id) (hy : m.network.idOf? y = some id) :
    ∃ fresh ids, m.reassignId? x = some (fresh, ⟨m.network.setId x fresh, ids⟩) ∧
      Roomy ⟨m.network.setId x fresh, ids⟩ ∧ ∀ z, m.network.idOf? z ≠ some fresh := by
  have hless := idCount_lt hne hx hy
  have hroom := hm.room
  have hmark : m.ids.watermark < idLimit := by omega
  have hfresh : (UInt32.ofNat m.ids.watermark).toNat = m.ids.watermark := UInt32.toNat_ofNat_of_lt hmark
  have hnew : ∀ z, m.network.idOf? z ≠ some (UInt32.ofNat m.ids.watermark) := by
    intro z hz
    have hlt := hm.counted z _ hz
    omega
  have hdraw : m.ids.draw? = some (UInt32.ofNat m.ids.watermark, ⟨m.ids.watermark + 1, hmark⟩) := dif_pos hmark
  refine ⟨_, ⟨m.ids.watermark + 1, hmark⟩, ?_, ⟨fun z i hz => ?_, ?_⟩, hnew⟩
  · simp [reassignId?, freshId?, hdraw, Network.contains, hx]
  · -- the fresh id is the last one that the counter has gone beyond
    dsimp only at hz ⊢
    rw [idOf?_setId hx] at hz
    split_ifs at hz
    · cases hz
      omega
    · exact Nat.lt_succ_of_lt (hm.counted z i hz)
  · dsimp only
    rw [elementCount_setId, idCount_setId hne hx hy hnew]
    omega

/-- **All draws.** The elements that draw share no id afterwards, if another element bears theirs and does not draw. -/
theorem reassignAll_separates {first : Handle} {id : ElementId} (hs : List Handle) (hnodup : hs.Nodup)
    (hfirst : first ∉ hs) {m : RoadMap} (hm : m.Roomy) (hid : m.network.idOf? first = some id)
    (hids : ∀ x ∈ hs, m.network.idOf? x = some id) :
    (m.reassignAll hs).1.Roomy ∧ Separates hs m.network (m.reassignAll hs).1.network := by
  induction hs generalizing m with
  | nil => exact ⟨hm, .refl _⟩
  | cons x hs ih =>
    obtain ⟨hxs, hnodup⟩ := List.nodup_cons.1 hnodup
    have hne : first ≠ x := List.ne_of_not_mem_cons hfirst
    have hfirst := List.not_mem_of_not_mem_cons hfirst
    have hx := hids x List.mem_cons_self
    obtain ⟨fresh, ids, hreassign, hroomy, hfresh⟩ := reassignId?_of_shared hm hne hx hid
    have hid' : (m.network.setId x fresh).idOf? first = some id := by rw [idOf?_setId hx, if_neg hne, hid]
    have hids' : ∀ y ∈ hs, (m.network.setId x fresh).idOf? y = some id := by
      intro y hy
      have hyx : y ≠ x := fun heq => hxs (heq ▸ hy)
      rw [idOf?_setId hx, if_neg hyx, hids y (List.mem_cons_of_mem _ hy)]
    obtain ⟨hroomy, hseparates⟩ := ih hnodup hfirst hroomy hid' hids'
    simp only [reassignAll, hreassign]
    exact ⟨hroomy, .cons (.setId hx hfresh) hseparates⟩

/-- **Separating.** No two elements share the id afterwards, and none share an id that they did not share before. -/
theorem separateIds_separates {m : RoadMap} (hm : m.Roomy) (id : ElementId) : (m.separateIds id).1.Roomy ∧
    ∀ x y i, x ≠ y → (m.separateIds id).1.network.idOf? x = some i → (m.separateIds id).1.network.idOf? y = some i →
      m.network.idOf? x = some i ∧ m.network.idOf? y = some i ∧ i ≠ id := by
  unfold separateIds
  have hnodup := nodup_handlesWithId m.network id
  cases hhandles : m.network.handlesWithId id with
  | nil =>
    refine ⟨hm, fun x y i _ hx hy => ⟨hx, hy, ?_⟩⟩
    rintro rfl
    have hmem : x ∈ m.network.handlesWithId i := mem_handlesWithId.2 hx
    rw [hhandles] at hmem
    cases hmem
  | cons first hs =>
    have hborne : ∀ x ∈ first :: hs, m.network.idOf? x = some id := fun x hx => mem_handlesWithId.1 (hhandles ▸ hx)
    rw [hhandles] at hnodup
    obtain ⟨hfirst, hnodup⟩ := List.nodup_cons.1 hnodup
    obtain ⟨hroomy, hseparates⟩ := reassignAll_separates hs hnodup hfirst hm (hborne first List.mem_cons_self)
      fun x hx => hborne x (List.mem_cons_of_mem _ hx)
    refine ⟨hroomy, fun x y i hne hx hy => ?_⟩
    obtain ⟨hx, hy, hxs, hys⟩ := hseparates x y i hne hx hy
    refine ⟨hx, hy, ?_⟩
    rintro rfl
    exact hne (eq_of_not_mem_tail hx hy (by rwa [hhandles]) (by rwa [hhandles]))

end RoadMap

/-! ## The rules -/

namespace RuleId

theorem cured_shared {r : RuleId} {kind : Kind}
    (hrepair : ∀ (m : RoadMap) id rest, r.repairAt m id rest = m.separateIds id) (hfault : r.fault = .shared kind) :
    r.Cured RoadMap.Roomy where
  inv m id rest hm := by
    rw [hrepair]
    exact (RoadMap.separateIds_separates hm id).1
  violates m id rest location hm hviolates := by
    rw [hrepair] at hviolates
    obtain ⟨-, hseparates⟩ := RoadMap.separateIds_separates hm id
    obtain ⟨b, hat, hloc⟩ := hviolates
    obtain ⟨x, rfl, hkind, i, hx, y, hne, hy⟩ := Fault.at_shared.1 (hfault ▸ hat)
    obtain ⟨hy', hx', hi⟩ := hseparates y x i hne hy hx
    rw [List.filterMap_cons_some hx] at hloc
    subst hloc
    refine ⟨⟨[x], ?_, ?_⟩, fun heq => hi (List.cons.inj heq).1⟩
    · rw [hfault]
      exact Fault.at_shared.2 ⟨x, rfl, hkind, i, hx', y, hne, hy'⟩
    · rw [List.filterMap_cons_some hx']
      rfl

theorem cured_uniqueId {r : RuleId} (hr : r ∈ [uniqueIdLa, uniqueIdTs, uniqueIdTl, uniqueIdIn]) :
    r.Cured RoadMap.Roomy := by
  fin_cases hr
  all_goals
    exact cured_shared (fun _ _ _ => rfl) rfl

end RuleId

end RoadRules
