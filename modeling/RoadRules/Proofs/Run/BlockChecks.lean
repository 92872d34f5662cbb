/-
Checking blocks in place of the network.

- `violates_of_block`: what a block violates, the network violates. A sign or light that no lanelet of its block refers
  to is referred to by none at all, since it is put where a lanelet refers to it.
- `exists_block_violates`: what the network violates, a block violates too, but for rules that a block cannot decide
  alone; these are broken at an end of a link that leads out of a block, or at an id that is shared.
- `verify_by_blocks`: hence checks of the blocks, together with a check around these ends and ids, find what a check of
  the network finds.
-/
import RoadRules.Proofs.Run.Partitioned

namespace RoadRules

theorem RuleId.spansBlocks_of_unanswered {r : RuleId} {there back : Lanelet → IdSet}
    (h : r.fault = .unanswered there back) : r.spansBlocks = true := by
  cases r <;> first | rfl | exact nomatch h

theorem RuleId.spansBlocks_of_bothWays {r : RuleId} (h : r.fault = .bothWays) : r.spansBlocks = true := by
  cases r <;> first | rfl | exact nomatch h

namespace Network

variable {n : Network} {size : Nat}

/-! ## Where lanelets, signs and lights are put -/

/-- the lanelets of a part, and the position of what belongs to them: a group, or the lone ids -/
def PartAt (n : Network) (size : Nat) (lanelets : IdSet) (home : Option Nat) : Prop :=
  (∃ i, (n.groups size).1[i]? = some lanelets ∧ home = some i) ∨ lanelets = .ofList (n.groups size).2 ∧ home = none

theorem exists_partAt {b : Block} (hb : b ∈ (n.partition size).parts) :
    ∃ lanelets home, n.PartAt size lanelets home ∧ b = n.blockAt (n.groups size).1 lanelets home := by
  rcases List.mem_append.1 hb with hb | hb
  · obtain ⟨⟨g, i⟩, hg, rfl⟩ := List.mem_map.1 hb
    exact ⟨g, some i, Or.inl ⟨i, List.mem_zipIdx_iff_getElem?.1 hg, rfl⟩, rfl⟩
  · split_ifs at hb
    · cases hb
    · obtain rfl := List.mem_singleton.1 hb
      exact ⟨_, none, Or.inr ⟨rfl, rfl⟩, rfl⟩

/-- what is put by a property of lanelets is put to one with the property, if there is one -/
theorem exists_of_home? {lanelets : IdSet} {home : Option Nat} (hpart : n.PartAt size lanelets home)
    {p : Lanelet → Bool} (hhome : n.home? (n.groups size).1 p = home) {l : Lanelet} (hl : l ∈ n.lanelets.values)
    (hp : p l = true) : ∃ k ∈ n.lanelets.values, k.id ∈ lanelets ∧ p k = true := by
  rcases hpart with ⟨i, hi, rfl⟩ | ⟨rfl, rfl⟩
  · obtain ⟨hlt, hany, -⟩ := List.findIdx?_eq_some_iff_getElem.1 hhome
    obtain ⟨_, hget⟩ := List.getElem?_eq_some_iff.1 hi
    obtain ⟨k, hk, hboth⟩ := List.any_eq_true.1 hany
    obtain ⟨hmem, hpk⟩ := Bool.and_eq_true_iff.1 hboth
    exact ⟨k, hk, hget ▸ SortedSet.contains_iff.1 hmem, hpk⟩
  · -- no group has such a lanelet, so this one is in none
    have hid : l.id ∈ n.ids .lanelet := List.mem_map.2 ⟨l, hl, rfl⟩
    rcases (covers_groups n size).all l.id hid (SortedSet.mem_ofList.2 hid) with ⟨g, hg, hlg⟩ | hlone
    · have hnone := List.findIdx?_eq_none_iff.1 hhome g hg
      have hsome : (n.lanelets.values.any fun k => g.contains k.id && p k) = true :=
        List.any_eq_true.2 ⟨l, hl, Bool.and_eq_true_iff.2 ⟨SortedSet.contains_iff.2 hlg, hp⟩⟩
      rw [hsome] at hnone
      cases hnone
    · exact ⟨l, hl, SortedSet.mem_ofList.2 hlone, hp⟩

/-- lanelets that are in the same block, or both in none, are in one part -/
theorem exists_common_part {a b : ElementId} (ha : a ∈ n.ids .lanelet) (hb : b ∈ n.ids .lanelet)
    (hsame : (n.partition size).blockOf? a = (n.partition size).blockOf? b) :
    ∃ part ∈ (n.partition size).parts, a ∈ part.lanelets ∧ b ∈ part.lanelets := by
  cases hblock : (n.partition size).blockOf? a with
  | some i =>
    obtain ⟨hi, hai, -⟩ := List.findIdx?_eq_some_iff_getElem.1 hblock
    obtain ⟨_, hbi, -⟩ := List.findIdx?_eq_some_iff_getElem.1 (hsame.symm.trans hblock)
    exact ⟨_, List.mem_append_left _ (List.getElem_mem hi), SortedSet.contains_iff.1 hai, SortedSet.contains_iff.1 hbi⟩
  | none =>
    have lone : ∀ id ∈ n.ids .lanelet, (n.partition size).blockOf? id = none → id ∈ (n.groups size).2 := by
      intro id hid hnone
      refine ((covers_groups n size).all id hid (SortedSet.mem_ofList.2 hid)).resolve_left fun ⟨g, hg, hmem⟩ => ?_
      obtain ⟨i, hi⟩ := List.mem_iff_getElem?.1 hg
      have hblock : n.blockAt (n.groups size).1 g (some i) ∈ (n.partition size).blocks :=
        List.mem_map.2 ⟨(g, i), List.mem_zipIdx_iff_getElem?.2 hi, rfl⟩
      have hfalse : g.contains id = false := List.findIdx?_eq_none_iff.1 hnone _ hblock
      rw [SortedSet.contains_iff.2 hmem] at hfalse
      cases hfalse
    have hcatch : ∀ id ∈ n.ids .lanelet, (n.partition size).blockOf? id = none →
        id ∈ (n.partition size).catchAll.lanelets := fun id hid h => SortedSet.mem_ofList.2 (lone id hid h)
    have ha' := hcatch a ha hblock
    refine ⟨_, List.mem_append_right _ ?_, ha', hcatch b hb (hsame.symm.trans hblock)⟩
    split_ifs with hempty
    · exact absurd ha' (Block.not_mem_of_isEmpty hempty .lanelet a)
    · exact List.mem_singleton.2 rfl

/-- a link leads from a block to another one at ids that are listed, or both its ends are in the scope of a block -/
theorem boundary_or_block (size : Nat) {x y : Handle} {l k : Lanelet} (hl : n.element? x = some (.lanelet l))
    (hk : n.element? y = some (.lanelet k)) (hlink : k.id ∈ l.linkedLanelets) :
    l.id ∈ (n.partition size).boundary n ∨ ∃ s ∈ n.blockScopes size, s.Has x ∧ s.Has y := by
  have hx : n.idOf? x = some l.id := idOf?_of_element? hl
  have hy : n.idOf? y = some k.id := idOf?_of_element? hk
  obtain ⟨i, rfl, hi⟩ := element?_eq_lanelet.1 hl
  obtain ⟨j, rfl, -⟩ := element?_eq_lanelet.1 hk
  have hkid : k.id ∈ n.ids .lanelet := mem_ids.2 ⟨j, hy⟩
  by_cases hsame : (n.partition size).blockOf? k.id = (n.partition size).blockOf? l.id
  · obtain ⟨part, hpart, hkp, hlp⟩ := exists_common_part hkid (mem_ids.2 ⟨i, hx⟩) hsame
    exact Or.inr ⟨_, List.mem_map.2 ⟨part, hpart, rfl⟩, has_blockScope.2 ⟨l.id, hlp, hx⟩,
      has_blockScope.2 ⟨k.id, hkp, hy⟩⟩
  · refine Or.inl (SortedSet.mem_ofList.2 (List.mem_flatMap.2 ⟨l, Store.mem_values.2 ⟨i, hi⟩, ?_⟩))
    refine List.mem_flatMap.2 ⟨k.id, List.mem_filter.2 ⟨hlink, ?_⟩, List.mem_cons_self⟩
    exact Bool.and_eq_true_iff.2 ⟨SortedSet.contains_iff.2 (SortedSet.mem_ofList.2 hkid), bne_iff_ne.2 hsame⟩

/-! ## Violations of blocks -/

/-- a lanelet that refers to a sign or a light of a block has one in the block beside it -/
theorem exists_referrer {s : Scope} (hs : s ∈ n.blockScopes size) {kind : Kind} {refs : Lanelet → List ElementId}
    (hf : (Fault.unreferenced kind refs).Followed) {x : Handle} (hx : s.Has x) (hk : x.kind = kind) {id : ElementId}
    (hid : n.idOf? x = some id) {y : Handle} {l : Lanelet} (hl : n.element? y = some (.lanelet l)) (hr : id ∈ refs l) :
    ∃ z k, s.Has z ∧ n.element? z = some (.lanelet k) ∧ id ∈ refs k := by
  obtain ⟨b, hb, rfl⟩ := List.mem_map.1 hs
  obtain ⟨lanelets, home, hpart, rfl⟩ := exists_partAt hb
  obtain ⟨i, hi, hxi⟩ := has_blockScope.1 hx
  cases hid.symm.trans hxi
  have hmem : l ∈ n.lanelets.values := by
    obtain ⟨j, -, hj⟩ := element?_eq_lanelet.1 hl
    exact Store.mem_values.2 ⟨j, hj⟩
  have hhome : n.home? (n.groups size).1 (fun l => (refs l).contains id) = home := by
    rw [hk] at hi
    rcases hf with ⟨rfl, rfl⟩ | ⟨rfl, rfl⟩
    · exact beq_iff_eq.1 (List.mem_filter.1 (SortedSet.mem_ofList.1 hi)).2
    · exact beq_iff_eq.1 (List.mem_filter.1 (SortedSet.mem_ofList.1 hi)).2
  obtain ⟨k, hkv, hkl, hkr⟩ := exists_of_home? hpart hhome hmem (List.contains_iff_mem.2 hr)
  obtain ⟨j, hj⟩ := Store.mem_values.1 hkv
  refine ⟨⟨.lanelet, j⟩, k, has_blockScope.2 ⟨k.id, hkl, ?_⟩, element?_eq_lanelet.2 ⟨j, rfl, hj⟩,
    List.contains_iff_mem.1 hkr⟩
  rw [idOf?_lanelet, hj]; rfl

/-- **Nothing is made up.** What a block violates, the network violates. -/
theorem violates_of_block {s : Scope} (hs : s ∈ n.blockScopes size) {v : Violation} (hv : (n.extract s).Violates v) :
    n.Violates v := by
  obtain ⟨b, hat, hloc⟩ := hv
  have followed := v.rule.followed
  have ids : ∀ b : List Handle, (∀ x ∈ b, s.Has x) → b.filterMap n.idOf? = b.filterMap (n.extract s).idOf? :=
    fun b hb => List.filterMap_congr fun x hx => (idOf?_extract_of_has (hb x hx)).symm
  suffices h : v.rule.fault.At n b ∧ ∀ x ∈ b, s.Has x from ⟨b, h.1, (ids b h.2).trans hloc⟩
  cases hf : v.rule.fault with
  | shared kind =>
    rw [hf] at hat
    obtain ⟨x, rfl, hk, id, hx, y, hne, hy⟩ := Fault.at_shared.1 hat
    refine ⟨Fault.at_shared.2 ⟨x, rfl, hk, id, (idOf?_of_extract hx).2, y, hne, (idOf?_of_extract hy).2⟩, ?_⟩
    exact List.forall_mem_singleton.2 (idOf?_of_extract hx).1
  | own wrong =>
    rw [hf] at hat
    obtain ⟨x, e, rfl, he, hw⟩ := Fault.at_own.1 hat
    refine ⟨Fault.at_own.2 ⟨x, e, rfl, (element?_of_extract he).2, hw⟩, ?_⟩
    exact List.forall_mem_singleton.2 (element?_of_extract he).1
  | missing kind refs =>
    rw [hf] at hat
    obtain ⟨x, e, rfl, he, ref, href, hno⟩ := Fault.at_missing.1 hat
    rw [resolves_extract] at hno
    refine ⟨Fault.at_missing.2 ⟨x, e, rfl, (element?_of_extract he).2, ref, href, hno⟩, ?_⟩
    exact List.forall_mem_singleton.2 (element?_of_extract he).1
  | unanswered there back =>
    rw [hf] at hat
    obtain ⟨x, l, rfl, hl, y, k, hk, hthere, hback⟩ := Fault.at_unanswered.1 hat
    refine ⟨Fault.at_unanswered.2 ⟨x, l, rfl, (element?_of_extract hl).2, y, k, (element?_of_extract hk).2, hthere,
      hback⟩, ?_⟩
    exact List.forall_mem_singleton.2 (element?_of_extract hl).1
  | bothWays =>
    rw [hf] at hat
    obtain ⟨x, y, l, k, rfl, hl, hk, hp⟩ := Fault.at_bothWays.1 hat
    refine ⟨Fault.at_bothWays.2 ⟨x, y, l, k, rfl, (element?_of_extract hl).2, (element?_of_extract hk).2, hp⟩, ?_⟩
    exact List.forall_mem_cons.2 ⟨(element?_of_extract hl).1, List.forall_mem_singleton.2 (element?_of_extract hk).1⟩
  | unreferenced kind refs =>
    rw [hf] at hat followed
    obtain ⟨x, id, rfl, hk, hid, hno⟩ := Fault.at_unreferenced.1 hat
    obtain ⟨hx, hid⟩ := idOf?_of_extract hid
    refine ⟨Fault.at_unreferenced.2 ⟨x, id, rfl, hk, hid, fun y l hl hr => ?_⟩, List.forall_mem_singleton.2 hx⟩
    obtain ⟨z, k, hz, hkz, hrk⟩ := exists_referrer hs followed hx hk hid hl hr
    exact hno z k ((element?_extract_of_has hz).trans hkz) hrk

/-- **Nothing is missed.** What the network violates, a block violates too, unless it starts at an end of a link between
blocks or at a shared id and is against a rule that looks across blocks. -/
theorem exists_block_violates (size : Nat) {v : Violation} (hv : n.Violates v) :
    (∃ s ∈ n.blockScopes size, (n.extract s).Violates v) ∨ v.rule.spansBlocks = true ∧
      ∃ id ∈ ((n.partition size).boundary n).union (NetworkIndex.build n).sharedIds, v.location.head? = some id := by
  have ⟨b, hat, hloc⟩ := hv
  have followed := v.rule.followed
  have copied : ∀ s ∈ n.blockScopes size, (∀ x ∈ b, s.Has x) → v.rule.fault.At (n.extract s) b →
      ∃ s ∈ n.blockScopes size, (n.extract s).Violates v := fun s hs hb hat =>
    ⟨s, hs, b, hat, hloc ▸ List.filterMap_congr fun x hx => idOf?_extract_of_has (hb x hx)⟩
  cases hf : v.rule.fault with
  | shared kind =>
    have hg := RuleId.general_of_fault hf
    obtain ⟨id, hid, hhead⟩ := mem_sharedIds_of_violates hg hv
    refine Or.inr ⟨?_, id, SortedSet.mem_union.2 (Or.inr hid), hhead⟩
    simp [RuleId.spansBlocks, hg]
  | own wrong =>
    rw [hf] at hat copied
    obtain ⟨x, e, rfl, he, hw⟩ := Fault.at_own.1 hat
    obtain ⟨s, hs, hx⟩ := exists_block size (idOf?_of_element? he)
    refine Or.inl (copied s hs (List.forall_mem_singleton.2 hx) (Fault.at_own.2 ⟨x, e, rfl, ?_, hw⟩))
    rwa [element?_extract_of_has hx]
  | missing kind refs =>
    rw [hf] at hat copied
    obtain ⟨x, e, rfl, he, ref, href, hno⟩ := Fault.at_missing.1 hat
    obtain ⟨s, hs, hx⟩ := exists_block size (idOf?_of_element? he)
    refine Or.inl (copied s hs (List.forall_mem_singleton.2 hx) (Fault.at_missing.2 ⟨x, e, rfl, ?_, ref, href, ?_⟩))
    · rwa [element?_extract_of_has hx]
    · rwa [resolves_extract]
  | unreferenced kind refs =>
    rw [hf] at hat copied
    obtain ⟨x, id, rfl, hk, hid, hno⟩ := Fault.at_unreferenced.1 hat
    obtain ⟨s, hs, hx⟩ := exists_block size hid
    refine Or.inl (copied s hs (List.forall_mem_singleton.2 hx) (Fault.at_unreferenced.2 ⟨x, id, rfl, hk, ?_, ?_⟩))
    · rwa [idOf?_extract_of_has hx]
    · exact fun y l hl => hno y l (element?_of_extract hl).2
  | unanswered there back =>
    rw [hf] at hat copied followed
    obtain ⟨x, l, rfl, hl, y, k, hk, hthere, hback⟩ := Fault.at_unanswered.1 hat
    rcases boundary_or_block size hl hk (followed.linked hthere) with hb | ⟨s, hs, hx, hy⟩
    · rw [List.filterMap_cons_some (idOf?_of_element? hl)] at hloc
      exact Or.inr ⟨RuleId.spansBlocks_of_unanswered hf, l.id, SortedSet.mem_union.2 (Or.inl hb), by rw [← hloc]; rfl⟩
    · refine Or.inl (copied s hs (List.forall_mem_singleton.2 hx) (Fault.at_unanswered.2 ⟨x, l, rfl, ?_, y, k, ?_,
        hthere, hback⟩))
      · rwa [element?_extract_of_has hx]
      · rwa [element?_extract_of_has hy]
  | bothWays =>
    rw [hf] at hat copied
    obtain ⟨x, y, l, k, rfl, hl, hk, hp, hsucc⟩ := Fault.at_bothWays.1 hat
    rcases boundary_or_block size hl hk (Lanelet.mem_linkedLanelets.2 (Or.inl hp)) with hb | ⟨s, hs, hx, hy⟩
    · rw [List.filterMap_cons_some (idOf?_of_element? hl)] at hloc
      exact Or.inr ⟨RuleId.spansBlocks_of_bothWays hf, l.id, SortedSet.mem_union.2 (Or.inl hb), by rw [← hloc]; rfl⟩
    · refine Or.inl (copied s hs ?_ (Fault.at_bothWays.2 ⟨x, y, l, k, rfl, ?_, ?_, hp, hsucc⟩))
      · exact List.forall_mem_cons.2 ⟨hx, List.forall_mem_singleton.2 hy⟩
      · rwa [element?_extract_of_has hx]
      · rwa [element?_extract_of_has hy]

end Network

/-- **Checks by blocks.** For every rule a check of the network finds the locations that checks of its blocks find, and
for a rule that looks across blocks also those of a check around the ends of links between blocks and around shared
ids. -/
theorem Plan.verify_by_blocks : ∃ c, Catalog.standard = .ok c ∧
    ∀ (config : Config) (n : Network) (size : Nat) (r : RuleId) (l : Location),
      ⟨r, l⟩ ∈ c.verify n [r] ↔
        (∃ s ∈ n.blockScopes size, ⟨r, l⟩ ∈ c.verify (n.extract s) [r]) ∨
          r.spansBlocks = true ∧ ⟨r, l⟩ ∈ (Plan.mk config c [r]).verifyAround n
            (((n.partition size).boundary n).union (NetworkIndex.build n).sharedIds) [r] := by
  refine ⟨standardCatalog, Catalog.standard_eq, fun config n size r l => ?_⟩
  simp only [Violations.mem_verify, mem_verifyAround (p := ⟨config, standardCatalog, [r]⟩) rfl, List.mem_singleton,
    true_and]
  constructor
  · exact fun hv => (Network.exists_block_violates size hv).imp_right fun h => ⟨h.1, hv, h.2⟩
  · rintro (⟨s, hs, hv⟩ | ⟨-, hv, -⟩)
    · exact Network.violates_of_block hs hv
    · exact hv

end RoadRules
