/-
Ids where the network is cut.

Before a network is cut into blocks, violations across blocks are repaired, shared ids among them. Some of the others
may be given up, but not these, unless the ids have run out:

- `RoadMap.Spent`: the counter has come to its end, and there were more elements than ids.
- `shared_repair`: a repair leaves only ids shared that were before, and not the one it is for, unless no fresh one is
  left.
- `general_round`: so the first round for a violation leaves no shared id pending, or the ids are spent.
- `general_closure`: nor do the rounds after it, which hand out no ids.
- `unshared_acrossBlocks`: so where the network is cut, no ids are shared against a rule of the plan, unless the ids are
  spent.
-/
import RoadRules.Proofs.Network.Operations
import RoadRules.Proofs.Repair.Twice
import RoadRules.Proofs.Rule.Plain
import RoadRules.Proofs.Run.Partitioned

namespace RoadRules

/-! ## Counting -/

namespace Network

theorem elementCount_le {n : Network} {hs : List Handle} (h : ∀ x ∈ n.allHandles, x ∈ hs) :
    n.elementCount ≤ hs.length := by
  rw [elementCount_eq]
  exact ((NetworkIndex.nodup_allHandles n).subperm h).length_le

theorem elementCount_add (n : Network) (e : Element) : (n.add e).elementCount ≤ n.elementCount + 1 := by
  have hle := elementCount_le fun x (hx : x ∈ (n.add e).allHandles) => List.mem_cons.2 (mem_allHandles_add hx)
  rwa [List.length_cons, ← elementCount_eq] at hle

/-- a network that has an element of each id has as many ids as there can be -/
theorem idLimit_le_idCount {n : Network} (h : ∀ id : ElementId, ∃ x, n.idOf? x = some id) : idLimit ≤ n.idCount := by
  have hinj : Set.InjOn UInt32.ofNat (Finset.range idLimit : Set Nat) := by
    intro i hi j hj hij
    rw [Finset.coe_range, Set.mem_Iio] at hi hj
    have heq := congrArg UInt32.toNat hij
    rwa [UInt32.toNat_ofNat_of_lt' hi, UInt32.toNat_ofNat_of_lt' hj] at heq
  have hsub : (Finset.range idLimit).image UInt32.ofNat ⊆ n.allIds.toFinset := by
    intro id _
    exact List.mem_toFinset.2 (mem_allIds.2 (h id))
  calc idLimit = (Finset.range idLimit).card := (Finset.card_range idLimit).symm
    _ = ((Finset.range idLimit).image UInt32.ofNat).card := (Finset.card_image_of_injOn hinj).symm
    _ ≤ n.idCount := Finset.card_le_card hsub

end Network

namespace RoadMap

/-- a map all of whose ids count as used, with no element outside and no more than `bound` elements -/
structure Within (bound : Nat) (m : RoadMap) : Prop where
  counted : m.Counted
  external : m.network.external = {}
  few : m.network.elementCount ≤ bound

variable {bound : Nat} {m m' : RoadMap}

/-- Has the counter come to its end, and may there have been more elements than ids? -/
def Spent (bound : Nat) (m : RoadMap) : Prop := m.ids.watermark = idLimit ∧ idLimit < bound

theorem Spent.of_le (h : m.Spent bound) (hle : m.ids.watermark ≤ m'.ids.watermark) : m'.Spent bound :=
  ⟨Nat.le_antisymm m'.ids.watermark_le (h.1 ▸ hle), h.2⟩

/-- the map of a document has no more elements than the document -/
theorem within_ofDocument (d : Document) : (ofDocument d).Within d.elements.length := by
  have all (es : List Element) (m : RoadMap) (hext : m.network.external = {}) :
      (es.foldl add m).network.external = {} ∧
        (es.foldl add m).network.elementCount ≤ m.network.elementCount + es.length := by
    induction es generalizing m with
    | nil => exact ⟨hext, le_rfl⟩
    | cons e es ih =>
      have hadd : (m.add e).network.external = {} := by cases e <;> exact hext
      obtain ⟨hext', hcount⟩ := ih (m.add e) hadd
      have hone : (m.add e).network.elementCount ≤ m.network.elementCount + 1 := m.network.elementCount_add e
      refine ⟨hext', ?_⟩
      rw [List.foldl_cons, List.length_cons]
      omega
  obtain ⟨hext, hcount⟩ := all d.elements .empty rfl
  exact ⟨counted_ofDocument d, hext, hcount.trans_eq (Nat.zero_add _)⟩

/-! ## Repairs -/

/-- Elements that share an id after a repair shared it before. If the repair was for this id, no fresh one was left. -/
theorem shared_repair (hm : m.Counted) (v : Violation) {x y : Handle} {id : ElementId} (hne : y ≠ x)
    (hx : (m.repair v).1.network.idOf? x = some id) (hy : (m.repair v).1.network.idOf? y = some id) :
    m.network.idOf? x = some id ∧ m.network.idOf? y = some id ∧
      (v.rule.topic = .general → v.location.head? = some id → (m.repair v).1.freshId? = none) := by
  obtain ⟨r, location⟩ := v
  cases location with
  | nil => exact ⟨hx, hy, fun _ h => by cases h⟩
  | cons first rest =>
    by_cases hr : r.topic = .general
    · have hseparate : (m.repair ⟨r, first :: rest⟩).1 = (m.separateIds first).1 :=
        congrArg Prod.fst (RuleId.repairAt_general hr m first rest)
      rw [hseparate] at hx hy ⊢
      obtain ⟨-, hshared, hseparated⟩ := separateIds_settles hm first
      obtain ⟨hy', hx', -, -⟩ := hshared y x id hne hy hx
      refine ⟨hx', hy', fun _ hfirst => hseparated.resolve_right fun halone => ?_⟩
      cases hfirst
      exact hne (halone y x hy hx)
    · obtain ⟨hdrift, -⟩ := m.drift_repair (v := ⟨r, first :: rest⟩) (A := fun _ _ => True) hr
        ⟨fun _ _ _ _ => trivial, fun _ _ _ => trivial⟩
      exact ⟨hdrift.kept hx, hdrift.kept hy, fun h => absurd h hr⟩

end RoadMap

namespace Plan

variable {p : Plan} {bound : Nat} {m : RoadMap}

/-! ## Rounds -/

theorem watermark_round (p : Plan) (m : RoadMap) (P : Violations) :
    (p.repairedCopy m P).ids.watermark ≤ (p.round m P).1.ids.watermark := by
  rw [round_eq]
  exact (IdAllocator.watermark_observeAll _ _).1

theorem within_round (hm : m.Within bound) (P : Violations) : (p.round m P).1.Within bound where
  counted := by
    rw [round_eq]
    exact RoadMap.counted_merge _ _ _
  external := (p.follows_round m P).external.trans hm.external
  few := by
    refine (Network.elementCount_le fun x hx => ?_).trans (m.network.elementCount_eq.symm.trans_le hm.few)
    obtain ⟨e, he⟩ := Network.exists_of_mem_allHandles hx
    obtain ⟨old, hold⟩ := (p.follows_round m P).present he
    exact Network.mem_allHandles_of hold

/-- If a round cannot draw any more although two elements share an id, the ids are spent. -/
theorem spent_of_exhausted (hm : m.Within bound) {P : Violations} (hfresh : (p.repairedCopy m P).freshId? = none)
    {x y : Handle} {id : ElementId} (hne : y ≠ x) (hx : (p.repairedCopy m P).network.idOf? x = some id)
    (hy : (p.repairedCopy m P).network.idOf? y = some id) : (p.round m P).1.Spent bound := by
  have hf := p.follows_round m P
  have hm' := within_round (p := p) hm P
  obtain ⟨hend, hused⟩ := RoadMap.freshId?_eq_none hfresh
  -- all ids are borne by elements of the network, as there is nothing outside it
  have hborne : ∀ i : ElementId, ∃ z, (p.round m P).1.network.idOf? z = some i := by
    intro i
    obtain ⟨kind, hi⟩ := Network.resolves_of_all_used hused i
    rw [← hf.resolves, Network.resolves_iff, hm'.external] at hi
    obtain hi | ⟨k, hk⟩ := hi
    · cases kind <;> cases hi
    · exact ⟨_, hk⟩
  have hmore := Network.idCount_lt hne ((hf.idOf?_inside (hf.has_of_copy hx)).symm.trans hx)
    ((hf.idOf?_inside (hf.has_of_copy hy)).symm.trans hy)
  have hall := Network.idLimit_le_idCount hborne
  have hfew := hm'.few
  refine ⟨Nat.le_antisymm (p.round m P).1.ids.watermark_le (hend ▸ p.watermark_round m P), ?_⟩
  omega

theorem spent_round (h : m.Spent bound) (P : Violations) : (p.round m P).1.Spent bound :=
  h.of_le ((p.renames_round m P).2.trans (p.watermark_round m P))

/-! ## Shared ids -/

section Standard

variable (hp : p.catalog = standardCatalog)

include hp

/-- **The first round** for a violation leaves no shared id pending, unless the ids are spent. -/
theorem general_round (hm : m.Within bound) (v : Violation) : (p.round m (.single v)).1.Spent bound ∨
    ∀ w ∈ (p.round m (.single v)).2, w.rule.topic ≠ .general := by
  by_contra h
  push Not at h
  obtain ⟨hspent, w, hw, hg⟩ := h
  obtain ⟨⟨hr, hviol⟩, hnew⟩ := (mem_round hp (Violations.distinct_single v)).1 hw
  obtain ⟨kind, hfault⟩ := RuleId.fault_of_general hg
  obtain ⟨x, y, i, hkind, hne, hx, hy, hloc⟩ := (Network.violates_shared_iff hfault).1 hviol
  have hcopy : RoadMap.Counted ⟨m.network.extract (p.vicinityScope m (.single v)), m.ids⟩ := fun z j hz =>
    hm.counted z j (Network.idOf?_of_extract hz).2
  obtain ⟨hx', hy', hleft⟩ := RoadMap.shared_repair hcopy v hne hx hy
  -- the id was shared before, so that it can only be pending because the round was for it
  obtain rfl : w = v := Violations.mem_single.1 <| hnew.resolve_right fun hno =>
    hno ⟨hr, (Network.violates_shared_iff hfault).2 ⟨x, y, i, hkind, hne, hx', hy', hloc⟩⟩
  exact hspent (spent_of_exhausted hm (hleft hg (by rw [hloc]; rfl)) hne hx hy)

/-- a two-way link that is pending after a round is one of lanelets that the network has -/
theorem partnered_round {P : Violations} (hd : P.Distinct) {w : Violation} (hw : w ∈ (p.round m P).2) :
    Partnered (p.round m P).1.network w := by
  have hf := p.follows_round m P
  obtain ⟨⟨-, hviol⟩, -⟩ := (mem_round hp hd).1 hw
  intro hrule id hid
  obtain ⟨k, hk⟩ := Network.hasLocal_iff.1 (Network.partnered_of_violates hviol hrule id hid)
  exact Network.hasLocal_iff.2 ⟨k, (hf.idOf?_inside (hf.has_of_copy hk)).symm.trans hk⟩

/-- **The repair of a violation** leaves no shared id pending, unless the ids are spent. -/
theorem general_closure (hlimit : 0 < p.config.maxIterations) (hm : m.Within bound) (v : Violation) :
    (p.closure m v).map.Spent bound ∨ ∀ w ∈ (p.closure m v).pending, w.rule.topic ≠ .general := by
  obtain ⟨limit, hlimit⟩ := Nat.exists_eq_succ_of_ne_zero hlimit.ne'
  have first : p.closure m v = p.rounds (limit + 1) ⟨m, p.stillPresent m.network v, 0⟩ := by rw [Plan.closure, hlimit]
  by_cases hempty : (p.stillPresent m.network v).isEmpty = true
  · right
    rw [first, Plan.rounds, if_pos hempty]
    exact fun w hw => absurd hw (Violations.not_mem_of_isEmpty hempty w)
  have hsingle : p.stillPresent m.network v = .single v := by
    unfold stillPresent at hempty ⊢
    split_ifs at hempty ⊢
    · rfl
    · exact absurd rfl hempty
  rw [first, Plan.rounds, if_neg hempty, hsingle]
  obtain hspent | hgeneral := general_round hp hm v
  · exact Or.inl (rounds_induction (Q := fun m _ => m.Spent bound) (fun _ P h => spent_round h P) limit _ hspent)
  · -- from now on no ids are handed out
    have tracks := tracks_drift (T := fun _ => False) hp (p.round m (.single v)).1.network fun _ => False.elim
    obtain ⟨-, hpend, -⟩ := tracks.rounds limit ⟨(p.round m (.single v)).1, (p.round m (.single v)).2, 1⟩ (.refl _ _)
      (p.distinct_round _ _) fun w hw => ⟨hgeneral w hw, partnered_round hp (Violations.distinct_single v) hw⟩
    exact Or.inr fun w hw => (hpend w hw).1

/-! ## Checks across blocks -/

/-- The repair of a violation takes it off the shared ids that are accounted for, unless the ids are spent. -/
theorem general_repairOne (hlimit : 0 < p.config.maxIterations) {c : Course} (hm : c.map.Within bound) {v : Violation}
    {E : Violation → Prop} (h : c.map.Spent bound ∨
      Confined (fun r => r ∈ p.rules ∧ r.topic = .general) (fun w => w = v ∨ E w) c.map.network) :
    (p.repairOne c v).map.Within bound ∧ ((p.repairOne c v).map.Spent bound ∨
      Confined (fun r => r ∈ p.rules ∧ r.topic = .general) E (p.repairOne c v).map.network) := by
  change (p.closure c.map v).map.Within bound ∧ ((p.closure c.map v).map.Spent bound ∨ Confined _ E _)
  refine ⟨rounds_induction (Q := fun m _ => m.Within bound) (fun _ P h => within_round h P) _ _ hm, ?_⟩
  obtain hspent | hconfined := h
  · exact Or.inl (rounds_induction (Q := fun m _ => m.Spent bound) (fun _ P h => spent_round h P) _ _ hspent)
  refine (general_closure hp hlimit hm v).imp_right fun hpending w hw hviol => ?_
  obtain ⟨-, hafter⟩ := (tracks_shared hp).closure_pending hp c.map (v := v) hm.counted trivial
  exact (hafter E hconfined w hw hviol).resolve_left fun hmem => hpending w hmem hw.2

/-- so do the repairs of several violations -/
theorem general_foldl_repairOne (hlimit : 0 < p.config.maxIterations) (vs : List Violation) {c : Course}
    (hm : c.map.Within bound) (h : c.map.Spent bound ∨
      Confined (fun r => r ∈ p.rules ∧ r.topic = .general) (· ∈ vs) c.map.network) :
    (vs.foldl p.repairOne c).map.Within bound ∧ ((vs.foldl p.repairOne c).map.Spent bound ∨
      p.Unshared (vs.foldl p.repairOne c).map.network) := by
  induction vs generalizing c with
  | nil => exact ⟨hm, h.imp_right fun h v hr hg hv => List.not_mem_nil (h v ⟨hr, hg⟩ hv)⟩
  | cons v vs ih =>
    simp only [List.mem_cons] at h
    obtain ⟨hm', h'⟩ := general_repairOne hp hlimit hm h
    exact ih hm' h'

/-- **Where the network is cut**, no ids are shared against a rule of the plan, unless the ids are spent. -/
theorem unshared_acrossBlocks (hlimit : 0 < p.config.maxIterations) (hm : m.Within bound) :
    (p.acrossBlocks m).map.Within bound ∧
      ((p.acrossBlocks m).map.Spent bound ∨ p.Unshared (p.cutNetwork m)) := by
  rw [cutNetwork, acrossBlocks]
  obtain ⟨heq, hunshared⟩ | ⟨found, r, heq, hfound⟩ :=
    repairAcross_cases hp (m.network.partition p.config.blockSize) ⟨m, { rules := p.rules, partitioned := true }⟩
  · rw [heq]
    exact ⟨hm, Or.inr hunshared⟩
  · rw [heq]
    exact general_foldl_repairOne hp hlimit found.toList (c := ⟨m, r⟩) hm
      (Or.inr fun v hv hviol => hfound v hv.1 hv.2 hviol)

end Standard

end Plan

end RoadRules
