/-
What a round of repairs leaves behind.

Violations of tracked rules are confined (`Confined`) to those that are pending and those that are accounted for
otherwise. A round keeps this up, although it looks only at a neighbourhood and drops from what it finds there whatever
was there before:

- `tracks_shared`: shared ids are tracked through repairs of all sorts, as long as all ids count as used.
- `tracks_drift`: all rules are tracked through repairs that keep all ids. Such repairs bring about no shared ids, so
  there is never one to repair.
-/
import RoadRules.Proofs.Rule.Merging

namespace RoadRules

/-! ## Kinds of rules -/

/-- rules of the general topic forbid shared ids -/
theorem RuleId.fault_of_general {r : RuleId} (h : r.topic = .general) : ∃ kind, r.fault = .shared kind := by
  cases r <;> first | exact ⟨_, rfl⟩ | exact absurd h (by decide)

/-- does no element share an id against one of the rules of the plan? -/
def Plan.Unshared (p : Plan) (n : Network) : Prop :=
  ∀ v : Violation, v.rule ∈ p.rules → v.rule.topic = .general → ¬ n.Violates v

/-- a second id in the location of a two-way link is borne by a lanelet -/
def Partnered (n : Network) (v : Violation) : Prop :=
  v.rule = .nonPredecessorAsSuccessor → ∀ id ∈ v.location.tail.head?, n.hasLocal .lanelet id = true

namespace Network

variable {n m : Network}

theorem partnered_of_violates {v : Violation} (hv : n.Violates v) : Partnered n v := by
  intro hr id hid
  obtain ⟨b, hat, hloc⟩ := hv
  rw [hr] at hat
  obtain ⟨x, y, l, k, rfl, hl, hk, -⟩ := Fault.at_bothWays.1 hat
  obtain ⟨j, rfl, hj⟩ := element?_eq_lanelet.1 hk
  have hlid := idOf?_of_element? hl
  have hkid := idOf?_of_element? hk
  rw [List.filterMap_cons_some hlid, List.filterMap_cons_some hkid] at hloc
  rw [← hloc] at hid
  cases hid
  exact hasLocal_iff.2 ⟨j, hkid⟩

/-- ids that are shared after others have gone were shared before -/
theorem shared_of_kept (hk : ∀ x id, m.idOf? x = some id → n.idOf? x = some id) {v : Violation}
    (hg : v.rule.topic = .general) (hv : m.Violates v) : n.Violates v := by
  obtain ⟨kind, hf⟩ := RuleId.fault_of_general hg
  obtain ⟨b, hat, hloc⟩ := hv
  have hloc' := (location_congr (n := n) (fun x _ id hid => hk x id hid) (present_of_at hat)).trans hloc
  rw [hf] at hat
  obtain ⟨x, rfl, hkind, id, hx, y, hne, hy⟩ := Fault.at_shared.1 hat
  exact ⟨[x], hf ▸ Fault.at_shared.2 ⟨x, rfl, hkind, id, hk x id hx, y, hne, hk y id hy⟩, hloc'⟩

end Network

theorem Partnered.drift {A : Kind → ElementId → Prop} {a b : Network} {v : Violation} (h : Partnered b v)
    (hd : Drift A a b) : Partnered a v := fun hr id hid => hd.hasLocal (h hr id hid)

theorem Plan.Unshared.drift {p : Plan} {A : Kind → ElementId → Prop} {a b : Network} (h : p.Unshared a)
    (hd : Drift A a b) : p.Unshared b := fun v hr hg hv =>
  h v hr hg (Network.shared_of_kept (fun _ _ hid => hd.kept hid) hg hv)

/-! ## Confinement -/

/-- are all violations of some rules among those in `E`? -/
def Confined (T : RuleId → Prop) (E : Violation → Prop) (n : Network) : Prop :=
  ∀ v : Violation, T v.rule → n.Violates v → E v

theorem Confined.mono {T : RuleId → Prop} {E E' : Violation → Prop} {n : Network} (h : Confined T E n)
    (hE : ∀ v, E v → E' v) : Confined T E' n := fun v hT hv => hE v (h v hT hv)

namespace Plan

/-- an element that the network has -/
def Present (n : Network) (kind : Kind) (id : ElementId) : Prop := n.hasLocal kind id = true

/-- Rounds keep violations of the rules in `T` confined, and keep up something about the map and what is pending that
they need for it. -/
structure Tracks (p : Plan) (T : RuleId → Prop) (Inv : RoadMap → Prop) (Pend : Violation → Prop) : Prop where
  inv : ∀ {m : RoadMap} {P : Violations}, Inv m → P.Distinct → (∀ v ∈ P, Pend v) → Inv (p.round m P).1
  pend : ∀ {m : RoadMap} {P : Violations}, Inv m → P.Distinct → (∀ v ∈ P, Pend v) → ∀ v ∈ (p.round m P).2, Pend v
  confined : ∀ {m : RoadMap} {P : Violations}, Inv m → P.Distinct → (∀ v ∈ P, Pend v) →
    ∀ E : Violation → Prop,
    Confined T (fun v => v ∈ P ∨ E v) m.network →
    Confined T (fun v => v ∈ (p.round m P).2 ∨ E v) (p.round m P).1.network

/-- the neighbourhood that a round is about -/
def vicinityScope (p : Plan) (m : RoadMap) (P : Violations) : Scope :=
  m.network.aroundAll p.config.radius P.ids.toList

/-- the copy of it after the repairs -/
def repairedCopy (p : Plan) (m : RoadMap) (P : Violations) : RoadMap :=
  (RoadMap.repairEach ⟨m.network.extract (p.vicinityScope m P), m.ids⟩ P.toList).1

theorem round_eq (p : Plan) (m : RoadMap) (P : Violations) : p.round m P =
    (RoadMap.merge ⟨m.network, (p.repairedCopy m P).ids⟩ (p.vicinityScope m P) (p.repairedCopy m P).network,
      owned (p.catalog.verify (p.repairedCopy m P).network p.rules) P
        (p.catalog.verify (m.network.extract (p.vicinityScope m P)) p.rules)) := rfl

/-- what the repairs of a round do to the copy -/
theorem renames_round (p : Plan) (m : RoadMap) (P : Violations) :
    Renames m.ids.watermark (m.network.extract (p.vicinityScope m P)) (p.repairedCopy m P).network ∧
      m.ids.watermark ≤ (p.repairedCopy m P).ids.watermark :=
  RoadMap.renames_repairEach ⟨m.network.extract (p.vicinityScope m P), m.ids⟩ P.toList (Nat.le_refl m.ids.watermark)

/-- the copy changes as the network does -/
theorem follows_round (p : Plan) (m : RoadMap) (P : Violations) :
    Network.Follows m.network (p.vicinityScope m P) (p.round m P).1.network (p.repairedCopy m P).network :=
  (Network.EditedCopy.of_renames (p.renames_round m P).1).follows

theorem distinct_round (p : Plan) (m : RoadMap) (P : Violations) : (p.round m P).2.Distinct := by
  rw [round_eq]
  exact Violations.distinct_filter (Violations.distinct_verify _ _ _) _

section Round

variable {p : Plan} (hp : p.catalog = standardCatalog) {m : RoadMap} {P : Violations}

include hp

theorem mem_round (hd : P.Distinct) {v : Violation} : v ∈ (p.round m P).2 ↔
    (v.rule ∈ p.rules ∧ (p.repairedCopy m P).network.Violates v) ∧
      (v ∈ P ∨ ¬ (v.rule ∈ p.rules ∧ (m.network.extract (p.vicinityScope m P)).Violates v)) := by
  rw [round_eq, Violations.mem_owned hd (Violations.distinct_verify _ _ _), hp, Violations.mem_verify,
    Violations.mem_verify]

/-- **A round.** If each violation afterwards is seen in the copy, or was there before away from what was pending, then
violations stay confined. -/
theorem confined_round {T : RuleId → Prop} (hT : ∀ r, T r → r ∈ p.rules) (hd : P.Distinct)
    (hf : Network.Follows m.network (p.vicinityScope m P) (p.round m P).1.network (p.repairedCopy m P).network)
    (key : ∀ v : Violation, T v.rule → (p.round m P).1.network.Violates v →
      (p.repairedCopy m P).network.Violates v ∨
        m.network.Violates v ∧ ∀ id ∈ v.location.head?, id ∉ P.ids.toList)
    (E : Violation → Prop) (h : Confined T (fun v => v ∈ P ∨ E v) m.network) :
    Confined T (fun v => v ∈ (p.round m P).2 ∨ E v) (p.round m P).1.network := by
  intro v hv hviol
  rcases key v hv hviol with hc | ⟨hn, hout⟩
  · by_cases hpend : v ∈ P
    · exact Or.inl ((mem_round hp hd).2 ⟨⟨hT _ hv, hc⟩, Or.inl hpend⟩)
    · by_cases hcopy : (m.network.extract (p.vicinityScope m P)).Violates v
      · -- the round takes it for an old violation, and so it is
        have hn := Network.violates_of_extract hf hcopy hviol
        exact Or.inr ((h v hv hn).resolve_left hpend)
      · exact Or.inl ((mem_round hp hd).2 ⟨⟨hT _ hv, hc⟩, Or.inr fun hb => hcopy hb.2⟩)
  · refine Or.inr ((h v hv hn).resolve_left fun hpend => ?_)
    obtain ⟨b, hat, hloc⟩ := hn
    obtain ⟨x, rest, id, -, -, hhead⟩ := Network.head_location hat hloc
    exact hout id hhead (Violations.mem_ids.2 ⟨v, hpend, List.mem_of_mem_head? hhead⟩)

/-- **Shared ids** are tracked through all repairs. -/
theorem tracks_shared : p.Tracks (fun r => r ∈ p.rules ∧ r.topic = .general) RoadMap.Counted fun _ => True where
  inv {m P} _ _ _ := by
    rw [round_eq]
    exact RoadMap.counted_merge _ _ _
  pend _ _ _ _ _ := trivial
  confined {m P} hm hd _ E h := by
    have hf := p.follows_round m P
    refine confined_round hp (fun r hr => hr.1) hd hf (fun v hv hviol => ?_) E h
    obtain ⟨kind, hfault⟩ := RuleId.fault_of_general hv.2
    exact Network.shared_of_renames (m.network.surrounds_aroundAll _ _) hf (p.renames_round m P).1 hm hfault hviol

omit hp in
/-- a round of repairs that hand out no ids -/
theorem drift_round {n₀ : Network} (h : Drift (Present n₀) n₀ m.network)
    (hquiet : ∀ v ∈ P, v.rule.topic ≠ .general ∧ Partnered n₀ v) :
    Drift (Present n₀) (m.network.extract (p.vicinityScope m P)) (p.repairedCopy m P).network ∧
      Drift (fun _ id => id ∈ P.ids.toList) (m.network.extract (p.vicinityScope m P))
        (p.repairedCopy m P).network := by
  constructor
  · refine (RoadMap.drift_repairEach ⟨m.network.extract (p.vicinityScope m P), m.ids⟩ P.toList
      (fun v hv => (hquiet v hv).1) fun v hv => ⟨fun id _ kind hloc => ?_, ?_⟩).1
    · obtain ⟨k, hk⟩ := Network.hasLocal_iff.1 hloc
      exact h.hasLocal (Network.hasLocal_iff.2 ⟨k, (Network.idOf?_of_extract hk).2⟩)
    · exact (hquiet v hv).2
  · refine (RoadMap.drift_repairEach ⟨m.network.extract (p.vicinityScope m P), m.ids⟩ P.toList
      (fun v hv => (hquiet v hv).1) fun v hv => ⟨fun id hid _ _ => ?_, ?_⟩).1
    · exact Violations.mem_ids.2 ⟨v, hv, List.mem_of_mem_head? hid⟩
    · exact fun _ id hid => Violations.mem_ids.2 ⟨v, hv, List.mem_of_mem_tail (List.mem_of_mem_head? hid)⟩

/-- **All rules** are tracked through repairs that hand out no ids. -/
theorem tracks_drift (n₀ : Network) {T : RuleId → Prop} (hT : ∀ r, T r → r ∈ p.rules) :
    p.Tracks T (fun m => Drift (Present n₀) n₀ m.network) fun v => v.rule.topic ≠ .general ∧ Partnered n₀ v where
  inv {m P} hm hd hquiet := by
    obtain ⟨hdrift, -⟩ := drift_round hm hquiet
    exact hm.trans ((Network.EditedCopy.of_drift hdrift).follows.drift hdrift)
  pend {m P} hm hd hquiet v hv := by
    obtain ⟨hdrift, -⟩ := drift_round hm hquiet
    obtain ⟨⟨hr, hviol⟩, hnew⟩ := (mem_round hp hd).1 hv
    constructor
    · intro hg
      -- no shared id is pending, and none is new
      have hold := Network.shared_of_kept (fun _ _ hid => hdrift.kept hid) hg hviol
      exact (hnew.resolve_left fun hpend => (hquiet v hpend).1 hg) ⟨hr, hold⟩
    · intro hr id hid
      obtain ⟨k, hk⟩ := Network.hasLocal_iff.1 (hdrift.hasLocal (Network.partnered_of_violates hviol hr id hid))
      exact hm.hasLocal (Network.hasLocal_iff.2 ⟨k, (Network.idOf?_of_extract hk).2⟩)
  confined {m P} hm hd hquiet E h := by
    obtain ⟨-, hdrift⟩ := drift_round hm hquiet
    have hf := (Network.EditedCopy.of_drift hdrift).follows
    refine confined_round hp hT hd hf (fun v _ hviol => ?_) E h
    exact Network.violates_of_drift (m.network.surrounds_aroundAll _ _) hf (hf.drift hdrift) (fun _ _ hid => hid) hviol

end Round

end Plan

end RoadRules
