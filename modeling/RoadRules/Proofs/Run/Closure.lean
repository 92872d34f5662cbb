/-
The repair of one violation, with all its rounds.

- `rounds_induction`, `Tracks.rounds`: what a round keeps up, all rounds do.
- `Tracks.closure`: if nothing is pending in the end, the violation is taken off what is accounted for.
- `closure_shrinks`: so the repair of a violation other than a shared id leaves the network with fewer violations.
- `residual_real`: if something is pending in the end, the network has it, but for a sign or a light that the last copy
  took for unreferenced (`residual_unreal_far_reference`).
-/
import RoadRules.Proofs.Run.Round

namespace RoadRules

namespace Plan

/-- a plan keeps the settings and the catalog it is made from -/
theorem ofConfig_eq {config : Config} {c : Catalog} {p : Plan} (h : Plan.ofConfig config c = .ok p) :
    p.config = config ∧ p.catalog = c := by
  unfold ofConfig at h
  split at h
  · cases h
  · split at h <;> cases h
    exact ⟨rfl, rfl⟩

/-- a plan of the full rule set -/
theorem catalog_of_standard {c : Catalog} (hc : Catalog.standard = .ok c) {config : Config} {p : Plan}
    (hp : Plan.ofConfig config c = .ok p) : c = standardCatalog ∧ p.catalog = standardCatalog := by
  have hstd : c = standardCatalog := Except.ok.inj (hc.symm.trans Catalog.standard_eq)
  exact ⟨hstd, (ofConfig_eq hp).2.trans hstd⟩

/-- a plan allows at least one round -/
theorem maxIterations_pos {config : Config} {c : Catalog} {p : Plan} (hp : Plan.ofConfig config c = .ok p) :
    0 < p.config.maxIterations := by
  rw [(ofConfig_eq hp).1]
  by_contra h
  have hzero : config.maxIterations = 0 := by omega
  simp [ofConfig, Config.validate, hzero] at hp

section Closure

variable {p : Plan} (hp : p.catalog = standardCatalog) {T : RuleId → Prop} {Inv : RoadMap → Prop}
  {Pend : Violation → Prop}

include hp in
/-- what is pending at first is the violation itself, if the network has it -/
theorem stillPresent_spec (n : Network) (v : Violation) : (p.stillPresent n v).Distinct ∧
    (∀ w ∈ p.stillPresent n v, w = v) ∧ (n.Violates v → v ∈ p.stillPresent n v) := by
  unfold stillPresent
  rw [hp]
  split_ifs with h
  · exact ⟨Violations.distinct_single v, fun w hw => Violations.mem_single.1 hw, fun _ => Violations.mem_single.2 rfl⟩
  · refine ⟨Violations.distinct_empty, fun w hw => ?_, fun hv => absurd ?_ h⟩
    · exact absurd hw (Violations.not_mem_of_isEmpty rfl w)
    · rw [Violations.contains_iff (Violations.distinct_verify _ _ _), Violations.mem_verify]
      obtain ⟨b, hat, hloc⟩ := hv
      obtain ⟨x, rest, id, -, -, hhead⟩ := Network.head_location hat hloc
      have hs := n.surrounds_aroundAll p.config.radius v.location
      exact ⟨List.mem_singleton.2 rfl,
        (Network.violates_extract hs hhead (List.mem_of_mem_head? hhead)).2 ⟨b, hat, hloc⟩⟩

/-- what each round keeps up, some rounds do -/
theorem rounds_induction {Q : RoadMap → Violations → Prop}
    (step : ∀ m P, Q m P → Q (p.round m P).1 (p.round m P).2) (limit : Nat) (s : Progress) (hs : Q s.map s.pending) :
    Q (p.rounds limit s).map (p.rounds limit s).pending := by
  induction limit generalizing s with
  | zero => exact hs
  | succ limit ih =>
    simp only [Plan.rounds]
    split_ifs
    · exact hs
    · exact ih _ (step _ _ hs)

/-- **All rounds.** -/
theorem Tracks.rounds (ht : p.Tracks T Inv Pend) (limit : Nat) (s : Progress) (hi : Inv s.map)
    (hd : s.pending.Distinct) (hv : ∀ v ∈ s.pending, Pend v) : Inv (p.rounds limit s).map ∧
      (∀ v ∈ (p.rounds limit s).pending, Pend v) ∧
      ∀ E : Violation → Prop, Confined T (fun v => v ∈ s.pending ∨ E v) s.map.network →
        Confined T (fun v => v ∈ (p.rounds limit s).pending ∨ E v) (p.rounds limit s).map.network := by
  obtain ⟨-, all⟩ := rounds_induction (p := p) (Q := fun m P => P.Distinct ∧ Inv m ∧ (∀ v ∈ P, Pend v) ∧
    ∀ E : Violation → Prop, Confined T (fun v => v ∈ s.pending ∨ E v) s.map.network →
      Confined T (fun v => v ∈ P ∨ E v) m.network)
    (fun m P ⟨hd, hi, hv, hc⟩ => ⟨p.distinct_round m P, ht.inv hi hd hv, ht.pend hi hd hv, fun E h =>
      ht.confined hi hd hv E (hc E h)⟩)
    limit s ⟨hd, hi, hv, fun _ h => h⟩
  exact all

include hp in
/-- What is pending in the end takes the place of the violation in what is accounted for. -/
theorem Tracks.closure_pending (ht : p.Tracks T Inv Pend) (m : RoadMap) {v : Violation} (hi : Inv m) (hv : Pend v) :
    Inv (p.closure m v).map ∧ ∀ E : Violation → Prop, Confined T (fun w => w = v ∨ E w) m.network →
      Confined T (fun w => w ∈ (p.closure m v).pending ∨ E w) (p.closure m v).map.network := by
  obtain ⟨hd, honly, hstill⟩ := stillPresent_spec hp m.network v
  obtain ⟨hi', -, hc⟩ := ht.rounds p.config.maxIterations ⟨m, p.stillPresent m.network v, 0⟩ hi hd
    fun w hw => honly w hw ▸ hv
  refine ⟨hi', fun E h => hc E fun u hu hn => ?_⟩
  rcases h u hu hn with hw | hE
  · exact Or.inl (hw ▸ hstill (hw ▸ hn))
  · exact Or.inr hE

include hp in
/-- The repair of a violation takes it off what is accounted for, unless it is given up. -/
theorem Tracks.closure (ht : p.Tracks T Inv Pend) (m : RoadMap) {v : Violation} (hi : Inv m) (hv : Pend v) :
    Inv (p.closure m v).map ∧ ((p.closure m v).pending.isEmpty = true → ∀ E : Violation → Prop,
      Confined T (fun w => w = v ∨ E w) m.network → Confined T E (p.closure m v).map.network) := by
  obtain ⟨hi', hc⟩ := ht.closure_pending hp m hi hv
  exact ⟨hi', fun hempty E h w hT hviol => (hc E h w hT hviol).resolve_left (Violations.not_mem_of_isEmpty hempty w)⟩

end Closure

/-! ## Success -/

/-- **Success takes away and adds nothing.** If the repair of a violation that is not a shared id succeeds, then all
violations of the network afterwards were there before, and the repaired one is not among them. -/
theorem closure_shrinks {c : Catalog} (hc : Catalog.standard = .ok c) {config : Config} {p : Plan}
    (hp : Plan.ofConfig config c = .ok p) (m : RoadMap) {s : Violation} (hs : s ∈ c.verify m.network [s.rule])
    (hid : s.rule ∉ [RuleId.uniqueIdLa, .uniqueIdTs, .uniqueIdTl, .uniqueIdIn])
    (hsuccess : (p.closure m s).pending.isEmpty = true) :
    (∀ v ∈ c.verify (p.closure m s).map.network p.rules, v ∈ c.verify m.network p.rules) ∧
      ¬ s ∈ c.verify (p.closure m s).map.network p.rules := by
  obtain ⟨rfl, hstd⟩ := catalog_of_standard hc hp
  have general : ∀ r : RuleId, r.topic = .general →
      r ∈ [RuleId.uniqueIdLa, .uniqueIdTs, .uniqueIdTl, .uniqueIdIn] := by
    intro r
    cases r <;> decide
  have hg : s.rule.topic ≠ .general := fun h => hid (general _ h)
  have hviol : m.network.Violates s := (Violations.mem_verify.1 hs).2
  obtain ⟨-, hshrink⟩ := (tracks_drift hstd m.network fun _ hr => hr).closure hstd m (.refl _ _)
    ⟨hg, Network.partnered_of_violates hviol⟩
  have left : Confined (· ∈ p.rules) (fun w => m.network.Violates w ∧ w ≠ s) (p.closure m s).map.network := by
    refine hshrink hsuccess _ fun w _ hw => ?_
    by_cases hws : w = s
    · exact Or.inl hws
    · exact Or.inr ⟨hw, hws⟩
  constructor
  · intro v hv
    obtain ⟨hr, hv⟩ := Violations.mem_verify.1 hv
    exact Violations.mem_verify.2 ⟨hr, (left v hr hv).1⟩
  · intro h
    obtain ⟨hr, hv⟩ := Violations.mem_verify.1 h
    exact (left s hr hv).2 rfl

/-- a lanelet without borders goes, and then the sign that only this lanelet refers to -/
theorem closure_shrinks_two_rounds : ∃ p,
    Plan.ofConfig { rules := [.verticesMoreThanOne, .referencedTrafficSign] } standardCatalog = .ok p ∧
    ∃ m, m = RoadMap.ofDocument
        { lanelets := [{ id := 1, trafficSigns := .ofList [9] }], trafficSigns := [{ id := 9 }] } ∧
      (p.closure m ⟨.verticesMoreThanOne, [1]⟩).iterations = 2 ∧
      (∀ v ∈ standardCatalog.verify (p.closure m ⟨.verticesMoreThanOne, [1]⟩).map.network p.rules,
        v ∈ standardCatalog.verify m.network p.rules) ∧
      ¬ ⟨.verticesMoreThanOne, [1]⟩ ∈
        standardCatalog.verify (p.closure m ⟨.verticesMoreThanOne, [1]⟩).map.network p.rules := by
  have hp : Plan.ofConfig { rules := [.verticesMoreThanOne, .referencedTrafficSign] } standardCatalog =
      .ok ⟨{ rules := [.verticesMoreThanOne, .referencedTrafficSign] }, standardCatalog,
        [.verticesMoreThanOne, .referencedTrafficSign]⟩ := rfl
  refine ⟨_, hp, _, rfl, by decide +kernel, closure_shrinks Catalog.standard_eq hp _ ?found (by decide) ?done⟩
  case found =>
    rw [← Violations.contains_iff (Violations.distinct_verify _ _ _)]
    decide +kernel
  case done => decide +kernel

/-! ## Giving up -/

section Residual

variable {p : Plan} (hp : p.catalog = standardCatalog)

include hp in
/-- What is pending after a round, the network has, or a lanelet refers to what it is about. -/
theorem pending_round {m : RoadMap} {P : Violations} (hd : P.Distinct) {w : Violation} (hw : w ∈ (p.round m P).2) :
    w.rule ∈ p.rules ∧ ((p.round m P).1.network.Violates w ∨ (p.round m P).1.network.Refers w) := by
  obtain ⟨⟨hr, hviol⟩, -⟩ := (mem_round hp hd).1 hw
  exact ⟨hr, Network.violates_of_copy (p.follows_round m P) hviol⟩

include hp in
/-- What is pending when the repair of a violation ends, the network has, or a lanelet refers to what it is about. -/
theorem pending_closure (hlimit : 0 < p.config.maxIterations) (m : RoadMap) (v : Violation) {w : Violation}
    (hw : w ∈ (p.closure m v).pending) : w.rule ∈ p.rules ∧
      ((p.closure m v).map.network.Violates w ∨ (p.closure m v).map.network.Refers w) := by
  obtain ⟨hd, -⟩ := stillPresent_spec hp m.network v
  obtain ⟨limit, hlimit⟩ := Nat.exists_eq_succ_of_ne_zero hlimit.ne'
  have first : p.closure m v = p.rounds (limit + 1) ⟨m, p.stillPresent m.network v, 0⟩ := by rw [Plan.closure, hlimit]
  rw [first, Plan.rounds] at hw ⊢
  split_ifs at hw ⊢ with hempty
  · exact absurd hw (Violations.not_mem_of_isEmpty hempty w)
  · obtain ⟨-, all⟩ := rounds_induction (p := p) (Q := fun m P => P.Distinct ∧ ∀ w ∈ P, w.rule ∈ p.rules ∧
      (m.network.Violates w ∨ m.network.Refers w))
      (fun m P h => ⟨p.distinct_round m P, fun w hw => pending_round hp h.1 hw⟩) limit
      ⟨(p.round m (p.stillPresent m.network v)).1, (p.round m (p.stillPresent m.network v)).2, 1⟩
      ⟨p.distinct_round _ _, fun w hw => pending_round hp hd hw⟩
    exact all w hw

end Residual

/-- **What is given up is there**, but for one case: a sign or a light may be given up as unreferenced though some
lanelet refers to it. -/
theorem residual_real {c : Catalog} (hc : Catalog.standard = .ok c) {config : Config} {p : Plan}
    (hp : Plan.ofConfig config c = .ok p) (m : RoadMap) (v : Violation) :
    ∀ w ∈ (p.closure m v).pending, w ∈ c.verify (p.closure m v).map.network p.rules ∨
      ∃ id, w.location = [id] ∧ ∃ l ∈ (p.closure m v).map.network.lanelets.values,
        w.rule = .referencedTrafficSign ∧ id ∈ l.trafficSignRefs ∨
          w.rule = .referencedTrafficLight ∧ id ∈ l.trafficLightRefs := by
  obtain ⟨rfl, hstd⟩ := catalog_of_standard hc hp
  intro w hw
  obtain ⟨hr, hviol | ⟨kind, refs, hf, id, hloc, x, l, hl, href⟩⟩ := pending_closure hstd (maxIterations_pos hp) m v hw
  · exact Or.inl (Violations.mem_verify.2 ⟨hr, hviol⟩)
  · obtain ⟨k, rfl, hk⟩ := Network.element?_eq_lanelet.1 hl
    refine Or.inr ⟨id, hloc, l, Store.mem_values.2 ⟨k, hk⟩, ?_⟩
    cases hrule : w.rule <;> rw [hrule] at hf <;> cases hf
    · exact Or.inl ⟨rfl, href⟩
    · exact Or.inr ⟨rfl, href⟩

/-- The same lanelet and sign with one round allowed: the sign is given up. -/
theorem residual_real_last_reference : ∃ p,
    Plan.ofConfig { rules := [.verticesMoreThanOne, .referencedTrafficSign], maxIterations := 1 } standardCatalog =
      .ok p ∧
    ∃ m, m = RoadMap.ofDocument
        { lanelets := [{ id := 1, trafficSigns := .ofList [9] }], trafficSigns := [{ id := 9 }] } ∧
      (p.closure m ⟨.verticesMoreThanOne, [1]⟩).pending.toList = [⟨.referencedTrafficSign, [9]⟩] ∧
      ∀ w ∈ (p.closure m ⟨.verticesMoreThanOne, [1]⟩).pending,
        w ∈ standardCatalog.verify (p.closure m ⟨.verticesMoreThanOne, [1]⟩).map.network p.rules ∨
          ∃ id, w.location = [id] ∧ ∃ l ∈ (p.closure m ⟨.verticesMoreThanOne, [1]⟩).map.network.lanelets.values,
            w.rule = .referencedTrafficSign ∧ id ∈ l.trafficSignRefs ∨
              w.rule = .referencedTrafficLight ∧ id ∈ l.trafficLightRefs := by
  have hp : Plan.ofConfig { rules := [.verticesMoreThanOne, .referencedTrafficSign], maxIterations := 1 }
      standardCatalog = .ok ⟨{ rules := [.verticesMoreThanOne, .referencedTrafficSign], maxIterations := 1 },
        standardCatalog, [.verticesMoreThanOne, .referencedTrafficSign]⟩ := rfl
  exact ⟨_, hp, _, rfl, by decide +kernel, residual_real Catalog.standard_eq hp _ _⟩

/-- A second lanelet refers to the sign, but it is no neighbour of the first: the sign is given up as unreferenced,
though the network is in order. -/
theorem residual_unreal_far_reference : ∃ c p, Catalog.standard = .ok c ∧
    Plan.ofConfig { rules := [.verticesMoreThanOne, .referencedTrafficSign], maxIterations := 1 } c = .ok p ∧
    ∃ m, m = RoadMap.ofDocument
        { lanelets := [{ id := 1, trafficSigns := .ofList [9] },
            { id := 2, left := [⟨0.0, 1.0⟩, ⟨10.0, 1.0⟩], right := [⟨0.0, -1.0⟩, ⟨10.0, -1.0⟩],
              trafficSigns := .ofList [9] }]
          trafficSigns := [{ id := 9 }] } ∧
      m.network.count .lanelet ≤ p.config.partitionThreshold ∧
      (c.verify m.network p.rules).toList = [⟨.verticesMoreThanOne, [1]⟩] ∧
      (p.closure m ⟨.verticesMoreThanOne, [1]⟩).pending.toList = [⟨.referencedTrafficSign, [9]⟩] ∧
      (c.verify (p.closure m ⟨.verticesMoreThanOne, [1]⟩).map.network p.rules).isEmpty = true := by
  refine ⟨standardCatalog, ⟨{ rules := [.verticesMoreThanOne, .referencedTrafficSign], maxIterations := 1 },
    standardCatalog, [.verticesMoreThanOne, .referencedTrafficSign]⟩, Catalog.standard_eq, rfl, _, rfl, by decide,
    ?before, ?pending, ?after⟩
  case before => decide +kernel
  case pending => decide +kernel
  case after => decide +kernel

end Plan

end RoadRules
