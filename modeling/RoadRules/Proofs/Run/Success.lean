/-
Runs that end with success.

- `runWhole_eq_loop`: a run goes from one group of rules to the next, until there is none.
- `runWhole_sound`: if a run that treats a network as a whole has repaired all it has found, then no rule of the plan is
  broken afterwards.
- `runWhole_unshared`: in a network without shared ids such a run keeps all ids.
- `success_sound`: what the flag of a run promises of the resulting network, if the network was not cut into blocks.

The argument goes through the groups of rules. The first one is about shared ids, which are tracked through all repairs;
after it ids do not change any more, and the violations of all rules checked so far are tracked.
-/
import RoadRules.Proofs.Rule.Grouping
import RoadRules.Proofs.Run.Closure
import RoadRules.Run.Outcome

namespace RoadRules

namespace Plan

/-! ## The flag -/

/-- has everything been repaired that was found so far? -/
def Course.Flag (c : Course) : Prop := c.result.repairingPossible = true

theorem flag_repairOne {p : Plan} {c : Course} {v : Violation} (h : (p.repairOne c v).Flag) :
    c.Flag ∧ (p.closure c.map v).pending.isEmpty = true := by
  have h : ((c.result.addRuns _ _).recordResidual (p.closure c.map v).pending).repairingPossible = true := h
  unfold RunResult.recordResidual at h
  split_ifs at h with he
  exact ⟨h, he⟩

/-- a flag that is up at the end was up all the time -/
theorem flag_foldl {α : Type} {step : Course → α → Course} (hstep : ∀ c a, (step c a).Flag → c.Flag) (l : List α)
    (c : Course) (h : (l.foldl step c).Flag) : c.Flag := by
  induction l generalizing c with
  | nil => exact h
  | cons a l ih => exact hstep c a (ih _ h)

theorem flag_repairAll {p : Plan} {c : Course} {found : Violations} (h : (p.repairAll c found).Flag) : c.Flag :=
  flag_foldl (fun _ _ h => (flag_repairOne h).1) _ _ h

theorem flag_runGroup {p : Plan} {c : Course} {g : RuleGroup} (h : (p.runGroup c g).Flag) : c.Flag := by
  -- the flag is the same after what is found has been noted
  exact flag_repairAll (c := ⟨c.map, (c.result.addRuns 1 0).recordInitial (p.catalog.verify c.map.network g.rules)⟩) h

/-- what every repair of something found keeps up -/
theorem repairAll_induction {p : Plan} {P : Course → Prop} {c : Course} {found : Violations} (h : P c)
    (step : ∀ c, P c → ∀ v ∈ found, P (p.repairOne c v)) : P (p.repairAll c found) :=
  List.foldlRecOn found.toList p.repairOne h step

section Tracked

variable {p : Plan} (hp : p.catalog = standardCatalog) {T T' : RuleId → Prop} {Inv : RoadMap → Prop}
  {Pend : Violation → Prop}

/-! ## One violation -/

include hp

/-- The repair of a violation takes it off what is accounted for, unless it is given up. -/
theorem Tracks.repairOne (ht : p.Tracks T Inv Pend) (c : Course) {v : Violation} (hi : Inv c.map) (hv : Pend v) :
    Inv (p.repairOne c v).map ∧ ((p.repairOne c v).Flag → ∀ E : Violation → Prop,
      Confined T (fun w => w = v ∨ E w) c.map.network → Confined T E (p.repairOne c v).map.network) := by
  obtain ⟨hi', hc⟩ := ht.closure hp c.map hi hv
  exact ⟨hi', fun hflag => hc (flag_repairOne hflag).2⟩

/-- **All violations of a list.** -/
theorem Tracks.foldl_repairOne (ht : p.Tracks T Inv Pend) (vs : List Violation) (c : Course) (hi : Inv c.map)
    (hv : ∀ v ∈ vs, Pend v) : Inv (vs.foldl p.repairOne c).map ∧
      ((vs.foldl p.repairOne c).Flag → ∀ E : Violation → Prop,
        Confined T (fun w => w ∈ vs ∨ E w) c.map.network → Confined T E (vs.foldl p.repairOne c).map.network) := by
  induction vs generalizing c with
  | nil => exact ⟨hi, fun _ E h w hT hviol => (h w hT hviol).resolve_left List.not_mem_nil⟩
  | cons v vs ih =>
    obtain ⟨hi', hone⟩ := ht.repairOne hp c hi (hv v List.mem_cons_self)
    obtain ⟨hi'', hrest⟩ := ih (p.repairOne c v) hi' fun w hw => hv w (List.mem_cons_of_mem _ hw)
    have hflag := flag_foldl (fun c w (h : (p.repairOne c w).Flag) => (flag_repairOne h).1) vs (p.repairOne c v)
    refine ⟨hi'', fun h E hE => hrest h E (hone (hflag h) _ (hE.mono fun w hw => ?_))⟩
    rwa [List.mem_cons, or_assoc] at hw

/-- **All violations of a check.** -/
theorem Tracks.repairAll (ht : p.Tracks T Inv Pend) {m : RoadMap} (hi : Inv m) {found : Violations}
    (hv : ∀ v ∈ found, Pend v) (r : RunResult) : Inv (p.repairAll ⟨m, r⟩ found).map ∧
      ((p.repairAll ⟨m, r⟩ found).Flag → ∀ E : Violation → Prop,
        Confined T (fun w => w ∈ found ∨ E w) m.network → Confined T E (p.repairAll ⟨m, r⟩ found).map.network) :=
  ht.foldl_repairOne hp found.toList ⟨m, r⟩ hi hv

/-! ## One group of rules -/

/-- A group that is done with success leaves no violation of its rules, nor of those that had none before. -/
theorem Tracks.runGroup (ht : p.Tracks T Inv Pend) (c : Course) (g : RuleGroup) (hi : Inv c.map)
    (hv : ∀ v : Violation, v.rule ∈ g.rules → c.map.network.Violates v → Pend v) :
    Inv (p.runGroup c g).map ∧ ((p.runGroup c g).Flag → ∀ E : Violation → Prop,
      Confined T (fun v => v.rule ∈ g.rules ∨ E v) c.map.network → Confined T E (p.runGroup c g).map.network) := by
  have found : ∀ v ∈ p.catalog.verify c.map.network g.rules, v.rule ∈ g.rules ∧ c.map.network.Violates v := by
    intro v hv
    rw [hp] at hv
    exact Violations.mem_verify.1 hv
  obtain ⟨hi', hc⟩ := ht.repairAll hp hi (fun v hm => hv v (found v hm).1 (found v hm).2)
    ((c.result.addRuns 1 0).recordInitial (p.catalog.verify c.map.network g.rules))
  refine ⟨hi', fun hflag E h => hc hflag E fun v hT hviol => ?_⟩
  refine (h v hT hviol).imp_left fun hr => ?_
  rw [hp]
  exact Violations.mem_verify.2 ⟨hr, hviol⟩

/-- **Groups after the first.** They keep all ids. If all are done with success, no rule that was dealt with is broken
afterwards. -/
theorem foldl_runGroup {n₀ : Network} (gs : List RuleGroup)
    (hgs : ∀ g ∈ gs, ∀ r ∈ g.rules, r ∈ p.rules ∧ r.topic ≠ .general) (c : Course)
    (hd : Drift (Present n₀) n₀ c.map.network) (hT : ∀ r, T r → r ∈ p.rules) :
    Drift (Present n₀) n₀ (gs.foldl p.runGroup c).map.network ∧
      ((gs.foldl p.runGroup c).Flag → Confined T (fun _ => False) c.map.network →
        Confined (fun r => T r ∨ ∃ g ∈ gs, r ∈ g.rules) (fun _ => False) (gs.foldl p.runGroup c).map.network) := by
  induction gs generalizing c T with
  | nil => exact ⟨hd, fun _ h v hT => h v (hT.resolve_right (by simp))⟩
  | cons g gs ih =>
    have hg := hgs g List.mem_cons_self
    have hT' : ∀ r, T r ∨ r ∈ g.rules → r ∈ p.rules := fun r hr => hr.elim (hT r) fun hr => (hg r hr).1
    obtain ⟨hd', hone⟩ := (tracks_drift hp n₀ hT').runGroup hp c g hd fun v hr hviol =>
      ⟨(hg _ hr).2, (Network.partnered_of_violates hviol).drift hd⟩
    obtain ⟨hd'', hrest⟩ := ih (fun g' hg' => hgs g' (List.mem_cons_of_mem _ hg')) (p.runGroup c g) hd' hT'
    refine ⟨hd'', fun hflag h v hv => ?_⟩
    have hflag' : (p.runGroup c g).Flag := flag_foldl (fun _ _ => flag_runGroup) gs _ hflag
    refine hrest hflag (hone hflag' (fun _ => False) fun w hw hviol => ?_) v ?_
    · rcases hw with hw | hw
      · exact (h w hw hviol).elim
      · exact Or.inl hw
    · rcases hv with hv | ⟨g', hg', hr⟩
      · exact Or.inl (Or.inl hv)
      · rcases List.mem_cons.1 hg' with rfl | hg'
        · exact Or.inl (Or.inr hr)
        · exact Or.inr ⟨g', hg', hr⟩

end Tracked

/-! ## All groups -/

/-- the rules of a topic among those of a plan -/
def topicGroup (p : Plan) (t : Topic) : RuleGroup :=
  ⟨t, RuleId.values.filter fun r => r.topic == t && p.rules.contains r⟩

theorem mem_topicGroup {p : Plan} {t : Topic} {r : RuleId} :
    r ∈ (p.topicGroup t).rules ↔ r.topic = t ∧ r ∈ p.rules := by
  simp [topicGroup, RuleId.mem_values]

/-- **The loop of a run** takes the next group, and checks and repairs it, until there is none. -/
theorem runWhole_eq_loop (p : Plan) (m : RoadMap) :
    p.runWhole m = (Schedule.ofRules p.rules).foldl p.runGroup ⟨m, { rules := p.rules }⟩ :=
  (Schedule.foldl_ofRules _ _ _).symm

/-- what every group of rules of the plan keeps up -/
theorem runWhole_induction {p : Plan} {P : Course → Prop} {m : RoadMap} (h : P ⟨m, { rules := p.rules }⟩)
    (step : ∀ c, P c → ∀ g, (∀ r ∈ g.rules, r ∈ p.rules) → P (p.runGroup c g)) : P (p.runWhole m) :=
  List.foldlRecOn _ p.runGroup h fun c hc g hg =>
    step c hc g fun r hr => (RuleGroup.rules_of_mem_ofRules hg r hr).2

/-- the groups for the topics but the general one -/
def laterGroups (p : Plan) : List RuleGroup :=
  ([Topic.lanelet, .trafficSign, .trafficLight, .intersection].map p.topicGroup).filter fun g => !g.rules.isEmpty

theorem ofRules_eq (p : Plan) : RuleGroup.ofRules p.rules =
    if (p.topicGroup .general).rules.isEmpty then p.laterGroups else p.topicGroup .general :: p.laterGroups := by
  have : RuleGroup.ofRules p.rules = (Topic.values.map p.topicGroup).filter fun g => !g.rules.isEmpty := rfl
  rw [this, laterGroups, Topic.values, List.map_cons, List.filter_cons]
  cases (p.topicGroup .general).rules.isEmpty <;> rfl

theorem mem_laterGroups {p : Plan} {r : RuleId} :
    (∃ g ∈ p.laterGroups, r ∈ g.rules) ↔ r.topic ≠ .general ∧ r ∈ p.rules := by
  simp only [laterGroups, List.mem_filter, List.mem_map]
  constructor
  · rintro ⟨g, ⟨⟨t, ht, rfl⟩, -⟩, hr⟩
    obtain ⟨rfl, hrules⟩ := mem_topicGroup.1 hr
    exact ⟨by rintro h; rw [h] at ht; simp at ht, hrules⟩
  · rintro ⟨hg, hr⟩
    have hm : r ∈ (p.topicGroup r.topic).rules := mem_topicGroup.2 ⟨rfl, hr⟩
    refine ⟨p.topicGroup r.topic, ⟨⟨r.topic, ?_, rfl⟩, ?_⟩, hm⟩
    · cases h : r.topic <;> first | exact absurd h hg | simp
    · simpa using List.ne_nil_of_mem hm

section Whole

variable {p : Plan} (hp : p.catalog = standardCatalog)

include hp

/-- what the first group leaves behind -/
theorem unshared_runGroup (c : Course) (hm : c.map.Counted)
    (hflag : (p.runGroup c (p.topicGroup .general)).Flag) :
    p.Unshared (p.runGroup c (p.topicGroup .general)).map.network := by
  obtain ⟨-, h⟩ := (tracks_shared hp).runGroup hp c (p.topicGroup .general) hm fun _ _ _ => trivial
  intro v hr hg hviol
  exact h hflag (fun _ => False) (fun w hw _ => Or.inl (mem_topicGroup.2 hw.symm)) v ⟨hr, hg⟩ hviol

/-- what the other groups leave behind, if no ids are shared -/
theorem foldl_laterGroups (c : Course) (hc : p.Unshared c.map.network) :
    Drift (Present c.map.network) c.map.network (p.laterGroups.foldl p.runGroup c).map.network ∧
      ((p.laterGroups.foldl p.runGroup c).Flag →
        Confined (· ∈ p.rules) (fun _ => False) (p.laterGroups.foldl p.runGroup c).map.network) := by
  obtain ⟨hd, h⟩ := foldl_runGroup (T := fun r => r ∈ p.rules ∧ r.topic = .general) hp p.laterGroups
    (fun g hg r hr => (mem_laterGroups.1 ⟨g, hg, hr⟩).symm) c (.refl _ _) fun r hr => hr.1
  refine ⟨hd, fun hflag v hr => h hflag (fun w hw hviol => hc w hw.1 hw.2 hviol) v ?_⟩
  by_cases hg : v.rule.topic = .general
  · exact Or.inl ⟨hr, hg⟩
  · exact Or.inr (mem_laterGroups.2 ⟨hg, hr⟩)

/-- **Soundness of the flag.** If a run has repaired all that it has found, no rule of the plan is broken. -/
theorem runWhole_sound (m : RoadMap) (hm : m.Counted) (hflag : (p.runWhole m).Flag) :
    Confined (· ∈ p.rules) (fun _ => False) (p.runWhole m).map.network := by
  simp only [runWhole, ofRules_eq] at hflag ⊢
  split_ifs at hflag ⊢ with hempty
  · refine (foldl_laterGroups hp _ fun v hr hg _ => ?_).2 hflag
    have hmem := mem_topicGroup.2 ⟨hg, hr⟩
    rw [List.isEmpty_iff.1 hempty] at hmem
    cases hmem
  · rw [List.foldl_cons] at hflag ⊢
    have hfirst := flag_foldl (fun _ _ => flag_runGroup) _ _ hflag
    exact (foldl_laterGroups hp _ (unshared_runGroup hp _ hm hfirst)).2 hflag

/-- **Runs without shared ids** keep all ids, whether they succeed or not, and if they do, no rule of the plan is
broken. -/
theorem runWhole_unshared (m : RoadMap) (hm : p.Unshared m.network) :
    Drift (Present m.network) m.network (p.runWhole m).map.network ∧
      ((p.runWhole m).Flag → Confined (· ∈ p.rules) (fun _ => False) (p.runWhole m).map.network) := by
  have later : ∀ c : Course, c.map = m → Drift (Present m.network) m.network
      (p.laterGroups.foldl p.runGroup c).map.network ∧ ((p.laterGroups.foldl p.runGroup c).Flag →
        Confined (· ∈ p.rules) (fun _ => False) (p.laterGroups.foldl p.runGroup c).map.network) := by
    rintro c rfl
    exact foldl_laterGroups hp c hm
  simp only [runWhole, ofRules_eq]
  split_ifs
  · exact later _ rfl
  · rw [List.foldl_cons]
    refine later _ ?_
    -- the first group finds nothing
    have none : p.catalog.verify m.network (p.topicGroup .general).rules = ⟨[]⟩ := by
      have hempty : (p.catalog.verify m.network (p.topicGroup .general).rules).isEmpty = true := by
        rw [hp, Violations.verify_isEmpty]
        intro v hv hviol
        obtain ⟨hg, hr⟩ := mem_topicGroup.1 hv
        exact hm v hr hg hviol
      exact congrArg Violations.mk (List.isEmpty_iff.1 hempty)
    simp only [runGroup, none]
    rfl

end Whole

end Plan

/-! ## The outcome -/

/-- the network that the repairs were made in -/
def RunOutcome.repaired (o : RunOutcome) : RoadMap := o.copy.getD o.network

namespace Plan

theorem repaired_verifyAndRepair (p : Plan) (m : RoadMap) :
    (p.verifyAndRepair m).result = (p.run m).result ∧ (p.verifyAndRepair m).repaired = (p.run m).map := by
  unfold verifyAndRepair
  split_ifs <;> exact ⟨rfl, rfl⟩

theorem isValid_verify {p : Plan} (hp : p.catalog = standardCatalog) {n : Network} :
    (p.verify n).isValid = true ↔ Confined (· ∈ p.rules) (fun _ => False) n := by
  have hempty : (p.verify n).isValid = (p.catalog.verify n p.rules).toList.isEmpty := rfl
  rw [hempty, hp, List.isEmpty_iff, List.eq_nil_iff_forall_not_mem]
  constructor
  · exact fun h v hr hviol => h v (Violations.mem_verify.2 ⟨hr, hviol⟩)
  · intro h v hv
    obtain ⟨hr, hviol⟩ := Violations.mem_verify.1 hv
    exact h v hr hviol

/-- **Success is to be trusted.** If a run over a network that is not cut into blocks ends with success, a check of the
resulting network finds nothing. -/
theorem success_sound {c : Catalog} (hc : Catalog.standard = .ok c) {config : Config} {p : Plan}
    (hp : Plan.ofConfig config c = .ok p) (m : RoadMap) (hm : m.Counted)
    (hsmall : m.network.count .lanelet ≤ config.partitionThreshold)
    (hflag : (p.verifyAndRepair m).result.repairingPossible = true) :
    (p.verify (p.verifyAndRepair m).repaired.network).isValid = true := by
  obtain ⟨hconfig, hcatalog⟩ := ofConfig_eq hp
  have hstd : p.catalog = standardCatalog := hcatalog.trans (Except.ok.inj (hc.symm.trans Catalog.standard_eq))
  obtain ⟨hresult, hmap⟩ := p.repaired_verifyAndRepair m
  have hrun : p.run m = p.runWhole m := if_neg (by rw [hconfig]; exact Nat.not_lt.2 hsmall)
  rw [hresult, hrun] at hflag
  rw [hmap, hrun, isValid_verify hstd]
  exact runWhole_sound hstd m hm hflag

/-- two lanelets share an id, and one of them has a successor that does not exist -/
theorem success_sound_twins : ∃ p,
    Plan.ofConfig { rules := [.uniqueIdLa, .existenceSuccessor] } standardCatalog = .ok p ∧
    ∃ m, m = RoadMap.ofDocument { lanelets := [{ id := 1 }, { id := 1, successors := .ofList [7] }] } ∧
      (p.verify m.network).isValid = false ∧
      ((p.verifyAndRepair m).repaired.network.lanelets.values.map fun l => (l.id, l.successors.toList)) =
        [(1, []), (2, [])] ∧
      (p.verifyAndRepair m).result.repairingPossible = true ∧
        (p.verify (p.verifyAndRepair m).repaired.network).isValid = true := by
  have hp : Plan.ofConfig { rules := [.uniqueIdLa, .existenceSuccessor] } standardCatalog =
      .ok ⟨{ rules := [.uniqueIdLa, .existenceSuccessor] }, standardCatalog, [.uniqueIdLa, .existenceSuccessor]⟩ := rfl
  refine ⟨_, hp, _, rfl, by decide +kernel, by decide +kernel, ?flag,
    success_sound Catalog.standard_eq hp _ ?_ (by decide) ?flag⟩
  · decide +kernel
  · exact RoadMap.counted_ofDocument _

end Plan

end RoadRules
