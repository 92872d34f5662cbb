/-
Runs over networks in which no rule is broken.

- `Network.merge_extract`: an unchanged copy written back leaves the network as it is.
- `Untouched`: a course has left the network as it was, and has noted neither a violation nor a repair. Each step of a
  run keeps this up (`Untouched.runGroup`, `Untouched.repairAcross`, `Untouched.settleBlock`,
  `Untouched.settleDangling`): what it checks is the network or a part of it, and a part breaks no rule that the network
  does not break.
- `valid_untouched`: so a run leaves a valid network as it is, cut into blocks or not.

Nothing is asked of the network but that the rules of the plan hold. It may have references that resolve nowhere and
ids that several elements bear, as long as no rule of the plan is against them.
-/
import RoadRules.Proofs.Run.BlockChecks

namespace RoadRules

namespace Network

/-- an unchanged copy written back leaves the network as it is -/
theorem merge_extract (n : Network) (s : Scope) : n.merge s (n.extract s) = n := by
  -- the copy has nothing outside the scope, so no element comes in and the next key stays
  have none : ∀ {α : Type} (store : Store α) (scope : SortedSet Nat),
      (store.restrict scope.contains).outside scope = [] := by
    intro α store scope
    refine List.eq_nil_iff_forall_not_mem.2 fun v hv => ?_
    obtain ⟨k, hk, hout⟩ := Store.mem_outside.1 hv
    rw [Store.get?_restrict, SortedSet.contains_eq] at hk
    simp [hout] at hk
  refine ext_element? (fun x => ?_) rfl ?_
  · rw [element?_merge (.refl n s), element?_extract]
    split_ifs <;> rfl
  · simp only [merge, extract, none, List.length_nil, Nat.add_zero]

/-- unchanged copies written back one after the other -/
theorem mergeAll_extract (n : Network) {pieces : Pieces} (h : ∀ q ∈ pieces, q.2 = n.extract q.1) :
    n.mergeAll pieces = n := by
  unfold mergeAll
  induction pieces with
  | nil => rfl
  | cons q pieces ih =>
    rw [List.foldl_cons, h q List.mem_cons_self, merge_extract]
    exact ih fun q hq => h q (List.mem_cons_of_mem _ hq)

end Network

theorem Violations.eq_empty_of_isEmpty {vs : Violations} (h : vs.isEmpty = true) : vs = .empty :=
  congrArg Violations.mk (List.isEmpty_iff.1 h)

/-! ## Results -/

/-- a result in which no violation and no repair has been noted -/
structure RunResult.Clean (r : RunResult) : Prop where
  initialCounts : r.initialCounts = []
  initial : r.initial = []
  residual : r.residual = []
  chains : r.chains = []
  repairingPossible : r.repairingPossible = true

namespace RunResult.Clean

variable {r other : RunResult}

theorem addRuns (h : r.Clean) (verifications repairs : Nat) : (r.addRuns verifications repairs).Clean :=
  ⟨h.initialCounts, h.initial, h.residual, h.chains, h.repairingPossible⟩

theorem recordInitial_empty (h : r.Clean) : (r.recordInitial .empty).Clean :=
  ⟨h.initialCounts, by rw [RunResult.recordInitial, h.initial]; rfl, h.residual, h.chains, h.repairingPossible⟩

theorem absorb (h : r.Clean) (ho : other.Clean) : (r.absorb other).Clean where
  initialCounts := by simp [RunResult.absorb, h.initialCounts, h.initial, ho.initial, addNew]
  initial := by simp [RunResult.absorb, h.initial, ho.initial, addNew]
  residual := by simp [RunResult.absorb, h.residual, ho.residual, addNew]
  chains := by simp [RunResult.absorb, h.chains, ho.chains]
  repairingPossible := by simp [RunResult.absorb, h.repairingPossible, ho.repairingPossible]

end RunResult.Clean

namespace Plan

/-! ## Courses -/

/-- does no element break a rule of the plan? -/
def Satisfied (p : Plan) (n : Network) : Prop := Confined (· ∈ p.rules) (fun _ => False) n

/-- a course that has come to nothing: the network is `n` as before, and the result is clean -/
structure Untouched (n : Network) (c : Course) : Prop where
  network : c.map.network = n
  clean : c.result.Clean

theorem repairAll_empty (p : Plan) (c : Course) : p.repairAll c .empty = c := rfl

section Steps

variable {p : Plan} (hp : p.catalog = standardCatalog) {n : Network} (hn : p.Satisfied n)

include hp hn

/-- a check of rules of the plan finds nothing -/
theorem Satisfied.verify {rules : List RuleId} (hr : ∀ r ∈ rules, r ∈ p.rules) : p.catalog.verify n rules = .empty := by
  refine Violations.eq_empty_of_isEmpty ?_
  rw [hp, Violations.verify_isEmpty]
  exact fun v hv hviol => hn v (hr _ hv) hviol

/-- nor does a check around some ids -/
theorem Satisfied.verifyAround {rules : List RuleId} (hr : ∀ r ∈ rules, r ∈ p.rules) (ids : IdSet) :
    p.verifyAround n ids rules = .empty := by
  refine Violations.eq_empty_of_isEmpty (List.isEmpty_iff.2 (List.eq_nil_iff_forall_not_mem.2 ?_))
  rintro ⟨r, ls⟩ he
  -- an entry that is kept has a location, and the network would have the violation there
  obtain ⟨l, hl⟩ : ∃ l, l ∈ ls := List.exists_mem_of_ne_nil _ (by simpa using (List.mem_filter.1 he).2)
  obtain ⟨hmem, hviol, -⟩ := (mem_verifyAround hp).1 (Violations.mem_iff.2 ⟨ls, he, hl⟩ : ⟨r, l⟩ ∈ _)
  exact hn _ (hr _ hmem) hviol

theorem Untouched.runGroup {c : Course} (hc : Untouched n c) {g : RuleGroup} (hg : ∀ r ∈ g.rules, r ∈ p.rules) :
    Untouched n (p.runGroup c g) := by
  obtain ⟨rfl, hclean⟩ := hc
  simp only [Plan.runGroup, hn.verify hp hg, repairAll_empty]
  exact ⟨rfl, (hclean.addRuns 1 0).recordInitial_empty⟩

omit hn in
/-- **Runs over a network as a whole.** -/
theorem untouched_runWhole {m : RoadMap} (hm : p.Satisfied m.network) : Untouched m.network (p.runWhole m) :=
  runWhole_induction ⟨rfl, rfl, rfl, rfl, rfl, rfl⟩ fun _ hc _ hg => hc.runGroup hp hm hg

theorem Untouched.repairAcross {c : Course} (hc : Untouched n c) (partition : Partition) :
    Untouched n (p.repairAcross partition c) := by
  obtain ⟨rfl, hclean⟩ := hc
  have found : ∀ ids, p.verifyAround c.map.network ids (p.rules.filter (·.spansBlocks)) = .empty :=
    hn.verifyAround hp fun r hr => (List.mem_filter.1 hr).1
  simp only [Plan.repairAcross, found, repairAll_empty]
  split_ifs
  · exact ⟨rfl, hclean⟩
  · exact ⟨rfl, (hclean.addRuns 1 0).recordInitial_empty⟩

theorem Untouched.settleDangling {c : Course} (hc : Untouched n c) : Untouched n (p.settleDangling c) := by
  obtain ⟨rfl, hclean⟩ := hc
  simp only [Plan.settleDangling, hn.verifyAround hp fun r hr => hr, repairAll_empty]
  split_ifs
  · exact ⟨rfl, hclean⟩
  · exact ⟨rfl, hclean.addRuns 1 0⟩

omit hn in
/-- a block of a network that breaks no rule breaks none, so its run leaves it as it is -/
theorem Untouched.settledBlocks {m : RoadMap} (hm : p.Satisfied (p.cutNetwork m)) {e : Scope × Network × RunResult}
    (he : e ∈ p.settledBlocks m) : e.2.1 = (p.cutNetwork m).extract e.1 ∧ e.2.2.Clean := by
  obtain ⟨hs, counter, hrun⟩ := mem_settledBlocks he
  have hblock : p.Satisfied ((p.cutNetwork m).extract e.1) := fun v hr hviol =>
    hm v hr (Network.violates_of_block hs hviol)
  obtain ⟨hnetwork, hclean⟩ := untouched_runWhole hp (m := ⟨(p.cutNetwork m).extract e.1, counter⟩) hblock
  rw [hrun]
  exact ⟨hnetwork, hclean⟩

omit hp hn in
/-- results of blocks taken together -/
theorem clean_foldl_settleBlock (blocks : List (Scope × Network × RunResult)) (c : Course) (hc : c.result.Clean)
    (h : ∀ e ∈ blocks, e.2.2.Clean) : (blocks.foldl settleBlock c).result.Clean := by
  induction blocks generalizing c with
  | nil => exact hc
  | cons e blocks ih =>
    exact ih (settleBlock c e) (hc.absorb (h e List.mem_cons_self)) fun e he => h e (List.mem_cons_of_mem _ he)

omit hn in
/-- **Runs by blocks.** -/
theorem untouched_runPartitioned {m : RoadMap} (hm : p.Satisfied m.network) :
    Untouched m.network (p.runPartitioned m) := by
  have across : Untouched m.network (p.acrossBlocks m) :=
    Untouched.repairAcross hp hm ⟨rfl, rfl, rfl, rfl, rfl, rfl⟩ _
  have hcut : p.cutNetwork m = m.network := across.network
  have blocks : ∀ e ∈ p.settledBlocks m, e.2.1 = m.network.extract e.1 ∧ e.2.2.Clean := fun e he =>
    hcut ▸ Untouched.settledBlocks hp (hcut.symm ▸ hm) he
  rw [runPartitioned_eq]
  refine Untouched.settleDangling hp hm ⟨?network, ?clean⟩
  case network =>
    simp only [mergedCourse, network_foldl_settleBlock, across.network]
    refine m.network.mergeAll_extract fun q hq => ?_
    obtain ⟨e, he, rfl⟩ := List.mem_map.1 hq
    exact (blocks e he).1
  case clean =>
    obtain ⟨hcounts, hinitial, hresidual, hchains, hflag⟩ := across.clean
    exact clean_foldl_settleBlock _ _ ⟨hcounts, hinitial, hresidual, hchains, hflag⟩ fun e he => (blocks e he).2

end Steps

/-! ## Whole runs -/

/-- settings with all numbers above zero make a plan with the full rule set -/
theorem exists_plan (config : Config) (hiterations : 1 ≤ config.maxIterations) (hradius : 1 ≤ config.radius)
    (hblock : 1 ≤ config.blockSize) : ∃ p, Plan.ofConfig config standardCatalog = .ok p := by
  have hvalid : config.validate = .ok () := by
    rw [Config.validate, if_neg (by omega), if_neg (by omega), if_neg (by omega)]
  have hall : (config.rules.find? fun r => !standardCatalog.contains r) = none := by
    simp [List.find?_eq_none, Catalog.contains_standard]
  simp only [ofConfig, hvalid, Catalog.select, hall]
  split_ifs <;> exact ⟨_, rfl⟩

/-- **A valid network is left alone.** For all settings that can be used and all networks in which a check finds
nothing, a run keeps every element as it is, in the network as in the repaired copy, and notes neither a violation nor a
repair. -/
theorem valid_untouched {c : Catalog} (hc : Catalog.standard = .ok c) (config : Config)
    (hiterations : 1 ≤ config.maxIterations) (hradius : 1 ≤ config.radius) (hblock : 1 ≤ config.blockSize) :
    ∃ p, Plan.ofConfig config c = .ok p ∧ ∀ m : RoadMap, (p.verify m.network).isValid = true →
      (p.verifyAndRepair m).network.network = m.network ∧ (p.verifyAndRepair m).repaired.network = m.network ∧
        (p.verifyAndRepair m).result.Clean := by
  obtain rfl : c = standardCatalog := Except.ok.inj (hc.symm.trans Catalog.standard_eq)
  obtain ⟨p, hp⟩ := exists_plan config hiterations hradius hblock
  have hstd := (catalog_of_standard hc hp).2
  refine ⟨p, hp, fun m hvalid => ?_⟩
  have hm : p.Satisfied m.network := (isValid_verify hstd).1 hvalid
  obtain ⟨hnetwork, hclean⟩ : Untouched m.network (p.run m) := by
    unfold run
    split_ifs
    · exact untouched_runPartitioned hstd hm
    · exact untouched_runWhole hstd hm
  obtain ⟨hresult, hrepaired⟩ := p.repaired_verifyAndRepair m
  refine ⟨?_, (congrArg RoadMap.network hrepaired).trans hnetwork, hresult ▸ hclean⟩
  unfold verifyAndRepair
  split_ifs
  · exact hnetwork
  · rfl

/-- blocks of one lanelet each, two lanelets with one id, a successor that does not exist, and a rule that is broken by
neither -/
theorem valid_untouched_dangling : ∃ p,
    Plan.ofConfig { rules := [.connectionsSuccessor], partitionThreshold := 0, blockSize := 1 } standardCatalog =
      .ok p ∧
    ∃ m, m = RoadMap.ofDocument { lanelets := [{ id := 1, successors := .ofList [7] }, { id := 2 }, { id := 2 }] } ∧
      p.config.partitionThreshold < m.network.count .lanelet ∧ (p.verify m.network).isValid = true ∧
      (p.verifyAndRepair m).network.network = m.network ∧ (p.verifyAndRepair m).repaired.network = m.network ∧
        (p.verifyAndRepair m).result.Clean := by
  obtain ⟨p, hp, huntouched⟩ := valid_untouched Catalog.standard_eq
    { rules := [.connectionsSuccessor], partitionThreshold := 0, blockSize := 1 } (by decide) (by decide) (by decide)
  obtain rfl : p = ⟨{ rules := [.connectionsSuccessor], partitionThreshold := 0, blockSize := 1 }, standardCatalog,
    [.connectionsSuccessor]⟩ := Except.ok.inj (hp.symm.trans rfl)
  have hvalid : (Plan.verify ⟨{ rules := [.connectionsSuccessor], partitionThreshold := 0, blockSize := 1 },
      standardCatalog, [.connectionsSuccessor]⟩ (RoadMap.ofDocument { lanelets :=
        [{ id := 1, successors := .ofList [7] }, { id := 2 }, { id := 2 }] }).network).isValid = true := by
    decide +kernel
  exact ⟨_, hp, _, rfl, by decide, hvalid, huntouched _ hvalid⟩

end Plan

end RoadRules
