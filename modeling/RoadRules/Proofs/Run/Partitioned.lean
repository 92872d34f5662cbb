/-
Runs that cut the network into blocks.

- `repairAcross_unshared`: if the checks across blocks end with success, no ids are shared when the network is cut.
- `runPartitioned_confined`: what a run that ends with success leaves broken is a link between two blocks that was
  broken when the network was cut.
- `success_sound_blocks`: hence the flag is right just if none of these is still there.
- `success_unsound_late_link`: a run where one is.

Links between blocks are checked once, before shared ids are replaced and before the blocks are made anew, so some may
go unchecked: a reference that led nowhere may lead to a lanelet that has been given a fresh id in the meantime.
-/
import RoadRules.Proofs.Network.Blocks
import RoadRules.Proofs.Run.Pieces
import RoadRules.Proofs.Run.Success

namespace RoadRules

/-- an id that is shared against a rule is listed as such -/
theorem Network.mem_sharedIds_of_violates {n : Network} {v : Violation} (hg : v.rule.topic = .general)
    (hv : n.Violates v) : ∃ id ∈ (NetworkIndex.build n).sharedIds, v.location.head? = some id := by
  obtain ⟨kind, hf⟩ := RuleId.fault_of_general hg
  obtain ⟨b, hat, hloc⟩ := hv
  rw [hf] at hat
  obtain ⟨x, rfl, -, id, hx, y, hne, hy⟩ := Fault.at_shared.1 hat
  rw [List.filterMap_cons_some hx] at hloc
  exact ⟨id, NetworkIndex.mem_sharedIds.2 ⟨y, x, hne, hy, hx⟩, by rw [← hloc]; rfl⟩

namespace Plan

/-- the course of a run up to the cut into blocks that are repaired -/
def acrossBlocks (p : Plan) (m : RoadMap) : Course :=
  p.repairAcross (m.network.partition p.config.blockSize) ⟨m, { rules := p.rules, partitioned := true }⟩

/-- the network that is cut -/
def cutNetwork (p : Plan) (m : RoadMap) : Network := (p.acrossBlocks m).map.network

/-- the scopes of its blocks -/
def cutScopes (p : Plan) (m : RoadMap) : List Scope := (p.cutNetwork m).blockScopes p.config.blockSize

section Steps

variable {p : Plan} (hp : p.catalog = standardCatalog)

include hp

/-- a check around some ids finds the violations that start with one of them -/
theorem mem_verifyAround {n : Network} {ids : IdSet} {rules : List RuleId} {v : Violation} :
    v ∈ p.verifyAround n ids rules ↔ v.rule ∈ rules ∧ n.Violates v ∧ ∃ id ∈ ids, v.location.head? = some id := by
  have start : v.location.head?.any ids.contains = true ↔ ∃ id ∈ ids, v.location.head? = some id := by
    rw [Option.any_eq_true]
    simp only [SortedSet.contains_iff]
    exact ⟨fun ⟨id, hhead, hid⟩ => ⟨id, hid, hhead⟩, fun ⟨id, hid, hhead⟩ => ⟨id, hhead, hid⟩⟩
  rw [verifyAround, Violations.mem_filter, hp, Violations.mem_verify, start, and_assoc]
  refine and_congr_right fun _ => and_congr_left fun ⟨id, hid, hhead⟩ => ?_
  exact Network.violates_extract (n.surrounds_aroundAll p.config.radius ids.toList) hhead hid

/-- Checks across blocks find all ids that are shared against a rule of the plan, or there are none. -/
theorem repairAcross_cases (partition : Partition) (c : Course) :
    p.repairAcross partition c = c ∧ p.Unshared c.map.network ∨
      ∃ found r, p.repairAcross partition c = p.repairAll ⟨c.map, r⟩ found ∧
        ∀ v : Violation, v.rule ∈ p.rules → v.rule.topic = .general → c.map.network.Violates v → v ∈ found := by
  have spans : ∀ v : Violation, v.rule ∈ p.rules → v.rule.topic = .general →
      v.rule ∈ p.rules.filter (·.spansBlocks) := by
    intro v hr hg
    refine List.mem_filter.2 ⟨hr, ?_⟩
    simp [RuleId.spansBlocks, hg]
  have listed : ∀ v : Violation, v.rule.topic = .general → c.map.network.Violates v →
      ∃ id ∈ (partition.boundary c.map.network).union (NetworkIndex.build c.map.network).sharedIds,
        v.location.head? = some id := by
    intro v hg hv
    obtain ⟨id, hid, hhead⟩ := Network.mem_sharedIds_of_violates hg hv
    exact ⟨id, SortedSet.mem_union.2 (Or.inr hid), hhead⟩
  unfold repairAcross
  dsimp only
  split_ifs with hempty
  · -- nothing has to be checked
    refine Or.inl ⟨rfl, fun v hr hg hv => ?_⟩
    obtain ⟨id, hid, -⟩ := listed v hg hv
    rcases Bool.or_eq_true_iff.1 hempty with h | h
    · have hrule := spans v hr hg
      rw [List.isEmpty_iff.1 h] at hrule
      cases hrule
    · have hmem := SortedSet.mem_toList.2 hid
      rw [List.isEmpty_iff.1 h] at hmem
      cases hmem
  · exact Or.inr ⟨_, _, rfl, fun v hr hg hv => (mem_verifyAround hp).2 ⟨spans v hr hg, hv, listed v hg hv⟩⟩

/-- **Checks across blocks.** If they end with success, no ids are shared afterwards against a rule of the plan. -/
theorem repairAcross_unshared (partition : Partition) (c : Course) (hm : c.map.Counted)
    (hflag : (p.repairAcross partition c).Flag) : p.Unshared (p.repairAcross partition c).map.network := by
  obtain ⟨heq, hunshared⟩ | ⟨found, r, heq, hfound⟩ := repairAcross_cases hp partition c
  · rwa [heq]
  · rw [heq] at hflag ⊢
    intro v hr hg hv
    exact ((tracks_shared hp).repairAll hp hm (fun _ _ => trivial) r).2 hflag (fun _ => False)
      (fun w hw hviol => Or.inl (hfound w hw.1 hw.2 hviol)) v ⟨hr, hg⟩ hv

/-- **Dangling references.** If their repairs end with success, what is broken is not theirs. -/
theorem settleDangling_confined {c : Course} (hn : p.Unshared c.map.network) {E : Violation → Prop}
    (h : ∀ v : Violation, v.rule ∈ p.rules → c.map.network.Violates v →
      (∃ id ∈ v.location.head?, id ∈ c.map.network.danglingReferrers) ∨ E v)
    (hflag : (p.settleDangling c).Flag) : Confined (· ∈ p.rules) E (p.settleDangling c).map.network := by
  simp only [settleDangling] at hflag ⊢
  split_ifs at hflag ⊢ with hempty
  · intro v hr hv
    refine (h v hr hv).resolve_left fun ⟨id, _, hid⟩ => ?_
    have hmem := SortedSet.mem_toList.2 hid
    rw [List.isEmpty_iff.1 hempty] at hmem
    cases hmem
  · have quiet : ∀ v ∈ p.verifyAround c.map.network c.map.network.danglingReferrers p.rules,
        v.rule.topic ≠ .general ∧ Partnered c.map.network v := by
      intro v hv
      obtain ⟨hr, hviol, -⟩ := (mem_verifyAround hp).1 hv
      exact ⟨fun hg => hn v hr hg hviol, Network.partnered_of_violates hviol⟩
    refine ((tracks_drift hp c.map.network fun _ hr => hr).repairAll hp (.refl _ _) quiet _).2 hflag E fun v hr hv => ?_
    refine (h v hr hv).imp_left fun ⟨id, hhead, hid⟩ => ?_
    exact (mem_verifyAround hp).2 ⟨hr, hv, id, hid, hhead⟩

end Steps

/-! ## Blocks -/

/-- blocks are run as networks of their own, with whatever the counter has come to -/
theorem mem_runBlocks {p : Plan} {ids : IdAllocator} {copies : List (Scope × Network)}
    {e : Scope × Network × RunResult} (he : e ∈ (p.runBlocks ids copies).2) :
    ∃ copy counter, (e.1, copy) ∈ copies ∧ e.2 =
      ((p.runWhole ⟨copy, counter⟩).map.network, (p.runWhole ⟨copy, counter⟩).result) := by
  induction copies generalizing ids with
  | nil => cases he
  | cons first rest ih =>
    obtain ⟨scope, copy⟩ := first
    rcases List.mem_cons.1 he with rfl | he
    · exact ⟨copy, ids, List.mem_cons_self, rfl⟩
    · obtain ⟨copy', counter, hmem, hrun⟩ := ih he
      exact ⟨copy', counter, List.mem_cons_of_mem _ hmem, hrun⟩

theorem scopes_runBlocks (p : Plan) (ids : IdAllocator) (copies : List (Scope × Network)) :
    (p.runBlocks ids copies).2.map (·.1) = copies.map (·.1) := by
  induction copies generalizing ids with
  | nil => rfl
  | cons first rest ih => exact congrArg (first.1 :: ·) (ih _)

theorem network_foldl_settleBlock (blocks : List (Scope × Network × RunResult)) (c : Course) :
    (blocks.foldl settleBlock c).map.network = c.map.network.mergeAll (blocks.map fun e => (e.1, e.2.1)) := by
  induction blocks generalizing c with
  | nil => rfl
  | cons e blocks ih => exact ih (settleBlock c e)

/-- with the flag of a run the flags of its blocks are up -/
theorem flag_foldl_settleBlock {blocks : List (Scope × Network × RunResult)} {c : Course}
    (h : (blocks.foldl settleBlock c).Flag) : c.Flag ∧ ∀ e ∈ blocks, e.2.2.repairingPossible = true := by
  induction blocks generalizing c with
  | nil => exact ⟨h, fun e he => absurd he List.not_mem_nil⟩
  | cons e blocks ih =>
    obtain ⟨hstep, hrest⟩ := ih h
    have hboth : (c.result.repairingPossible && e.2.2.repairingPossible) = true := hstep
    obtain ⟨hc, he⟩ := Bool.and_eq_true_iff.1 hboth
    refine ⟨hc, fun e' he' => ?_⟩
    rcases List.mem_cons.1 he' with rfl | he'
    · exact he
    · exact hrest e' he'

theorem flag_settleDangling {p : Plan} {c : Course} (h : (p.settleDangling c).Flag) : c.Flag := by
  simp only [settleDangling] at h
  split_ifs at h
  · exact h
  · exact flag_repairAll (c := ⟨c.map, c.result.addRuns 1 0⟩) h

/-- the blocks of a run with their results -/
def settledBlocks (p : Plan) (m : RoadMap) : List (Scope × Network × RunResult) :=
  (p.runBlocks (p.acrossBlocks m).map.ids ((p.cutScopes m).map fun s => (s, (p.cutNetwork m).extract s))).2

/-- the course of a run before dangling references are settled -/
def mergedCourse (p : Plan) (m : RoadMap) : Course :=
  (p.settledBlocks m).foldl settleBlock
    ⟨{ (p.acrossBlocks m).map with
        ids := (p.runBlocks (p.acrossBlocks m).map.ids
          ((p.cutScopes m).map fun s => (s, (p.cutNetwork m).extract s))).1 },
      { (p.acrossBlocks m).result with blockCount := (p.cutScopes m).length }⟩

theorem runPartitioned_eq (p : Plan) (m : RoadMap) : p.runPartitioned m = p.settleDangling (p.mergedCourse m) := rfl

/-- a block with its result is what a run of a part that was cut has come to -/
theorem mem_settledBlocks {p : Plan} {m : RoadMap} {e : Scope × Network × RunResult} (he : e ∈ p.settledBlocks m) :
    e.1 ∈ p.cutScopes m ∧ ∃ counter, e.2 =
      ((p.runWhole ⟨(p.cutNetwork m).extract e.1, counter⟩).map.network,
        (p.runWhole ⟨(p.cutNetwork m).extract e.1, counter⟩).result) := by
  obtain ⟨copy, counter, hmem, hrun⟩ := mem_runBlocks he
  obtain ⟨s, hs, heq⟩ := List.mem_map.1 hmem
  cases heq
  exact ⟨hs, counter, hrun⟩

theorem scopes_settledBlocks (p : Plan) (m : RoadMap) : (p.settledBlocks m).map (·.1) = p.cutScopes m := by
  rw [settledBlocks, scopes_runBlocks, List.map_map]
  exact List.map_id _

/-- the blocks as pieces of the network that was cut -/
def settledPieces (p : Plan) (m : RoadMap) : Network.Pieces := (p.settledBlocks m).map fun e => (e.1, e.2.1)

theorem Unshared.extract {p : Plan} {n : Network} (h : p.Unshared n) (s : Scope) : p.Unshared (n.extract s) :=
  fun v hr hg hv => h v hr hg (Network.shared_of_kept (fun _ _ hid => (Network.idOf?_of_extract hid).2) hg hv)

section Whole

variable {p : Plan} (hp : p.catalog = standardCatalog) {m : RoadMap} (hn : p.Unshared (p.cutNetwork m))

include hp hn

/-- a block that is run on its own keeps all ids, and with success it breaks no rule -/
theorem run_settledBlocks {e : Scope × Network × RunResult} (he : e ∈ p.settledBlocks m) :
    Drift (Present ((p.cutNetwork m).extract e.1)) ((p.cutNetwork m).extract e.1) e.2.1 ∧
      (e.2.2.repairingPossible = true → Confined (· ∈ p.rules) (fun _ => False) e.2.1) := by
  obtain ⟨-, counter, hrun⟩ := mem_settledBlocks he
  rw [hrun]
  exact runWhole_unshared hp ⟨(p.cutNetwork m).extract e.1, counter⟩ (hn.extract e.1)

theorem pieced_mergedCourse :
    Network.Pieced (p.cutNetwork m) (p.mergedCourse m).map.network (p.settledPieces m) := by
  have scope : ∀ q ∈ p.settledPieces m, ∃ e ∈ p.settledBlocks m, q = (e.1, e.2.1) := fun q hq => by
    obtain ⟨e, he, rfl⟩ := List.mem_map.1 hq
    exact ⟨e, he, rfl⟩
  rw [mergedCourse, network_foldl_settleBlock]
  refine Network.pieced_mergeAll ?_ ?_ ?_ ?_
  · intro q hq
    obtain ⟨e, he, rfl⟩ := scope q hq
    exact (run_settledBlocks hp hn he).1
  · intro q hq x y id hk hx hid hid'
    obtain ⟨e, he, rfl⟩ := scope q hq
    exact Network.has_of_bearer (mem_settledBlocks he).1 hk hx hid hid'
  · intro x id hid
    obtain ⟨s, hs, hx⟩ := Network.exists_block p.config.blockSize hid
    have hs : s ∈ (p.settledBlocks m).map (·.1) := (p.scopes_settledBlocks m).symm ▸ hs
    obtain ⟨e, he, rfl⟩ := List.mem_map.1 hs
    exact ⟨(e.1, e.2.1), List.mem_map.2 ⟨e, he, rfl⟩, hx⟩
  · have disjoint := (p.cutNetwork m).blocks_disjoint p.config.blockSize
    rw [← cutScopes, ← scopes_settledBlocks, List.pairwise_map] at disjoint
    exact List.pairwise_map.2 disjoint

end Whole

/-- **What is left.** If a run by blocks ends with success, the only rules it leaves broken are ones on links, broken by
lanelets of different blocks, and they were broken when the network was cut. -/
theorem runPartitioned_confined {p : Plan} (hp : p.catalog = standardCatalog) {m : RoadMap} (hm : m.Counted)
    (hflag : (p.runPartitioned m).Flag) : Confined (· ∈ p.rules)
      ((p.cutNetwork m).ViolatesAcross (p.cutScopes m)) (p.runPartitioned m).map.network := by
  rw [runPartitioned_eq] at hflag ⊢
  obtain ⟨hacross, hblocks⟩ := flag_foldl_settleBlock (flag_settleDangling hflag)
  have hn : p.Unshared (p.cutNetwork m) := repairAcross_unshared hp _ ⟨m, _⟩ hm hacross
  have pieced := pieced_mergedCourse hp hn
  refine settleDangling_confined hp (pieced.unshared hn) (fun v hr hv => ?_) hflag
  have hg : v.rule.topic ≠ .general := fun hg => pieced.unshared hn v hr hg hv
  rcases pieced.violates hg hv with ⟨q, hq, l, hl⟩ | hdangling | hacross
  · obtain ⟨e, he, rfl⟩ := List.mem_map.1 hq
    exact ((run_settledBlocks hp hn he).2 (hblocks e he) ⟨v.rule, l⟩ hr hl).elim
  · exact Or.inl hdangling
  · rw [settledPieces, List.map_map] at hacross
    exact Or.inr (p.scopes_settledBlocks m ▸ hacross)

/-- **Success by blocks.** If a run over a network that is cut into blocks ends with success, a check of the resulting
network finds nothing just if no link between two blocks that was broken when the network was cut is still broken. -/
theorem success_sound_blocks {c : Catalog} (hc : Catalog.standard = .ok c) {config : Config} {p : Plan}
    (hp : Plan.ofConfig config c = .ok p) (m : RoadMap) (hm : m.Counted)
    (hlarge : config.partitionThreshold < m.network.count .lanelet)
    (hflag : (p.verifyAndRepair m).result.repairingPossible = true) :
    (p.verify (p.verifyAndRepair m).repaired.network).isValid = true ↔
      ∀ v : Violation, v.rule ∈ p.rules → (p.cutNetwork m).ViolatesAcross (p.cutScopes m) v →
        ¬ (p.verifyAndRepair m).repaired.network.Violates v := by
  obtain ⟨hconfig, hcatalog⟩ := ofConfig_eq hp
  have hstd : p.catalog = standardCatalog := hcatalog.trans (Except.ok.inj (hc.symm.trans Catalog.standard_eq))
  obtain ⟨hresult, hmap⟩ := p.repaired_verifyAndRepair m
  have hrun : p.run m = p.runPartitioned m := if_pos (by rw [hconfig]; exact hlarge)
  rw [hresult, hrun] at hflag
  rw [hmap, hrun, isValid_verify hstd]
  constructor
  · exact fun h v hr _ hv => h v hr hv
  · exact fun h v hr hv => h v hr (runPartitioned_confined hstd hm hflag v hr hv) hv

/-- two lanelets share an id, and one of them has a successor that does not exist; all of them are in the catch-all -/
theorem success_sound_blocks_twins : ∃ p,
    Plan.ofConfig { rules := [.uniqueIdLa, .existenceSuccessor], partitionThreshold := 1 } standardCatalog = .ok p ∧
    ∃ m, m = RoadMap.ofDocument { lanelets := [{ id := 1 }, { id := 1, successors := .ofList [7] }] } ∧
      (p.verify m.network).isValid = false ∧ (p.verifyAndRepair m).result.partitioned = true ∧
      ((p.verifyAndRepair m).repaired.network.lanelets.values.map fun l => (l.id, l.successors.toList)) =
        [(1, []), (2, [])] ∧
      (p.verifyAndRepair m).result.repairingPossible = true ∧
        ((p.verify (p.verifyAndRepair m).repaired.network).isValid = true ↔
          ∀ v : Violation, v.rule ∈ p.rules → (p.cutNetwork m).ViolatesAcross (p.cutScopes m) v →
            ¬ (p.verifyAndRepair m).repaired.network.Violates v) := by
  have hp : Plan.ofConfig { rules := [.uniqueIdLa, .existenceSuccessor], partitionThreshold := 1 } standardCatalog =
      .ok ⟨{ rules := [.uniqueIdLa, .existenceSuccessor], partitionThreshold := 1 }, standardCatalog,
        [.uniqueIdLa, .existenceSuccessor]⟩ := rfl
  refine ⟨_, hp, _, rfl, by decide +kernel, by decide +kernel, by decide +kernel, ?flag,
    success_sound_blocks Catalog.standard_eq hp _ ?_ (by decide) ?flag⟩
  · decide +kernel
  · exact RoadMap.counted_ofDocument _

/-- a lanelet with a twin gets the id that a dangling successor of another one names, in a block of its own: success,
though the two are not linked both ways -/
theorem success_unsound_late_link : ∃ c p, Catalog.standard = .ok c ∧
    Plan.ofConfig { rules := [.uniqueIdLa, .connectionsSuccessor], partitionThreshold := 0, blockSize := 1 } c = .ok p ∧
    ∃ m, m = RoadMap.ofDocument { lanelets := [{ id := 1, successors := .ofList [4] }, { id := 3 }, { id := 3 }] } ∧
      p.config.partitionThreshold < m.network.count .lanelet ∧
      (p.verifyAndRepair m).result.repairingPossible = true ∧
      (p.verify (p.verifyAndRepair m).repaired.network).isValid = false := by
  refine ⟨standardCatalog, ⟨{ rules := [.uniqueIdLa, .connectionsSuccessor], partitionThreshold := 0, blockSize := 1 },
    standardCatalog, [.uniqueIdLa, .connectionsSuccessor]⟩, Catalog.standard_eq, rfl, _, rfl, by decide, ?flag, ?left⟩
  case flag => decide +kernel
  case left => decide +kernel

end Plan

end RoadRules
