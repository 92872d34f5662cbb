/-
Blocks that are run at the same time.

A run hands a map on from step to step, and with it the counter for ids. Here are the same steps for a network without
a counter, as a client of a counter that others may use too: what it does in between is its own, and it comes to the
counter for each id that it observes or draws. With the counter for itself it comes to what the run comes to
(`run_repairEach`, `run_round`, `run_runWhole`).

- `runPartitionedBy`: the blocks take turns at the counter, in the order of a schedule. If they come one after the
  other, this is the run by blocks (`runPartitionedBy_nil`), and so it is if they do not move the counter
  (`runPartitionedBy_of_quiet`).
- `calm_runWhole`: a block without shared ids is run without a single draw, and observes only ids of its own.
-/
import RoadRules.Proofs.Network.Clients
import RoadRules.Proofs.Run.Partitioned

namespace RoadRules

/-! ## Repairs -/

/-- a map as a network and a counter -/
def RoadMap.parts (m : RoadMap) : Network × IdAllocator := (m.network, m.ids)

namespace Network

/-- gives an element a fresh id: one that is drawn, or the smallest one that is unused -/
def reassignClient (n : Network) (h : Handle) : Client Network :=
  if n.contains h then .draw fun drawn => .done (((drawn <|> n.smallestUnusedId?).map (n.setId h)).getD n)
  else .done n

/-- the repair of a violation; only shared ids need the counter -/
def repairClient (n : Network) (v : Violation) : Client Network :=
  match v.location with
  | [] => .done n
  | id :: rest =>
    if v.rule.topic = .general then (n.handlesWithId id).tail.foldlM reassignClient n
    else .done (v.rule.repairAt ⟨n, .start⟩ id rest).1.network

def repairEachClient (n : Network) (vs : List Violation) : Client Network := vs.foldlM repairClient n

end Network

namespace RoadMap

theorem run_reassign (m : RoadMap) (h : Handle) :
    (m.network.reassignClient h).run m.ids = (((m.reassignId? h).map Prod.snd).getD m).parts := by
  unfold Network.reassignClient reassignId?
  split_ifs
  · simp only [Client.run, freshId?]
    cases m.ids.draw? with
    | some d => rfl
    | none => cases m.network.smallestUnusedId? <;> rfl
  · rfl

theorem reassignAll_eq_foldl (m : RoadMap) (hs : List Handle) :
    (m.reassignAll hs).1 = hs.foldl (fun m h => ((m.reassignId? h).map Prod.snd).getD m) m := by
  induction hs generalizing m with
  | nil => rfl
  | cons h hs ih =>
    rw [reassignAll, List.foldl_cons]
    cases m.reassignId? h with
    | none => exact ih m
    | some d => exact ih d.2

/-- repairs other than of shared ids do not look at the counter -/
theorem repairAt_of_not_general {r : RuleId} (hr : r.topic ≠ .general) (m : RoadMap) (id : ElementId)
    (rest : List ElementId) :
    (r.repairAt m id rest).1 = ⟨(r.repairAt ⟨m.network, .start⟩ id rest).1.network, m.ids⟩ := by
  obtain ⟨edit, -, hrepair⟩ := RuleId.exists_form hr id rest
  rw [hrepair, hrepair]
  rfl

theorem run_repair (m : RoadMap) (v : Violation) :
    (m.network.repairClient v).run m.ids = (m.repair v).1.parts := by
  obtain ⟨r, location⟩ := v
  cases location with
  | nil => rfl
  | cons id rest =>
    simp only [Network.repairClient, repair]
    split_ifs with hr
    · rw [RuleId.repairAt_general hr, separateIds, reassignAll_eq_foldl]
      exact Client.run_foldlM parts run_reassign _ m
    · rw [repairAt_of_not_general hr m]
      rfl

theorem repairEach_eq_foldl (m : RoadMap) (vs : List Violation) :
    (m.repairEach vs).1 = vs.foldl (fun m v => (m.repair v).1) m := by
  induction vs generalizing m with
  | nil => rfl
  | cons v vs ih => exact ih (m.repair v).1

theorem run_repairEach (m : RoadMap) (vs : List Violation) :
    (m.network.repairEachClient vs).run m.ids = (m.repairEach vs).1.parts := by
  rw [repairEach_eq_foldl]
  exact Client.run_foldlM parts run_repair vs m

end RoadMap

namespace Plan

/-! ## Rounds -/

/-- a network on the way through the repair of a violation, what is pending in it, and how many rounds were spent -/
structure Stage where
  network : Network
  pending : Violations
  iterations : Nat

/-- one round -/
def roundClient (p : Plan) (n : Network) (pending : Violations) : Client (Network × Violations) := do
  let scope := n.aroundAll p.config.radius pending.ids.toList
  let copy := n.extract scope
  let repaired ← copy.repairEachClient pending.toList
  Client.observeAll (n.merge scope repaired).allIds
  return (n.merge scope repaired,
    owned (p.catalog.verify repaired p.rules) pending (p.catalog.verify copy p.rules))

/-- rounds until nothing is pending, but no more than `limit` -/
def roundsClient (p : Plan) : (limit : Nat) → Stage → Client Stage
  | 0, s => .done s
  | limit + 1, s =>
    if s.pending.isEmpty then .done s
    else do
      let (n, pending) ← p.roundClient s.network s.pending
      roundsClient p limit ⟨n, pending, s.iterations + 1⟩

def closureClient (p : Plan) (n : Network) (v : Violation) : Client Stage :=
  p.roundsClient p.config.maxIterations ⟨n, p.stillPresent n v, 0⟩

def Progress.parts (s : Progress) : Stage × IdAllocator := (⟨s.map.network, s.pending, s.iterations⟩, s.map.ids)

theorem run_round (p : Plan) (m : RoadMap) (pending : Violations) : (p.roundClient m.network pending).run m.ids =
    (((p.round m pending).1.network, (p.round m pending).2), (p.round m pending).1.ids) := by
  have hrepair := RoadMap.run_repairEach ⟨m.network.extract (p.vicinityScope m pending), m.ids⟩ pending.toList
  rw [round_eq]
  simp only [roundClient, Client.run_bind, Client.run_observeAll, Client.run_pure]
  rw [show m.network.aroundAll p.config.radius pending.ids.toList = p.vicinityScope m pending from rfl, hrepair]
  rfl

theorem run_rounds (p : Plan) (limit : Nat) (s : Progress) :
    (p.roundsClient limit s.parts.1).run s.parts.2 = (p.rounds limit s).parts := by
  induction limit generalizing s with
  | zero => rfl
  | succ limit ih =>
    obtain ⟨m, pending, k⟩ := s
    change (p.roundsClient (limit + 1) ⟨m.network, pending, k⟩).run m.ids = _
    rw [roundsClient, rounds]
    dsimp only
    split_ifs
    · rfl
    · rw [Client.run_bind, run_round]
      exact ih ⟨(p.round m pending).1, (p.round m pending).2, k + 1⟩

/-! ## Runs -/

/-- a network and what has been noted so far -/
abbrev Log := Network × RunResult

def repairOneClient (p : Plan) (c : Log) (v : Violation) : Client Log := do
  let s ← p.closureClient c.1 v
  let result := (c.2.addRuns (1 + 2 * s.iterations) s.iterations).recordResidual s.pending
  return (s.network,
    { result with chains := result.chains ++ [⟨v.rule, v.location, s.iterations, s.pending.isEmpty⟩] })

def repairAllClient (p : Plan) (c : Log) (found : Violations) : Client Log := found.toList.foldlM p.repairOneClient c

def runGroupClient (p : Plan) (c : Log) (g : RuleGroup) : Client Log :=
  let found := p.catalog.verify c.1 g.rules
  p.repairAllClient (c.1, (c.2.addRuns 1 0).recordInitial found) found

def runWholeClient (p : Plan) (n : Network) : Client Log :=
  (RuleGroup.ofRules p.rules).foldlM p.runGroupClient (n, { rules := p.rules })

def Course.parts (c : Course) : Log × IdAllocator := ((c.map.network, c.result), c.map.ids)

theorem run_repairOne (p : Plan) (c : Course) (v : Violation) :
    (p.repairOneClient c.parts.1 v).run c.parts.2 = (p.repairOne c v).parts := by
  have hclosure : (p.closureClient c.map.network v).run c.map.ids = (p.closure c.map v).parts :=
    p.run_rounds p.config.maxIterations ⟨c.map, p.stillPresent c.map.network v, 0⟩
  simp only [repairOneClient, Course.parts, Client.run_bind, hclosure]
  rfl

theorem run_runGroup (p : Plan) (c : Course) (g : RuleGroup) :
    (p.runGroupClient c.parts.1 g).run c.parts.2 = (p.runGroup c g).parts :=
  Client.run_foldlM Course.parts p.run_repairOne _
    ⟨c.map, (c.result.addRuns 1 0).recordInitial (p.catalog.verify c.map.network g.rules)⟩

/-- **Runs over a network as a whole.** -/
theorem run_runWhole (p : Plan) (m : RoadMap) : (p.runWholeClient m.network).run m.ids = (p.runWhole m).parts :=
  Client.run_foldlM Course.parts p.run_runGroup _ ⟨m, { rules := p.rules }⟩

/-! ## Blocks in turns -/

/-- the blocks of a run, as clients of the counter that it has when the network is cut -/
def blockCrew (p : Plan) (m : RoadMap) : Crew Log :=
  ⟨(p.cutScopes m).map fun s => p.runWholeClient ((p.cutNetwork m).extract s), (p.acrossBlocks m).map.ids⟩

/-- checks and repairs a network block by block; the blocks take turns at the counter, in the order of a schedule -/
def runPartitionedBy (p : Plan) (schedule : List Nat) (m : RoadMap) : Course :=
  let c := p.acrossBlocks m
  let scopes := p.cutScopes m
  let (logs, ids) := (p.blockCrew m).outcome schedule
  let start : Course := ⟨{ c.map with ids }, { c.result with blockCount := scopes.length }⟩
  p.settleDangling ((scopes.zip logs).foldl settleBlock start)

theorem runBlocks_eq (p : Plan) (copy : Scope → Network) (scopes : List Scope) (ids : IdAllocator) :
    p.runBlocks ids (scopes.map fun s => (s, copy s)) =
      ((Crew.runAll (scopes.map fun s => p.runWholeClient (copy s)) ids).2,
        scopes.zip (Crew.runAll (scopes.map fun s => p.runWholeClient (copy s)) ids).1) := by
  induction scopes generalizing ids with
  | nil => rfl
  | cons s scopes ih =>
    have hrun : (p.runWholeClient (copy s)).run ids = (p.runWhole ⟨copy s, ids⟩).parts := p.run_runWhole ⟨copy s, ids⟩
    simp only [List.map_cons, runBlocks, Crew.runAll, hrun, ih, List.zip_cons_cons, Course.parts]

/-- **One block after the other** is the run by blocks. -/
theorem runPartitionedBy_nil (p : Plan) (m : RoadMap) : p.runPartitionedBy [] m = p.runPartitioned m := by
  rw [runPartitioned_eq, mergedCourse, settledBlocks, runBlocks_eq]
  rfl

/-- **Blocks that do not move the counter** come to the same result in the order of any schedule. -/
theorem runPartitionedBy_of_quiet {p : Plan} {m : RoadMap}
    (hquiet : ∀ b ∈ (p.blockCrew m).clients, b.Quiet (p.blockCrew m).ids) (schedule : List Nat) :
    p.runPartitionedBy schedule m = p.runPartitioned m := by
  rw [← runPartitionedBy_nil]
  unfold runPartitionedBy
  rw [Crew.outcome_of_quiet hquiet schedule, Crew.outcome_of_quiet hquiet []]

/-! ## Blocks without shared ids -/

section Calm

variable {p : Plan} {ids : IdAllocator}

theorem calm_repairEach {n : Network} {vs : List Violation} (hv : ∀ v ∈ vs, v.rule.topic ≠ .general) :
    (n.repairEachClient vs).Calm ids fun _ => True := by
  refine Client.calm_foldlM (R := fun _ => True) (fun n _ v hmem => ?_) trivial
  obtain ⟨r, location⟩ := v
  cases location with
  | nil => trivial
  | cons id rest =>
    rw [Network.repairClient]
    dsimp only
    rw [if_neg (hv _ hmem)]
    trivial

variable (hp : p.catalog = standardCatalog) {n₀ : Network}
  (hids : ∀ x id, n₀.idOf? x = some id → id.toNat < ids.watermark)

include hp hids

/-- a round of repairs that hand out no ids -/
theorem calm_round {n : Network} {P : Violations} (hdrift : Drift (Present n₀) n₀ n) (hd : P.Distinct)
    (hquiet : ∀ v ∈ P, v.rule.topic ≠ .general ∧ Partnered n₀ v) :
    (p.roundClient n P).Calm ids fun r =>
      Drift (Present n₀) n₀ r.1 ∧ r.2.Distinct ∧ ∀ v ∈ r.2, v.rule.topic ≠ .general ∧ Partnered n₀ v := by
  have tracks := tracks_drift (T := fun _ => False) hp n₀ fun _ => False.elim
  have hround := p.run_round ⟨n, ids⟩ P
  have hdrift' := tracks.inv (m := ⟨n, ids⟩) hdrift hd hquiet
  have hrepair := RoadMap.run_repairEach ⟨n.extract (p.vicinityScope ⟨n, ids⟩ P), ids⟩ P.toList
  have calm : (p.roundClient n P).Calm ids fun _ => True := by
    refine Client.Calm.bind (Client.Calm.result (R := (· = (p.repairedCopy ⟨n, ids⟩ P).network))
      (calm_repairEach fun v hv => (hquiet v hv).1) (congrArg Prod.fst hrepair)) ?_
    rintro _ rfl
    refine (Client.calm_observeAll fun id hid => ?_).bind fun _ _ => trivial
    obtain ⟨x, hx⟩ := Network.mem_allIds.1 hid
    exact hids x id (hdrift'.kept hx)
  refine calm.result ?_
  rw [hround]
  exact ⟨hdrift', distinct_round p ⟨n, ids⟩ P, tracks.pend (m := ⟨n, ids⟩) hdrift hd hquiet⟩

theorem calm_rounds (limit : Nat) {s : Stage} (hdrift : Drift (Present n₀) n₀ s.network) (hd : s.pending.Distinct)
    (hquiet : ∀ v ∈ s.pending, v.rule.topic ≠ .general ∧ Partnered n₀ v) :
    (p.roundsClient limit s).Calm ids fun s => Drift (Present n₀) n₀ s.network := by
  induction limit generalizing s with
  | zero => exact hdrift
  | succ limit ih =>
    rw [roundsClient]
    split_ifs
    · exact hdrift
    · refine (calm_round hp hids hdrift hd hquiet).bind ?_
      rintro ⟨n, pending⟩ ⟨hdrift, hd, hquiet⟩
      exact ih hdrift hd hquiet

theorem calm_repairOne {c : Log} (hdrift : Drift (Present n₀) n₀ c.1) {v : Violation}
    (hv : v.rule.topic ≠ .general ∧ Partnered n₀ v) :
    (p.repairOneClient c v).Calm ids fun c => Drift (Present n₀) n₀ c.1 := by
  obtain ⟨hd, honly, -⟩ := stillPresent_spec hp c.1 v
  have calm := calm_rounds (s := ⟨c.1, p.stillPresent c.1 v, 0⟩) hp hids p.config.maxIterations hdrift hd fun w hw =>
    honly w hw ▸ hv
  exact calm.bind fun s hs => hs

variable (hn : p.Unshared n₀)

include hn

/-- what a check of rules of the plan finds does not need the counter -/
theorem calm_runGroup {c : Log} (hdrift : Drift (Present n₀) n₀ c.1) {g : RuleGroup} (hg : ∀ r ∈ g.rules, r ∈ p.rules) :
    (p.runGroupClient c g).Calm ids fun c => Drift (Present n₀) n₀ c.1 := by
  have found : ∀ v ∈ (p.catalog.verify c.1 g.rules).toList, v.rule.topic ≠ .general ∧ Partnered n₀ v := by
    intro v hv
    obtain ⟨hr, hviol⟩ := Violations.mem_verify.1 (hp ▸ hv : v ∈ standardCatalog.verify c.1 g.rules)
    exact ⟨fun hgeneral => hn.drift hdrift v (hg _ hr) hgeneral hviol,
      (Network.partnered_of_violates hviol).drift hdrift⟩
  exact Client.calm_foldlM (R := fun c : Log => Drift (Present n₀) n₀ c.1)
    (fun c hdrift v hv => calm_repairOne hp hids hdrift (found v hv)) hdrift

/-- **A block without shared ids** never draws, and observes only ids that it has. -/
theorem calm_runWhole : (p.runWholeClient n₀).Calm ids fun c => Drift (Present n₀) n₀ c.1 := by
  refine Client.calm_foldlM (fun c hdrift g hg => ?_) (.refl _ _)
  exact calm_runGroup hp hids hn hdrift fun r hr => (RuleGroup.rules_of_mem_ofRules hg r hr).2

end Calm

end Plan

end RoadRules
