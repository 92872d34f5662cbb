/-
The numbers in a result.

- `Tally.add_ofList`: a tally of some rules, added to, is the tally of more rules.
- `RunResult.Consistent`: what the fields of a result say of each other. Each operation on results keeps it up
  (`Consistent.recordInitial`, `Consistent.noteRepair`, `Consistent.absorb`), whatever the fields hold.
- `Course.Consistent.runGroup`, `consistent_runWhole`, `consistent_runPartitioned`: so do the steps of a run.
- `statistics_consistent`: the result of every run is consistent, and if the network is not cut into blocks, its repairs
  are those of the violations found, one by one.

Nothing is asked of the network, nor of the catalog. Two facts about checks carry the argument: a check finds no
violation twice, and what it finds for a rule is not empty (`Violations.Proper`).
-/
import RoadRules.Proofs.Run.Partitioned

namespace RoadRules

/-! ## Tallies -/

namespace Tally

theorem lookup_ofList (rules : List RuleId) (r : RuleId) :
    (ofList rules).lookup r = if r ∈ rules then some (rules.count r) else none := by
  have distinct : ((ofList rules).map (·.1)).Nodup := by
    have hv : RuleId.values.Nodup := by decide
    rw [ofList, List.map_map]
    exact (List.map_id _).symm ▸ hv.filter _
  have listed : ∀ k, (ofList rules).lookup r = some k ↔ r ∈ rules ∧ rules.count r = k := by
    intro k
    rw [lookup_eq_some_iff distinct]
    simp [ofList, RuleId.mem_values]
  split_ifs with h
  · exact (listed _).2 ⟨h, rfl⟩
  · exact Option.eq_none_iff_forall_ne_some.2 fun k hk => h ((listed k).1 hk).1

/-- a tally that is added to -/
theorem add_ofList (rules : List RuleId) (r : RuleId) {k : Nat} (hk : 0 < k) :
    (ofList rules).add r k = ofList (rules ++ List.replicate k r) := by
  have asFilterMap : ofList (rules ++ List.replicate k r) = RuleId.values.filterMap fun q =>
      if q ∈ rules ++ List.replicate k r then some (q, (rules ++ List.replicate k r).count q) else none := by
    rw [ofList, ← List.filterMap_eq_map, ← List.filterMap_eq_filter, List.filterMap_filterMap]
    refine List.filterMap_congr fun q _ => ?_
    by_cases h : q ∈ rules ++ List.replicate k r <;> simp [h, Option.guard]
  rw [asFilterMap, add]
  refine List.filterMap_congr fun q _ => ?_
  rw [lookup_ofList]
  by_cases hq : q = r
  · subst hq
    by_cases h : q ∈ rules
    · simp [h]
    · simp [h, hk.ne', List.count_eq_zero_of_not_mem h]
  · have : q ∉ List.replicate k r := fun h => hq (List.eq_of_mem_replicate h)
    by_cases h : q ∈ rules <;> simp [h, hq, this, List.count_eq_zero_of_not_mem this]

theorem getD_lookup_ofList (rules : List RuleId) (r : RuleId) : ((ofList rules).lookup r).getD 0 = rules.count r := by
  rw [lookup_ofList]
  split_ifs with h
  · rfl
  · exact (List.count_eq_zero_of_not_mem h).symm

end Tally

/-! ## Lists without repetitions -/

namespace RunResult

section AddNew

variable {α : Type} [BEq α]

/-- what is new stands behind what is known -/
theorem prefix_addNew (known added : List α) : known <+: addNew known added := by
  unfold addNew
  induction added generalizing known with
  | nil => exact List.prefix_rfl
  | cons x added ih =>
    rw [List.foldl_cons]
    refine List.IsPrefix.trans ?_ (ih _)
    split_ifs
    · exact List.prefix_rfl
    · exact List.prefix_append _ _

theorem nodup_addNew [LawfulBEq α] {known : List α} (h : known.Nodup) (added : List α) : (addNew known added).Nodup := by
  unfold addNew
  induction added generalizing known with
  | nil => exact h
  | cons x added ih =>
    rw [List.foldl_cons]
    refine ih ?_
    split_ifs with hx
    · exact h
    · rw [List.contains_iff_mem] at hx
      exact List.nodup_append.2 ⟨h, List.nodup_singleton x, fun a ha b hb =>
        fun hab => hx (List.mem_singleton.1 hb ▸ hab ▸ ha)⟩

theorem addNew_eq_nil {known added : List α} : addNew known added = [] ↔ known = [] ∧ added = [] := by
  constructor
  · intro h
    have hk : known = [] := List.prefix_nil.1 (h ▸ prefix_addNew known added)
    subst hk
    refine ⟨rfl, ?_⟩
    cases added with
    | nil => rfl
    | cons x added =>
      have first : [x] <+: addNew [] (x :: added) := prefix_addNew [x] added
      rw [h, List.prefix_nil] at first
      cases first
  · rintro ⟨rfl, rfl⟩; rfl

end AddNew

end RunResult

/-! ## What a check finds -/

namespace Violations

/-- each rule has one entry, with a location and none twice -/
structure Proper (vs : Violations) : Prop where
  distinct : vs.Distinct
  entries : ∀ e ∈ vs.entries, e.2 ≠ [] ∧ e.2.Nodup

namespace Proper

theorem empty : Proper .empty := ⟨distinct_empty, fun _ he => absurd he List.not_mem_nil⟩

theorem single (v : Violation) : (single v).Proper where
  distinct := distinct_single v
  entries e he := by
    obtain rfl := List.mem_singleton.1 he
    exact ⟨List.cons_ne_nil _ _, List.nodup_singleton _⟩

theorem filter {vs : Violations} (h : vs.Proper) (p : Violation → Bool) : (vs.filter p).Proper where
  distinct := distinct_filter h.distinct p
  entries e he := by
    obtain ⟨hm, hne⟩ := List.mem_filter.1 he
    obtain ⟨e', he', rfl⟩ := List.mem_map.1 hm
    exact ⟨by simpa using hne, (h.entries e' he').2.filter _⟩

theorem isEmpty_iff {vs : Violations} (h : vs.Proper) : vs.isEmpty = true ↔ vs.toList = [] := by
  rw [isEmpty, List.isEmpty_iff, toList, List.flatMap_eq_nil_iff]
  constructor
  · intro hempty e he
    rw [hempty] at he
    cases he
  · intro hall
    refine List.eq_nil_iff_forall_not_mem.2 fun e he => (h.entries e he).1 ?_
    exact List.map_eq_nil_iff.1 (hall e he)

theorem nodup_toList {vs : Violations} (h : vs.Proper) : vs.toList.Nodup := by
  refine List.nodup_flatMap.2 ⟨fun e he => ?_, ?_⟩
  · exact (h.entries e he).2.map fun a b hab => congrArg Violation.location hab
  · refine (List.pairwise_map.1 h.distinct).imp fun {a b} hab v ha hb => hab ?_
    obtain ⟨l, -, rfl⟩ := List.mem_map.1 ha
    obtain ⟨l', -, heq⟩ := List.mem_map.1 hb
    exact (congrArg Violation.rule heq).symm

end Proper

theorem rule_mem_of_verify {c : Catalog} {n : Network} {rules : List RuleId} {v : Violation}
    (hv : v ∈ c.verify n rules) : v.rule ∈ rules := by
  obtain ⟨ls, he, -⟩ := mem_iff.1 hv
  exact (entries_ofList.1 he).1

/-- **Checks** find no violation twice. -/
theorem proper_verify (c : Catalog) (n : Network) (rules : List RuleId) : (c.verify n rules).Proper where
  distinct := distinct_verify c n rules
  entries e he := by
    obtain ⟨-, hls, hne⟩ := entries_ofList.1 he
    refine ⟨hls ▸ hne, hls ▸ ?_⟩
    have noted : ∀ (bs : List (List Handle)) (holds : List Handle → Bool) (ids : List Handle → Location)
        (found : List Location), found.Nodup →
        (bs.foldl (fun found b => if holds b then found else noteLocation found (ids b)) found).Nodup := by
      intro bs holds ids
      induction bs with
      | nil => exact fun _ h => h
      | cons b bs ih =>
        intro found hfound
        rw [List.foldl_cons]
        refine ih _ ?_
        split_ifs
        · exact hfound
        · exact RunResult.nodup_addNew hfound [ids b]
    unfold Catalog.verifyRule
    split
    · exact List.nodup_nil
    · rw [visitChoices_eq]
      exact noted _ _ _ _ List.nodup_nil

end Violations

/-! ## Consistent results -/

/-- the violation that a repair was about -/
def RepairChain.violation (c : RepairChain) : Violation := ⟨c.rule, c.location⟩

/-- can the repair of one violation end like this, if it is given up after `limit` rounds? -/
structure RepairChain.Fits (limit : Nat) (c : RepairChain) : Prop where
  within : c.iterations ≤ limit
  exhausted : c.success = false → c.iterations = limit

namespace RunResult

/-- what the fields of a result say of each other, if repairs are given up after `limit` rounds -/
structure Consistent (limit : Nat) (r : RunResult) : Prop where
  counts : r.initialCounts = .ofList (r.initial.map (·.rule))
  initial : r.initial.Nodup
  residual : r.residual.Nodup
  possible_iff_residual : r.repairingPossible = true ↔ r.residual = []
  possible_iff_chains : r.repairingPossible = true ↔ ∀ c ∈ r.chains, c.success = true
  chains : ∀ c ∈ r.chains, c.Fits limit
  repairRuns : r.repairRuns = (r.chains.map (·.iterations)).sum

namespace Consistent

variable {limit : Nat} {r other : RunResult}

/-- at the start of a run -/
theorem start (rules : List RuleId) (partitioned : Bool) :
    Consistent limit { rules := rules, partitioned := partitioned } where
  counts := by simp [Tally.ofList]
  initial := List.nodup_nil
  residual := List.nodup_nil
  possible_iff_residual := by simp
  possible_iff_chains := by simp
  chains := by simp
  repairRuns := rfl

theorem addVerifications (h : r.Consistent limit) (k : Nat) : (r.addRuns k 0).Consistent limit :=
  ⟨h.counts, h.initial, h.residual, h.possible_iff_residual, h.possible_iff_chains, h.chains, h.repairRuns⟩

/-- what a check finds is counted by rule -/
theorem foldl_add (rules : List RuleId) (es : List (RuleId × List Location)) (h : ∀ e ∈ es, e.2 ≠ []) :
    es.foldl (fun t e => t.add e.1 e.2.length) (Tally.ofList rules) =
      Tally.ofList (rules ++ (Violations.toList ⟨es⟩).map (·.rule)) := by
  induction es generalizing rules with
  | nil => simp [Violations.toList]
  | cons e es ih =>
    have entry : (e.2.map fun l => (⟨e.1, l⟩ : Violation)).map (·.rule) = List.replicate e.2.length e.1 := by
      rw [List.map_map]
      exact List.map_const'
    rw [List.foldl_cons, Tally.add_ofList _ _ (List.length_pos_iff.2 (h e List.mem_cons_self)),
      ih _ fun e' he' => h e' (List.mem_cons_of_mem _ he')]
    simp only [Violations.toList, List.flatMap_cons, List.map_append, entry, List.append_assoc]

/-- **Findings.** What is found has to be new. -/
theorem recordInitial (h : r.Consistent limit) {found : Violations} (hfound : found.Proper)
    (hnew : ∀ v ∈ found, ¬ v ∈ r.initial) : (r.recordInitial found).Consistent limit where
  counts := by
    simp only [RunResult.recordInitial, h.counts, List.map_append]
    exact foldl_add _ _ fun e he => (hfound.entries e he).1
  initial := List.nodup_append.2 ⟨h.initial, hfound.nodup_toList, fun a ha b hb hab => hnew b hb (hab ▸ ha)⟩
  residual := h.residual
  possible_iff_residual := h.possible_iff_residual
  possible_iff_chains := h.possible_iff_chains
  chains := h.chains
  repairRuns := h.repairRuns

/-- **Repairs.** A repair succeeds if nothing is pending in the end. -/
theorem noteRepair (h : r.Consistent limit) {chain : RepairChain} (hchain : chain.Fits limit) {pending : Violations}
    (hpending : pending.Proper) (hsuccess : chain.success = pending.isEmpty) (checks : Nat) :
    Consistent limit { (r.addRuns checks chain.iterations).recordResidual pending with
      chains := ((r.addRuns checks chain.iterations).recordResidual pending).chains ++ [chain] } := by
  have chains : ∀ c ∈ r.chains ++ [chain], c.Fits limit := by
    simp only [List.mem_append, List.mem_singleton]
    rintro c (hc | rfl)
    · exact h.chains c hc
    · exact hchain
  have runs : r.repairRuns + chain.iterations = ((r.chains ++ [chain]).map (·.iterations)).sum := by
    rw [h.repairRuns]
    simp
  cases hempty : pending.isEmpty with
  | true =>
    rw [hempty] at hsuccess
    simp only [recordResidual, hempty, if_true]
    refine ⟨h.counts, h.initial, h.residual, h.possible_iff_residual, ?_, chains, runs⟩
    simp only [List.mem_append, List.mem_singleton]
    refine h.possible_iff_chains.trans ⟨?_, fun hall c hc => hall c (Or.inl hc)⟩
    rintro hall c (hc | rfl)
    · exact hall c hc
    · exact hsuccess
  | false =>
    rw [hempty] at hsuccess
    simp only [recordResidual, hempty, Bool.false_eq_true, if_false]
    refine ⟨h.counts, h.initial, nodup_addNew h.residual _, ?_, ?_, chains, runs⟩
    · -- what is pending stays behind
      have : pending.toList ≠ [] := fun hnil => by simp [hpending.isEmpty_iff.2 hnil] at hempty
      exact iff_of_false Bool.false_ne_true fun hnil => this (addNew_eq_nil.1 hnil).2
    · refine iff_of_false Bool.false_ne_true fun hall => ?_
      have := hall chain (List.mem_append.2 (Or.inr (List.mem_singleton.2 rfl)))
      rw [hsuccess] at this
      cases this

/-- **Results of parts.** -/
theorem absorb (h : r.Consistent limit) (ho : other.Consistent limit) : (r.absorb other).Consistent limit where
  counts := by
    obtain ⟨news, hnews⟩ := prefix_addNew r.initial other.initial
    have counted : ∀ (vs : List Violation) (rules : List RuleId),
        vs.foldl (fun t v => t.add v.rule 1) (Tally.ofList rules) = Tally.ofList (rules ++ vs.map (·.rule)) := by
      intro vs
      induction vs with
      | nil => simp
      | cons v vs ih => intro rules; simp [Tally.add_ofList _ _ Nat.one_pos, ih]
    simp only [RunResult.absorb, ← hnews, List.drop_left, h.counts, counted, List.map_append]
  initial := nodup_addNew h.initial _
  residual := nodup_addNew h.residual _
  possible_iff_residual := by
    simp only [RunResult.absorb, Bool.and_eq_true, addNew_eq_nil]
    exact and_congr h.possible_iff_residual ho.possible_iff_residual
  possible_iff_chains := by
    simp only [RunResult.absorb, Bool.and_eq_true, List.mem_append]
    rw [h.possible_iff_chains, ho.possible_iff_chains]
    exact ⟨fun ⟨hl, hr⟩ c hc => hc.elim (hl c) (hr c), fun hall =>
      ⟨fun c hc => hall c (Or.inl hc), fun c hc => hall c (Or.inr hc)⟩⟩
  chains := by
    simp only [RunResult.absorb, List.mem_append]
    exact fun c hc => hc.elim (h.chains c) (ho.chains c)
  repairRuns := by simp only [RunResult.absorb, h.repairRuns, ho.repairRuns, List.map_append, List.sum_append]

end Consistent

end RunResult

/-! ## Runs -/

namespace Plan

section Rounds

variable (p : Plan)

theorem proper_round (m : RoadMap) (P : Violations) : (p.round m P).2.Proper := by
  simp only [round_eq, owned]
  exact (Violations.proper_verify _ _ _).filter _

/-- rounds are spent up to the limit, and all of them if something is left pending -/
theorem rounds_spent (limit : Nat) (s : Progress) (hs : s.pending.Proper) :
    (p.rounds limit s).pending.Proper ∧ (p.rounds limit s).iterations ≤ s.iterations + limit ∧
      ((p.rounds limit s).pending.isEmpty = false → (p.rounds limit s).iterations = s.iterations + limit) := by
  induction limit generalizing s with
  | zero => exact ⟨hs, Nat.le_refl _, fun _ => rfl⟩
  | succ limit ih =>
    simp only [Plan.rounds]
    split_ifs with hempty
    · exact ⟨hs, by omega, fun h => by rw [hempty] at h; cases h⟩
    · obtain ⟨hp, hle, hall⟩ := ih ⟨(p.round s.map s.pending).1, (p.round s.map s.pending).2, s.iterations + 1⟩
        (p.proper_round _ _)
      have behind : s.iterations + 1 + limit = s.iterations + (limit + 1) := by omega
      exact ⟨hp, behind ▸ hle, fun h => behind ▸ hall h⟩

theorem closure_spent (m : RoadMap) (v : Violation) : (p.closure m v).pending.Proper ∧
    RepairChain.Fits p.config.maxIterations
      ⟨v.rule, v.location, (p.closure m v).iterations, (p.closure m v).pending.isEmpty⟩ := by
  have start : (p.stillPresent m.network v).Proper := by
    unfold stillPresent
    split_ifs
    · exact .single v
    · exact .empty
  obtain ⟨hproper, hle, hall⟩ := p.rounds_spent p.config.maxIterations ⟨m, p.stillPresent m.network v, 0⟩ start
  rw [Nat.zero_add] at hle hall
  exact ⟨hproper, ⟨hle, hall⟩⟩

end Rounds

/-- a course with a consistent result -/
def Course.Consistent (p : Plan) (c : Course) : Prop := c.result.Consistent p.config.maxIterations

section Steps

variable {p : Plan}

theorem initial_recordResidual (r : RunResult) (found : Violations) : (r.recordResidual found).initial = r.initial := by
  unfold RunResult.recordResidual
  split_ifs <;> rfl

theorem chains_recordResidual (r : RunResult) (found : Violations) : (r.recordResidual found).chains = r.chains := by
  unfold RunResult.recordResidual
  split_ifs <;> rfl

theorem Course.Consistent.repairOne {c : Course} (h : c.Consistent p) (v : Violation) :
    (p.repairOne c v).Consistent p := by
  obtain ⟨hproper, hfits⟩ := p.closure_spent c.map v
  exact RunResult.Consistent.noteRepair h hfits hproper rfl _

/-- repairs add to the chains what they are about, and leave alone what was found -/
theorem repairAll_result (c : Course) (found : Violations) :
    (p.repairAll c found).result.initial = c.result.initial ∧
      (p.repairAll c found).result.chains.map (·.violation) = c.result.chains.map (·.violation) ++ found.toList := by
  unfold repairAll
  induction found.toList generalizing c with
  | nil => exact ⟨rfl, (List.append_nil _).symm⟩
  | cons v vs ih =>
    obtain ⟨hinitial, hchains⟩ := ih (p.repairOne c v)
    rw [List.foldl_cons, hinitial, hchains]
    simp [Plan.repairOne, initial_recordResidual, chains_recordResidual, RunResult.addRuns, RepairChain.violation]

theorem Course.Consistent.repairAll {c : Course} (h : c.Consistent p) (found : Violations) :
    (p.repairAll c found).Consistent p :=
  repairAll_induction h fun _ hc v _ => hc.repairOne v

/-- a check and the repair of what it finds -/
theorem Course.Consistent.checked {c : Course} (h : c.Consistent p) {found : Violations} (hfound : found.Proper)
    (hnew : ∀ v ∈ found, ¬ v ∈ c.result.initial) :
    (p.repairAll { c with result := (c.result.addRuns 1 0).recordInitial found } found).Consistent p := by
  have h' : (c.result.addRuns 1 0).Consistent p.config.maxIterations := RunResult.Consistent.addVerifications h 1
  have h'' : Course.Consistent p { c with result := (c.result.addRuns 1 0).recordInitial found } :=
    h'.recordInitial hfound hnew
  exact h''.repairAll found

/-- **Groups.** The rules of a group have one topic, so what other groups have found is not found again. -/
theorem Course.Consistent.foldl_runGroup (gs : List RuleGroup) (hgs : ∀ g ∈ gs, ∀ r ∈ g.rules, r.topic = g.topic)
    (htopics : (gs.map (·.topic)).Nodup) {c : Course} (h : c.Consistent p)
    (hnew : ∀ v ∈ c.result.initial, v.rule.topic ∉ gs.map (·.topic))
    (hchains : c.result.chains.map (·.violation) = c.result.initial) :
    (gs.foldl p.runGroup c).Consistent p ∧
      (gs.foldl p.runGroup c).result.chains.map (·.violation) = (gs.foldl p.runGroup c).result.initial := by
  induction gs generalizing c with
  | nil => exact ⟨h, hchains⟩
  | cons g gs ih =>
    rw [List.map_cons, List.nodup_cons] at htopics
    have topic : ∀ v ∈ p.catalog.verify c.map.network g.rules, v.rule.topic = g.topic := fun v hv =>
      hgs g List.mem_cons_self _ (Violations.rule_mem_of_verify hv)
    obtain ⟨hinitial, hchains'⟩ := repairAll_result (p := p)
      { c with result := (c.result.addRuns 1 0).recordInitial (p.catalog.verify c.map.network g.rules) }
      (p.catalog.verify c.map.network g.rules)
    refine ih (fun g' hg' => hgs g' (List.mem_cons_of_mem _ hg')) htopics.2 ?_ ?_ ?_
    · refine h.checked (Violations.proper_verify _ _ _) fun v hv hold => hnew v hold ?_
      rw [topic v hv]
      exact List.mem_cons_self
    · intro v hv
      rw [Plan.runGroup, hinitial] at hv
      rcases List.mem_append.1 hv with hv | hv
      · exact fun hm => hnew v hv (List.mem_cons_of_mem _ hm)
      · rw [topic v hv]
        exact htopics.1
    · rw [Plan.runGroup, hinitial, hchains']
      exact congrArg (· ++ _) hchains

/-- **Runs over a network as a whole.** -/
theorem consistent_runWhole (m : RoadMap) : (p.runWhole m).Consistent p ∧
    (p.runWhole m).result.chains.map (·.violation) = (p.runWhole m).result.initial := by
  refine Course.Consistent.foldl_runGroup _ (fun g hg r hr => (RuleGroup.rules_of_mem_ofRules hg r hr).1)
    (RuleGroup.nodup_topics_ofRules p.rules) (.start _ _) ?_ rfl
  intro v hv
  cases hv

theorem proper_verifyAround (n : Network) (ids : IdSet) (rules : List RuleId) :
    (p.verifyAround n ids rules).Proper := (Violations.proper_verify _ _ _).filter _

theorem Course.Consistent.settleDangling {c : Course} (h : c.Consistent p) : (p.settleDangling c).Consistent p := by
  simp only [Plan.settleDangling]
  split_ifs
  · exact h
  · exact Course.Consistent.repairAll (c := ⟨c.map, c.result.addRuns 1 0⟩)
      (RunResult.Consistent.addVerifications h 1) _

theorem consistent_runBlocks (ids : IdAllocator) (copies : List (Scope × Network)) :
    ∀ e ∈ (p.runBlocks ids copies).2, e.2.2.Consistent p.config.maxIterations := by
  induction copies generalizing ids with
  | nil => exact fun e he => absurd he List.not_mem_nil
  | cons first rest ih =>
    intro e he
    rcases List.mem_cons.1 he with rfl | he
    · exact (consistent_runWhole _).1
    · exact ih _ e he

theorem Course.Consistent.foldl_settleBlock (blocks : List (Scope × Network × RunResult)) {c : Course}
    (h : c.Consistent p) (hblocks : ∀ e ∈ blocks, e.2.2.Consistent p.config.maxIterations) :
    (blocks.foldl settleBlock c).Consistent p := by
  induction blocks generalizing c with
  | nil => exact h
  | cons e blocks ih =>
    exact ih (c := settleBlock c e) (RunResult.Consistent.absorb h (hblocks e List.mem_cons_self))
      fun e he => hblocks e (List.mem_cons_of_mem _ he)

/-- **Runs by blocks.** -/
theorem consistent_runPartitioned (m : RoadMap) : (p.runPartitioned m).Consistent p := by
  have start : Course.Consistent p ⟨m, { rules := p.rules, partitioned := true }⟩ :=
    RunResult.Consistent.start p.rules true
  have across : (p.acrossBlocks m).Consistent p := by
    simp only [acrossBlocks, repairAcross]
    split_ifs
    · exact start
    · exact start.checked (proper_verifyAround _ _ _) fun v _ hv => absurd hv List.not_mem_nil
  rw [runPartitioned_eq, mergedCourse]
  refine Course.Consistent.settleDangling (Course.Consistent.foldl_settleBlock _ ?_ (consistent_runBlocks _ _))
  exact ⟨across.counts, across.initial, across.residual, across.possible_iff_residual, across.possible_iff_chains,
    across.chains, across.repairRuns⟩

end Steps

/-- **The numbers of a result agree**, for every network and all settings that can be used. -/
theorem statistics_consistent {c : Catalog} {config : Config} {p : Plan} (hp : Plan.ofConfig config c = .ok p)
    (m : RoadMap) : ∃ r, r = (p.verifyAndRepair m).result ∧
    (∀ q, (r.initialCounts.lookup q).getD 0 = (r.initial.filter (·.rule = q)).length) ∧
    r.initial.Nodup ∧ r.residual.Nodup ∧
    (r.repairingPossible = true ↔ r.residual = []) ∧ (r.residual = [] ↔ ∀ chain ∈ r.chains, chain.success = true) ∧
    (∀ chain ∈ r.chains, chain.iterations ≤ config.maxIterations ∧
      (chain.iterations = 0 → chain.success = true) ∧
      (chain.success = false → chain.iterations = config.maxIterations)) ∧
    r.repairRuns = (r.chains.map (·.iterations)).sum ∧
    (m.network.count .lanelet ≤ config.partitionThreshold → r.chains.map (·.violation) = r.initial) := by
  obtain ⟨hresult, -⟩ := p.repaired_verifyAndRepair m
  obtain ⟨hconfig, -⟩ := ofConfig_eq hp
  have limit : 0 < p.config.maxIterations := maxIterations_pos hp
  have h : (p.run m).Consistent p := by
    unfold run
    split_ifs
    · exact consistent_runPartitioned m
    · exact (consistent_runWhole m).1
  rw [← hconfig]
  refine ⟨_, rfl, ?counts, hresult ▸ h.initial, hresult ▸ h.residual, hresult ▸ h.possible_iff_residual,
    hresult ▸ h.possible_iff_residual.symm.trans h.possible_iff_chains, ?chains, hresult ▸ h.repairRuns, ?whole⟩
  case counts =>
    intro q
    rw [hresult, h.counts, Tally.getD_lookup_ofList, ← List.countP_eq_length_filter, List.count, List.countP_map]
    exact List.countP_congr fun v _ => by simp
  case chains =>
    intro chain hchain
    obtain ⟨hle, hall⟩ := h.chains chain (hresult ▸ hchain)
    refine ⟨hle, fun hzero => ?_, hall⟩
    by_contra hfail
    have := hall (by simpa using hfail)
    omega
  case whole =>
    intro hsmall
    rw [hresult, show p.run m = p.runWhole m from if_neg (Nat.not_lt.2 hsmall)]
    exact (consistent_runWhole m).2

/-- A lanelet without borders goes, which leaves a sign unreferenced. With one round allowed the lanelet's violation is
given up then, though the sign goes when its own rule comes up. -/
theorem statistics_consistent_given_up : ∃ p, Plan.ofConfig
      { rules := [.verticesMoreThanOne, .referencedTrafficSign], maxIterations := 1 } standardCatalog = .ok p ∧
    ∃ m, m = RoadMap.ofDocument
        { lanelets := [{ id := 1, trafficSigns := .ofList [9] }], trafficSigns := [{ id := 9 }] } ∧
    ∃ r, r = (p.verifyAndRepair m).result ∧
    r.initial = [⟨.verticesMoreThanOne, [1]⟩, ⟨.referencedTrafficSign, [9]⟩] ∧
    r.chains = [⟨.verticesMoreThanOne, [1], 1, false⟩, ⟨.referencedTrafficSign, [9], 1, true⟩] ∧
    r.residual = [⟨.referencedTrafficSign, [9]⟩] ∧ r.repairRuns = 2 ∧ r.repairingPossible = false ∧
    (∀ q, (r.initialCounts.lookup q).getD 0 = (r.initial.filter (·.rule = q)).length) ∧
    r.initial.Nodup ∧ r.residual.Nodup ∧
    (r.repairingPossible = true ↔ r.residual = []) ∧ (r.residual = [] ↔ ∀ chain ∈ r.chains, chain.success = true) ∧
    (∀ chain ∈ r.chains, chain.iterations ≤ 1 ∧ (chain.iterations = 0 → chain.success = true) ∧
      (chain.success = false → chain.iterations = 1)) ∧
    r.repairRuns = (r.chains.map (·.iterations)).sum ∧
    (m.network.count .lanelet ≤ 200 → r.chains.map (·.violation) = r.initial) := by
  have hp : Plan.ofConfig { rules := [.verticesMoreThanOne, .referencedTrafficSign], maxIterations := 1 }
      standardCatalog = .ok ⟨{ rules := [.verticesMoreThanOne, .referencedTrafficSign], maxIterations := 1 },
        standardCatalog, [.verticesMoreThanOne, .referencedTrafficSign]⟩ := rfl
  obtain ⟨r, hr, hconsistent⟩ := statistics_consistent hp (RoadMap.ofDocument
    { lanelets := [{ id := 1, trafficSigns := .ofList [9] }], trafficSigns := [{ id := 9 }] })
  refine ⟨_, hp, _, rfl, r, hr, ?_, ?_, ?_, ?_, ?_, hconsistent⟩ <;> rw [hr] <;> decide +kernel

end Plan

end RoadRules
