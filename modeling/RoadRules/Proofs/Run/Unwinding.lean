/-
Runs that repair loops only.

A repair cuts one loop off each border that it is about, so several rounds may be needed. They come to an end in time:
each round makes all the borders in question shorter that still have a loop, and a border with a loop has four points.

- `Winding`: the invariant of the rounds, with `Winding.round` for one of them and `Winding.rounds` for all.
- `Course.Unwinding`: what repairs of all violations keep up.
- `untangling_converges`: what cuts do to a line, and how many rounds a run takes.
-/
import RoadRules.Proofs.Repair.InPlace
import RoadRules.Proofs.Repair.Unwinding
import RoadRules.Proofs.Run.Statistics

namespace RoadRules

/-! ## The longest border -/

namespace Network

/-- the number of points of the longest border -/
def longestBorder (n : Network) : Nat := (n.lanelets.values.map fun l => max l.left.length l.right.length).foldr max 0

/-- has no border more than `bound` points? -/
def BordersWithin (bound : Nat) (n : Network) : Prop :=
  ∀ k l, n.lanelets.get? k = some l → ∀ side, (l.border side).length ≤ bound

theorem bordersWithin_longestBorder (n : Network) : n.BordersWithin n.longestBorder := by
  intro k l hl side
  have hle : max l.left.length l.right.length ≤ n.longestBorder :=
    List.le_max_of_le (List.mem_map_of_mem (Store.mem_values.2 ⟨k, hl⟩)) (Nat.le_refl _)
  cases side
  · exact Nat.le_trans (Nat.le_max_left _ _) hle
  · exact Nat.le_trans (Nat.le_max_right _ _) hle

theorem Unwinds.bordersWithin {side : Side} {n m : Network} {bound : Nat} (h : Unwinds side n m)
    (hn : n.BordersWithin bound) : m.BordersWithin bound := by
  intro k l' hl' other
  obtain ⟨l, hl, hunwound⟩ := h k l' hl'
  exact Nat.le_trans (hunwound.length_le other) (hn k l hl other)

/-- a copy holds lanelets of the network only -/
theorem violates_of_extract_loop {n : Network} {s : Scope} {side : Side} {location : Location}
    (h : (n.extract s).Violates ⟨side.loopRule, location⟩) : n.Violates ⟨side.loopRule, location⟩ := by
  obtain ⟨l, hl, htangled, hloc⟩ := violates_loopRule.1 h
  obtain ⟨k, hk⟩ := Store.mem_values.1 hl
  rw [get?_extract_lanelet] at hk
  split_ifs at hk
  exact violates_loopRule.2 ⟨l, Store.mem_values.2 ⟨k, hk⟩, htangled, hloc⟩

end Network

namespace Plan

open Network

/-- are the rules of the plan about loops only? -/
def LoopsOnly (p : Plan) : Prop := ∀ r ∈ p.rules, ∃ side : Side, r = side.loopRule

/-! ## One round -/

/-- A state of the rounds that repair the loops of an id on one side. A border that still has a loop is at least as far
below the bound as there have been rounds, and while something is pending there is such a border. -/
structure Winding (bound : Nat) (side : Side) (id : ElementId) (s : Progress) : Prop where
  proper : s.pending.Proper
  only : ∀ v ∈ s.pending, v = ⟨side.loopRule, [id]⟩
  present : ∀ v ∈ s.pending, s.map.network.Violates v
  within : s.map.network.BordersWithin bound
  left : ∀ k l, s.map.network.lanelets.get? k = some l → l.id = id → l.Tangled side →
    (l.border side).length + s.iterations ≤ bound
  spent : s.iterations ≤ bound - 3

namespace Winding

variable {bound : Nat} {side : Side} {id : ElementId} {s : Progress}

/-- what is pending is the one violation -/
theorem toList_pending (h : Winding bound side id s) (hpending : s.pending.isEmpty = false) :
    s.pending.toList = [⟨side.loopRule, [id]⟩] := by
  have hne : s.pending.toList ≠ [] := fun hnil => by simp [h.proper.isEmpty_iff.2 hnil] at hpending
  have hall : ∀ v ∈ s.pending.toList, v = ⟨side.loopRule, [id]⟩ := h.only
  have hnodup := h.proper.nodup_toList
  match s.pending.toList, hne, hall, hnodup with
  | [v], _, hall, _ => rw [hall v List.mem_cons_self]
  | v :: w :: vs, _, hall, hnodup =>
    have hv := hall v List.mem_cons_self
    have hw := hall w (List.mem_cons_of_mem _ List.mem_cons_self)
    exact absurd (hv.trans hw.symm ▸ List.mem_cons_self) (List.nodup_cons.1 hnodup).1

/-- while something is pending there is room for another round -/
theorem room (h : Winding bound side id s) (hpending : s.pending.isEmpty = false) : s.iterations + 4 ≤ bound := by
  have hmem : (⟨side.loopRule, [id]⟩ : Violation) ∈ s.pending := by
    rw [← Violations.mem_toList, h.toList_pending hpending]
    exact List.mem_singleton.2 rfl
  obtain ⟨l, hl, htangled, hloc⟩ := violates_loopRule.1 (h.present _ hmem)
  obtain ⟨k, hk⟩ := Store.mem_values.1 hl
  have hleft := h.left k l hk (List.singleton_inj.1 hloc).symm htangled
  have hfour := Polyline.four_le_of_isSelfCrossing htangled
  omega

/-- a round makes of the network what the repair makes of it, and of the copy what the repair makes of the copy -/
theorem round_eq_untangle (h : Winding bound side id s) (p : Plan) (hpending : s.pending.isEmpty = false) :
    (p.round s.map s.pending).1.network = (s.map.network.untangle id side).network ∧
      (p.repairedCopy s.map s.pending).network =
        ((s.map.network.extract (p.vicinityScope s.map s.pending)).untangle id side).network ∧
      Follows s.map.network (p.vicinityScope s.map s.pending) (p.round s.map s.pending).1.network
        (p.repairedCopy s.map s.pending).network := by
  have hlist := h.toList_pending hpending
  have hmem : ∀ o ∈ [id], o ∈ s.pending.ids.toList := by
    intro o ho
    rw [SortedSet.mem_toList, Violations.mem_ids]
    refine ⟨⟨side.loopRule, [id]⟩, ?_, ho⟩
    rw [← Violations.mem_toList, hlist]
    exact List.mem_singleton.2 rfl
  have hcopy : (p.repairedCopy s.map s.pending).network =
      ((s.map.network.extract (p.vicinityScope s.map s.pending)).untangle id side).network := by
    rw [repairedCopy, hlist]
    cases side <;> rfl
  obtain ⟨hfollows, -⟩ := follows_repairAt s.map (s.map.network.surrounds_aroundAll p.config.radius
    s.pending.ids.toList) side.loopRule hmem
  have hwhole : (side.loopRule.repairAt s.map id []).1.network = (s.map.network.untangle id side).network := by
    cases side <;> rfl
  have hpart : (side.loopRule.repairAt ⟨s.map.network.extract (p.vicinityScope s.map s.pending), s.map.ids⟩
      id []).1.network = (p.repairedCopy s.map s.pending).network := by
    rw [hcopy]
    cases side <;> rfl
  rw [hwhole, show s.map.network.aroundAll p.config.radius s.pending.ids.toList = p.vicinityScope s.map s.pending from
    rfl, hpart] at hfollows
  have hnetwork : (p.round s.map s.pending).1.network = (s.map.network.untangle id side).network := hfollows.merge_eq
  exact ⟨hnetwork, hcopy, hnetwork ▸ hfollows⟩

end Winding

section Rounds

variable {p : Plan} (hp : p.catalog = standardCatalog) (hloops : p.LoopsOnly) {bound : Nat} {side : Side}
  {id : ElementId}

include hp hloops

/-- **A round.** The borders that have a loop get shorter, and nothing else comes to be pending. -/
theorem Winding.round {s : Progress} (h : Winding bound side id s) (hpending : s.pending.isEmpty = false) :
    Winding bound side id ⟨(p.round s.map s.pending).1, (p.round s.map s.pending).2, s.iterations + 1⟩ := by
  obtain ⟨hnetwork, hcopy, hfollows⟩ := h.round_eq_untangle p hpending
  have hroom := h.room hpending
  obtain ⟨hunwinds, hshorter⟩ := unwinds_untangle s.map.network id side
  rw [← hnetwork] at hunwinds hshorter
  have violates_of_copy : ∀ {other : Side} {location : Location},
      (p.repairedCopy s.map s.pending).network.Violates ⟨other.loopRule, location⟩ →
        (p.round s.map s.pending).1.network.Violates ⟨other.loopRule, location⟩ := by
    intro other location hviol
    obtain ⟨l, hl, htangled, hloc⟩ := violates_loopRule.1 hviol
    obtain ⟨k, hk⟩ := Store.mem_values.1 hl
    have hs : k ∈ (p.vicinityScope s.map s.pending).lanelets :=
      hfollows.has_of_copy (x := ⟨.lanelet, k⟩) (by rw [idOf?_lanelet, hk]; rfl)
    rw [hfollows.lanelet_inside hs] at hk
    exact violates_loopRule.2 ⟨l, Store.mem_values.2 ⟨k, hk⟩, htangled, hloc⟩
  have pending_round : ∀ v ∈ (p.round s.map s.pending).2, v = ⟨side.loopRule, [id]⟩ ∧
      (p.round s.map s.pending).1.network.Violates v := by
    rintro ⟨r, location⟩ hv
    obtain ⟨⟨hr, hviol⟩, hnew⟩ := (mem_round hp h.proper.distinct).1 hv
    obtain ⟨other, rfl⟩ := hloops r hr
    refine ⟨h.only _ (hnew.resolve_right fun hnot => hnot ⟨hr, ?_⟩), violates_of_copy hviol⟩
    -- the repair of the copy has made no loop
    rw [hcopy] at hviol
    exact (unwinds_untangle _ id side).1.violates hviol
  refine ⟨p.proper_round _ _, fun v hv => (pending_round v hv).1, fun v hv => (pending_round v hv).2,
    hunwinds.bordersWithin h.within, fun k l' hl' hid htangled => ?_, by dsimp only; omega⟩
  obtain ⟨l, hl, hunwound⟩ := hunwinds k l' hl'
  have hold := h.left k l hl (hunwound.id.symm.trans hid) (hunwound.tangled htangled)
  have hlt := hshorter k l l' hl (hunwound.id.symm.trans hid) (hunwound.tangled htangled) hl'
  dsimp only
  omega

/-- **All rounds.** With as many rounds as the longest border has points, nothing is pending in the end. -/
theorem Winding.rounds (limit : Nat) {s : Progress} (h : Winding bound side id s)
    (hlimit : bound ≤ limit + s.iterations) :
    Winding bound side id (p.rounds limit s) ∧ (p.rounds limit s).pending.isEmpty = true := by
  induction limit generalizing s with
  | zero =>
    refine ⟨h, ?_⟩
    by_contra hpending
    have hroom := h.room (Bool.eq_false_iff.2 hpending)
    omega
  | succ limit ih =>
    simp only [Plan.rounds]
    split_ifs with hpending
    · exact ⟨h, hpending⟩
    · refine ih (h.round hp hloops (Bool.eq_false_iff.2 hpending)) ?_
      dsimp only
      omega

/-- **The repair of a loop**, with all its rounds. -/
theorem winding_closure {m : RoadMap} (hm : m.network.BordersWithin bound) (hlimit : bound ≤ p.config.maxIterations)
    (side : Side) (id : ElementId) : Winding bound side id (p.closure m ⟨side.loopRule, [id]⟩) ∧
      (p.closure m ⟨side.loopRule, [id]⟩).pending.isEmpty = true := by
  have start : Winding bound side id ⟨m, p.stillPresent m.network ⟨side.loopRule, [id]⟩, 0⟩ := by
    have left : ∀ k l, m.network.lanelets.get? k = some l → l.id = id → l.Tangled side →
        (l.border side).length + 0 ≤ bound := fun k l hl _ _ => hm k l hl side
    unfold stillPresent
    split_ifs with hfound
    · refine ⟨.single _, fun v hv => Violations.mem_single.1 hv, fun v hv => ?_, hm, left, Nat.zero_le _⟩
      obtain rfl := Violations.mem_single.1 hv
      rw [Violations.contains_iff (Violations.distinct_verify _ _ _), hp, Violations.mem_verify] at hfound
      exact violates_of_extract_loop hfound.2
    · have none : ∀ v, ¬ v ∈ Violations.empty := Violations.not_mem_of_isEmpty rfl
      exact ⟨.empty, fun v hv => absurd hv (none v), fun v hv => absurd hv (none v), hm, left, Nat.zero_le _⟩
  exact start.rounds hp hloops _ hlimit

end Rounds

/-! ## Whole runs -/

/-- So far all violations have been repaired, each within the rounds that the longest border allows. -/
structure Course.Unwinding (bound : Nat) (c : Course) : Prop where
  flag : c.Flag
  within : c.map.network.BordersWithin bound
  chains : ∀ chain ∈ c.result.chains, chain.iterations ≤ bound - 3

section Runs

variable {p : Plan} (hp : p.catalog = standardCatalog) (hloops : p.LoopsOnly) {bound : Nat}
  (hlimit : bound ≤ p.config.maxIterations)

include hp hloops hlimit

theorem Course.Unwinding.repairOne {c : Course} (h : c.Unwinding bound) (side : Side) (id : ElementId) :
    (p.repairOne c ⟨side.loopRule, [id]⟩).Unwinding bound := by
  obtain ⟨hwinding, hempty⟩ := winding_closure hp hloops h.within hlimit side id
  have hresidual : ∀ r : RunResult, r.recordResidual (p.closure c.map ⟨side.loopRule, [id]⟩).pending = r :=
    fun r => if_pos hempty
  refine ⟨?_, hwinding.within, fun chain hchain => ?_⟩
  · rw [Course.Flag, Plan.repairOne, hresidual]
    exact h.flag
  · rw [Plan.repairOne, hresidual] at hchain
    rcases List.mem_append.1 hchain with hold | hnew
    · exact h.chains chain hold
    · rw [List.mem_singleton.1 hnew]
      exact hwinding.spent

/-- **A check, and the repair of what it finds.** -/
theorem Course.Unwinding.runGroup {c : Course} (h : c.Unwinding bound) {g : RuleGroup}
    (hg : ∀ r ∈ g.rules, r ∈ p.rules) : (p.runGroup c g).Unwinding bound := by
  have found : ∀ v ∈ (p.catalog.verify c.map.network g.rules).toList, ∃ (side : Side) (id : ElementId),
      v = ⟨side.loopRule, [id]⟩ := by
    rintro ⟨r, location⟩ hv
    rw [hp] at hv
    obtain ⟨hr, hviol⟩ := Violations.mem_verify.1 hv
    obtain ⟨side, rfl⟩ := hloops r (hg r hr)
    obtain ⟨l, -, -, hloc⟩ := violates_loopRule.1 hviol
    exact ⟨side, l.id, congrArg _ hloc⟩
  refine repairAll_induction ⟨h.flag, h.within, h.chains⟩ fun c hc v hv => ?_
  obtain ⟨side, id, rfl⟩ := found v hv
  exact hc.repairOne hp hloops hlimit side id

theorem unwinding_runWhole {m : RoadMap} (hm : m.network.BordersWithin bound) : (p.runWhole m).Unwinding bound :=
  runWhole_induction ⟨rfl, hm, fun _ hchain => absurd hchain List.not_mem_nil⟩ fun _ hc _ hg =>
    hc.runGroup hp hloops hlimit hg

end Runs

/-- **Loops are repaired within a known number of rounds.** A cut leaves a line with fewer points, the same first one,
and a last one that is the old one or equals it; there is nothing to cut just if the line does not cross itself; and a
line of `m` points does not cross itself any more after `m - 3` cuts. So a run that checks for loops only, in a network
that is not cut into blocks, repairs all of them, and no repair takes more than `m - 3` rounds if no border has more
than `m` points and `m` rounds are allowed. -/
theorem untangling_converges :
    (∀ (α : Type) [BEq α] (cross? : α → α → α → α → Option α) (line : List α),
      (∀ line', Polyline.cutFirstLoop cross? line = some line' → line'.length < line.length ∧
        line'.head? = line.head? ∧
        ∃ z z', line.getLast? = some z ∧ line'.getLast? = some z' ∧ (z' = z ∨ (z == z') = true)) ∧
      (Polyline.cutFirstLoop cross? line = none ↔ Polyline.isSelfCrossing cross? line = false) ∧
      ∀ k, line.length - 3 ≤ k → Polyline.isSelfCrossing cross? ((Polyline.cutLoop cross?)^[k] line) = false) ∧
    ∀ {c : Catalog} {config : Config} {p : Plan}, Catalog.standard = .ok c → Plan.ofConfig config c = .ok p →
      (∀ r ∈ p.rules, r = .leftSelfIntersection ∨ r = .rightSelfIntersection) →
      ∀ m : RoadMap, m.network.count .lanelet ≤ config.partitionThreshold →
        m.network.longestBorder ≤ config.maxIterations →
        (p.verifyAndRepair m).result.repairingPossible = true ∧
          ∀ chain ∈ (p.verifyAndRepair m).result.chains, chain.iterations ≤ m.network.longestBorder - 3 := by
  constructor
  · intro α _ cross? line
    refine ⟨fun line' h => ⟨Polyline.length_cutFirstLoop_lt h, Polyline.head?_cutFirstLoop h,
      Polyline.getLast?_cutFirstLoop h⟩, Polyline.cutFirstLoop_eq_none_iff, fun k hk => ?_⟩
    exact Polyline.isSelfCrossing_iterate_cutLoop cross? line (Nat.sub_le_iff_le_add.1 hk)
  · intro c config p hc hplan hrules m hsmall hlimit
    have hstd := (catalog_of_standard hc hplan).2
    obtain ⟨hconfig, -⟩ := ofConfig_eq hplan
    have hloops : p.LoopsOnly := fun r hr => (hrules r hr).elim (⟨.left, ·⟩) (⟨.right, ·⟩)
    have h := unwinding_runWhole hstd hloops (hconfig ▸ hlimit) m.network.bordersWithin_longestBorder
    obtain ⟨hresult, -⟩ := p.repaired_verifyAndRepair m
    rw [hresult, show p.run m = p.runWhole m from if_neg (by rw [hconfig]; exact Nat.not_lt.2 hsmall)]
    exact ⟨h.flag, h.chains⟩

/-- a border with two loops, of nine points: two rounds -/
theorem untangling_converges_two_loops : ∃ p,
    Plan.ofConfig { rules := [.leftSelfIntersection], maxIterations := 9 } standardCatalog = .ok p ∧
    ∃ m, m = RoadMap.ofDocument
        { lanelets := [{ id := 1, left := [⟨0.0, 0.0⟩, ⟨4.0, 0.0⟩, ⟨4.0, 2.0⟩, ⟨2.0, 2.0⟩, ⟨2.0, -2.0⟩, ⟨10.0, -2.0⟩,
          ⟨10.0, 0.0⟩, ⟨8.0, 0.0⟩, ⟨8.0, -4.0⟩] }] } ∧
      m.network.longestBorder = 9 ∧
      (p.closure m ⟨.leftSelfIntersection, [1]⟩).iterations = 2 ∧
      (p.verifyAndRepair m).result.repairingPossible = true ∧
        ∀ chain ∈ (p.verifyAndRepair m).result.chains, chain.iterations ≤ 6 := by
  have hp : Plan.ofConfig { rules := [.leftSelfIntersection], maxIterations := 9 } standardCatalog =
      .ok ⟨{ rules := [.leftSelfIntersection], maxIterations := 9 }, standardCatalog, [.leftSelfIntersection]⟩ := rfl
  refine ⟨_, hp, _, rfl, by decide +kernel, by decide +kernel, ?_⟩
  exact untangling_converges.2 Catalog.standard_eq hp (by decide) _ (by decide) (by decide +kernel)

end Plan

end RoadRules
