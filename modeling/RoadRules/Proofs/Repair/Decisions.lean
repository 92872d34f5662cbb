/-
What the decisions of repairs come to.

A repair by decision keeps an element, changes it or removes it. For every decision there is a statement of when it
keeps (`_eq_keep_iff`) and one of what it changes (`_eq_change_iff`, or `_change` where the outcome is described rather
than given); a decision that never changes or never removes anything says so (`_ne_change`, `_ne_remove`). What is
proved about repairs rests on these, and not on how the decisions are written.
-/
import Mathlib.Tactic
import RoadRules.Repair.Rule

namespace RoadRules

namespace Fix

variable {α : Type} {p : Prop} [Decidable p] {a b : α}

/-! Most decisions keep what is right and change the rest. -/

theorem ite_eq_keep_iff : (if p then keep else change a) = keep ↔ p := by
  split_ifs with h <;> simp [h]

theorem ite_eq_change_iff : (if p then keep else change a) = change b ↔ ¬ p ∧ b = a := by
  split_ifs with h <;> simp [h, eq_comm]

theorem ite_ne_remove : (if p then keep else change a) ≠ remove := by
  split_ifs <;> nofun

end Fix

/-! ## Ids that name something -/

namespace Network

variable {n : Network} {kind : Kind} {ids : IdSet}

theorem dangling_isEmpty_iff :
    (n.dangling kind ids).isEmpty = true ↔ ∀ id ∈ ids, n.resolves kind id = true := by
  have hempty : (n.dangling kind ids).isEmpty = true ↔ (n.dangling kind ids).toList = [] := List.isEmpty_iff
  rw [hempty, List.eq_nil_iff_forall_not_mem]
  refine forall_congr' fun id => ?_
  rw [SortedSet.mem_toList, dangling, SortedSet.mem_filter, Bool.not_eq_true', not_and, Bool.not_eq_false]

theorem mem_resolving_iff {id : ElementId} : id ∈ n.resolving kind ids ↔ id ∈ ids ∧ n.resolves kind id = true :=
  SortedSet.mem_filter

/-- of ids that all name something none is dropped -/
theorem resolving_eq_self (h : ∀ id ∈ ids, n.resolves kind id = true) : n.resolving kind ids = ids :=
  SortedSet.ext fun id => mem_resolving_iff.trans (and_iff_left_of_imp (h id))

end Network

/-! ## Lanelets -/

namespace Lanelet

variable {l l' : Lanelet}

theorem fixVertexCounts_eq_keep_iff : l.fixVertexCounts = .keep ↔ l.left.length = l.right.length := by
  unfold fixVertexCounts
  split_ifs <;> simp [*]

theorem fixVertexCounts_eq_change_iff : l.fixVertexCounts = .change l' ↔
    l.left.length ≠ l.right.length ∧ 2 ≤ min l.left.length l.right.length ∧
      l' = recentred { l with
        left := Polyline.resample l.left (max l.left.length l.right.length)
        right := Polyline.resample l.right (max l.left.length l.right.length) } := by
  unfold fixVertexCounts
  split_ifs with heq hmin
  · simp [heq]
  · simp [Nat.not_le.2 hmin]
  · simp [heq, Nat.not_lt.1 hmin, eq_comm]

theorem fixDegenerate_eq_keep_iff : l.fixDegenerate = .keep ↔ 2 ≤ l.left.length ∧ 2 ≤ l.right.length := by
  unfold fixDegenerate
  split_ifs with h <;> simp only [Bool.or_eq_true, decide_eq_true_eq] at h
  · exact iff_of_false nofun (by omega)
  · exact iff_of_true rfl (by omega)

theorem fixDegenerate_ne_change : l.fixDegenerate ≠ .change l' := by
  unfold fixDegenerate
  split_ifs <;> nofun

/-- does the right border end closer to the start of the left one than it starts? -/
def Turned (l : Lanelet) : Prop := ∃ start first last, l.left.head? = some start ∧ l.right.head? = some first ∧
  l.right.getLast? = some last ∧ start.distance last < start.distance first

theorem fixDirection_cases (l : Lanelet) : ¬ l.Turned ∧ l.fixDirection = .keep ∨
    l.Turned ∧ l.fixDirection = .change (recentred { l with right := l.right.reverse }) := by
  unfold fixDirection
  split
  · next start first last hstart hfirst hlast =>
    split_ifs with hlt
    · exact Or.inr ⟨⟨start, first, last, hstart, hfirst, hlast, hlt⟩, rfl⟩
    · refine Or.inl ⟨?_, rfl⟩
      rintro ⟨start', first', last', hstart', hfirst', hlast', hlt'⟩
      cases hstart.symm.trans hstart'
      cases hfirst.symm.trans hfirst'
      cases hlast.symm.trans hlast'
      exact hlt hlt'
  · next hnone =>
    refine Or.inl ⟨?_, rfl⟩
    rintro ⟨start, first, last, hstart, hfirst, hlast, -⟩
    exact hnone start first last hstart hfirst hlast

theorem fixDirection_eq_keep_iff : l.fixDirection = .keep ↔ ¬ l.Turned := by
  rcases l.fixDirection_cases with ⟨h, heq⟩ | ⟨h, heq⟩ <;> simp [h, heq]

theorem fixDirection_eq_change_iff : l.fixDirection = .change l' ↔
    l.Turned ∧ l' = recentred { l with right := l.right.reverse } := by
  rcases l.fixDirection_cases with ⟨h, heq⟩ | ⟨h, heq⟩ <;> simp [h, heq, eq_comm]

theorem fixDirection_ne_remove : l.fixDirection ≠ .remove := by
  rcases l.fixDirection_cases with ⟨-, heq⟩ | ⟨-, heq⟩ <;> rw [heq] <;> nofun

/-- other borders, and a centre line computed anew -/
def Redrawn (l l' : Lanelet) : Prop := ∃ left right, l' = recentred { l with left := left, right := right }

theorem redrawn_of_fixVertexCounts (h : l.fixVertexCounts = .change l') : l.Redrawn l' :=
  ⟨_, _, (fixVertexCounts_eq_change_iff.1 h).2.2⟩

theorem redrawn_of_fixDirection (h : l.fixDirection = .change l') : l.Redrawn l' :=
  ⟨_, _, (fixDirection_eq_change_iff.1 h).2⟩

theorem redrawn_of_fixLoop {side : Side} (h : l.fixLoop side = .change l') : l.Redrawn l' := by
  cases side <;> simp only [fixLoop] at h <;> split at h <;> cases h <;> exact ⟨_, _, rfl⟩

/-- the lanelet noted beside it on a side -/
def neighbour (side : Side) (l : Lanelet) : Option Adjacency :=
  match side with
  | .left => l.adjacentLeft
  | .right => l.adjacentRight

def dropNeighbour (side : Side) (l : Lanelet) : Lanelet :=
  match side with
  | .left => { l with adjacentLeft := none }
  | .right => { l with adjacentRight := none }

/-- a lanelet beside it is forgotten if there is none with the id -/
def fixNeighbour (side : Side) (n : Network) (l : Lanelet) : Fix Lanelet :=
  match l.neighbour side with
  | none => .keep
  | some a => if n.resolves .lanelet a.id then .keep else .change (l.dropNeighbour side)

/-- ids that name nothing are dropped from a set -/
def fixReferences (kind : Kind) (get : Lanelet → IdSet) (put : Lanelet → IdSet → Lanelet) (n : Network) (l : Lanelet) :
    Fix Lanelet :=
  if (n.dangling kind (get l)).isEmpty then .keep else .change (put l (n.resolving kind (get l)))

/-- the signs of the stop line are noted -/
def fixStopLineSigns (l : Lanelet) : Fix Lanelet :=
  let signs := (l.stopLine.map (·.trafficSigns.toList)).getD []
  if signs.all l.trafficSigns.contains then .keep else .change { l with trafficSigns := l.trafficSigns.insertAll signs }

section References

variable {side : Side} {kind : Kind} {get : Lanelet → IdSet} {put : Lanelet → IdSet → Lanelet} {n : Network}

@[simp] theorem neighbour_dropNeighbour (side : Side) (l : Lanelet) : (l.dropNeighbour side).neighbour side = none := by
  cases side <;> rfl

theorem fixNeighbour_eq_keep_iff : l.fixNeighbour side n = .keep ↔
    ∀ a, l.neighbour side = some a → n.resolves .lanelet a.id = true := by
  unfold fixNeighbour
  cases l.neighbour side with
  | none => simp
  | some a => simp

theorem fixNeighbour_change (h : l.fixNeighbour side n = .change l') : l' = l.dropNeighbour side := by
  unfold fixNeighbour at h
  split at h
  · cases h
  · exact (Fix.ite_eq_change_iff.1 h).2

theorem fixNeighbour_ne_remove : l.fixNeighbour side n ≠ .remove := by
  unfold fixNeighbour
  split
  · nofun
  · exact Fix.ite_ne_remove

theorem fixReferences_eq_keep_iff : l.fixReferences kind get put n = .keep ↔
    ∀ ref ∈ get l, n.resolves kind ref = true :=
  Fix.ite_eq_keep_iff.trans Network.dangling_isEmpty_iff

theorem fixReferences_change (h : l.fixReferences kind get put n = .change l') :
    l' = put l (n.resolving kind (get l)) :=
  (Fix.ite_eq_change_iff.1 h).2

theorem fixReferences_ne_remove : l.fixReferences kind get put n ≠ .remove := Fix.ite_ne_remove

theorem fixStopLineSigns_eq_keep_iff : l.fixStopLineSigns = .keep ↔
    ∀ stop ∈ l.stopLine, ∀ id ∈ stop.trafficSigns, id ∈ l.trafficSigns := by
  refine Fix.ite_eq_keep_iff.trans ?_
  cases l.stopLine <;> simp [SortedSet.contains_iff, SortedSet.mem_toList]

theorem fixStopLineSigns_change (h : l.fixStopLineSigns = .change l') :
    l' = { l with trafficSigns := l.trafficSigns.insertAll ((l.stopLine.map (·.trafficSigns.toList)).getD []) } :=
  (Fix.ite_eq_change_iff.1 h).2

theorem included_of_fixStopLineSigns (h : l.fixStopLineSigns = .change l') :
    l'.id = l.id ∧ ∀ stop ∈ l'.stopLine, ∀ id ∈ stop.trafficSigns, id ∈ l'.trafficSigns := by
  rw [fixStopLineSigns_change h]
  refine ⟨rfl, fun stop hstop id hid => SortedSet.mem_insertAll.2 (Or.inr ?_)⟩
  rw [Option.mem_def.1 hstop]
  exact hid

theorem fixStopLineSigns_ne_remove : l.fixStopLineSigns ≠ .remove := Fix.ite_ne_remove

end References

end Lanelet

theorem Network.dropAdjacency_eq (n : Network) (id : ElementId) (side : Side) :
    n.dropAdjacency id side = n.fixLanelets id (Lanelet.fixNeighbour side) := by
  cases side <;> rfl

/-! ## Signs -/

namespace TrafficSign

variable {s s' : TrafficSign}

theorem fixEmpty_eq_keep_iff : s.fixEmpty = .keep ↔ s.plates ≠ [] := by
  unfold fixEmpty
  split_ifs with h <;> simpa using h

theorem fixEmpty_ne_change : s.fixEmpty ≠ .change s' := by
  unfold fixEmpty
  split_ifs <;> nofun

/-- a plate has the value that it needs -/
theorem isComplete_iff {p : SignPlate} :
    (!needsValue p.code || !p.values.isEmpty) = true ↔ (needsValue p.code = true → p.values ≠ []) := by
  rw [Bool.or_eq_true, Bool.not_eq_true', Bool.not_eq_true', List.isEmpty_eq_false_iff, ← Bool.not_eq_true,
    imp_iff_not_or]

theorem fixMissingValues_eq_keep_iff : s.fixMissingValues = .keep ↔
    ∀ p ∈ s.plates, needsValue p.code = true → p.values ≠ [] := by
  refine Fix.ite_eq_keep_iff.trans (List.all_eq_true.trans ?_)
  exact forall₂_congr fun p _ => isComplete_iff

theorem fixMissingValues_change (h : s.fixMissingValues = .change s') :
    (∃ plates, plates.Sublist s.plates ∧ s' = { s with plates := plates }) ∧
      ∀ p ∈ s'.plates, needsValue p.code = true → p.values ≠ [] := by
  obtain ⟨-, rfl⟩ := Fix.ite_eq_change_iff.1 h
  exact ⟨⟨_, List.filter_sublist, rfl⟩, fun p hp => isComplete_iff.1 (List.mem_filter.1 hp).2⟩

theorem id_of_fixMissingValues (h : s.fixMissingValues = .change s') : s'.id = s.id := by
  obtain ⟨⟨plates, -, rfl⟩, -⟩ := fixMissingValues_change h
  rfl

theorem fixMissingValues_ne_remove : s.fixMissingValues ≠ .remove := Fix.ite_ne_remove

/-- a plate for a speed limit has a value, and all its values are above zero -/
theorem isValid_iff {p : SignPlate} :
    (!isSpeedLimitCode p.code || (!p.values.isEmpty && p.values.all fun v => decide (0.0 < v))) = true ↔
      (isSpeedLimitCode p.code = true → p.values ≠ [] ∧ ∀ v ∈ p.values, 0.0 < v) := by
  rw [Bool.or_eq_true, Bool.and_eq_true, Bool.not_eq_true', Bool.not_eq_true', List.isEmpty_eq_false_iff,
    List.all_eq_true, ← Bool.not_eq_true, imp_iff_not_or]
  simp only [decide_eq_true_eq]

theorem fixSpeedValues_eq_keep_iff : s.fixSpeedValues = .keep ↔
    ∀ p ∈ s.plates, isSpeedLimitCode p.code = true → p.values ≠ [] ∧ ∀ v ∈ p.values, 0.0 < v := by
  refine Fix.ite_eq_keep_iff.trans (List.all_eq_true.trans ?_)
  exact forall₂_congr fun p _ => isValid_iff

theorem fixSpeedValues_change (h : s.fixSpeedValues = .change s') :
    (∃ plates, s' = { s with plates := plates }) ∧
      ∀ p ∈ s'.plates, isSpeedLimitCode p.code = true → p.values ≠ [] ∧ ∀ v ∈ p.values, 0.0 < v := by
  obtain ⟨-, rfl⟩ := Fix.ite_eq_change_iff.1 h
  refine ⟨⟨_, rfl⟩, fun p hp hcode => ?_⟩
  obtain ⟨hp, hvalues⟩ := List.mem_filter.1 hp
  rw [hcode, Bool.not_true, Bool.false_or, Bool.not_eq_true', List.isEmpty_eq_false_iff] at hvalues
  refine ⟨hvalues, fun v hv => ?_⟩
  obtain ⟨q, -, rfl⟩ := List.mem_map.1 hp
  -- a plate keeps its code, so the values that are left on it are those above zero
  split_ifs at hcode hv with hq
  · exact of_decide_eq_true (List.mem_filter.1 hv).2
  · exact absurd hcode hq

theorem id_of_fixSpeedValues (h : s.fixSpeedValues = .change s') : s'.id = s.id := by
  obtain ⟨⟨plates, rfl⟩, -⟩ := fixSpeedValues_change h
  rfl

theorem fixSpeedValues_ne_remove : s.fixSpeedValues ≠ .remove := Fix.ite_ne_remove

end TrafficSign

/-! ## Lights -/

namespace TrafficLight

variable {t t' : TrafficLight}

theorem fixEmpty_eq_keep_iff : t.fixEmpty = .keep ↔ t.cycle ≠ [] := by
  unfold fixEmpty
  split_ifs with h <;> simpa using h

theorem fixEmpty_change (h : t.fixEmpty = .change t') : t' = { t with cycle := defaultCycle } := by
  unfold fixEmpty at h
  split_ifs at h
  exact (Fix.change.inj h).symm

theorem id_of_fixEmpty (h : t.fixEmpty = .change t') : t'.id = t.id := by rw [fixEmpty_change h]

theorem fixEmpty_ne_remove : t.fixEmpty ≠ .remove := by
  unfold fixEmpty
  split_ifs <;> nofun

theorem fixDurations_eq_keep_iff : t.fixDurations = .keep ↔ ∀ c ∈ t.cycle, 0 < c.duration := by
  refine Fix.ite_eq_keep_iff.trans (List.all_eq_true.trans ?_)
  simp only [decide_eq_true_eq]

theorem fixDurations_change (h : t.fixDurations = .change t') :
    (∃ cycle, t' = { t with cycle := cycle }) ∧ ∀ c ∈ t'.cycle, 0 < c.duration := by
  obtain ⟨-, rfl⟩ := Fix.ite_eq_change_iff.1 h
  exact ⟨⟨_, rfl⟩, fun c hc => of_decide_eq_true (List.mem_filter.1 hc).2⟩

theorem id_of_fixDurations (h : t.fixDurations = .change t') : t'.id = t.id := by
  obtain ⟨⟨cycle, rfl⟩, -⟩ := fixDurations_change h
  rfl

theorem fixDurations_ne_remove : t.fixDurations ≠ .remove := Fix.ite_ne_remove

/-- a step joins those that are kept, unless one of them has its phase -/
def keepFirst (kept : List CycleStep) (c : CycleStep) : List CycleStep :=
  if kept.any (·.phase == c.phase) then kept else kept ++ [c]

theorem sublist_keepFirst {kept done : List CycleStep} (h : kept.Sublist done) (c : CycleStep) :
    (keepFirst kept c).Sublist (done ++ [c]) := by
  unfold keepFirst
  split_ifs
  · exact h.trans (List.sublist_append_left _ _)
  · exact h.append (List.Sublist.refl _)

theorem nodup_keepFirst {kept : List CycleStep} (h : (kept.map (·.phase)).Nodup) (c : CycleStep) :
    ((keepFirst kept c).map (·.phase)).Nodup := by
  unfold keepFirst
  split_ifs with hany
  · exact h
  · rw [List.map_append, List.nodup_append]
    refine ⟨h, List.nodup_singleton _, fun p hp q hq heq => hany ?_⟩
    obtain ⟨k, hk, rfl⟩ := List.mem_map.1 hp
    exact List.any_eq_true.2 ⟨k, hk, beq_iff_eq.2 (heq.trans (List.mem_singleton.1 hq))⟩

theorem keepFirst_of_new {kept : List CycleStep} {c : CycleStep} (h : c.phase ∉ kept.map (·.phase)) :
    keepFirst kept c = kept ++ [c] := by
  refine if_neg fun hany => h ?_
  obtain ⟨k, hk, heq⟩ := List.any_eq_true.1 hany
  exact List.mem_map.2 ⟨k, hk, beq_iff_eq.1 heq⟩

theorem foldl_keepFirst (rest : List CycleStep) {kept done : List CycleStep} (hs : kept.Sublist done)
    (hn : (kept.map (·.phase)).Nodup) :
    (rest.foldl keepFirst kept).Sublist (done ++ rest) ∧ ((rest.foldl keepFirst kept).map (·.phase)).Nodup := by
  induction rest generalizing kept done with
  | nil =>
    rw [List.append_nil]
    exact ⟨hs, hn⟩
  | cons c rest ih =>
    rw [List.foldl_cons, List.append_cons done c rest]
    exact ih (sublist_keepFirst hs c) (nodup_keepFirst hn c)

theorem foldl_keepFirst_of_nodup (rest : List CycleStep) {kept : List CycleStep}
    (h : ((kept ++ rest).map (·.phase)).Nodup) : rest.foldl keepFirst kept = kept ++ rest := by
  induction rest generalizing kept with
  | nil => exact (List.append_nil kept).symm
  | cons c rest ih =>
    have hnew : c.phase ∉ kept.map (·.phase) := by
      rw [List.map_append, List.nodup_append] at h
      exact fun hmem => h.2.2 _ hmem _ (List.mem_map_of_mem List.mem_cons_self) rfl
    rw [List.foldl_cons, keepFirst_of_new hnew, ih (by rwa [← List.append_cons]), ← List.append_cons]

/-- what is kept of a cycle is part of it, and no phase comes twice -/
theorem nodup_firstOfEachPhase (cycle : List CycleStep) :
    (firstOfEachPhase cycle).Sublist cycle ∧ ((firstOfEachPhase cycle).map (·.phase)).Nodup :=
  foldl_keepFirst cycle (List.Sublist.refl []) List.nodup_nil

/-- in a cycle without repeated phases all steps are the first ones of their phases -/
theorem firstOfEachPhase_eq_self {cycle : List CycleStep} (h : (cycle.map (·.phase)).Nodup) :
    firstOfEachPhase cycle = cycle :=
  foldl_keepFirst_of_nodup cycle h

theorem fixRepeatedPhases_eq_keep_iff : t.fixRepeatedPhases = .keep ↔ (t.cycle.map (·.phase)).Nodup := by
  refine Fix.ite_eq_keep_iff.trans ⟨fun hlength => ?_, fun h => by rw [firstOfEachPhase_eq_self h]⟩
  obtain ⟨hsub, hnodup⟩ := nodup_firstOfEachPhase t.cycle
  rwa [hsub.eq_of_length hlength] at hnodup

theorem fixRepeatedPhases_change (h : t.fixRepeatedPhases = .change t') :
    (∃ cycle, t' = { t with cycle := cycle }) ∧ (t'.cycle.map (·.phase)).Nodup := by
  obtain ⟨-, rfl⟩ := Fix.ite_eq_change_iff.1 h
  exact ⟨⟨_, rfl⟩, (nodup_firstOfEachPhase t.cycle).2⟩

theorem id_of_fixRepeatedPhases (h : t.fixRepeatedPhases = .change t') : t'.id = t.id := by
  obtain ⟨⟨cycle, rfl⟩, -⟩ := fixRepeatedPhases_change h
  rfl

theorem fixRepeatedPhases_ne_remove : t.fixRepeatedPhases ≠ .remove := Fix.ite_ne_remove

end TrafficLight

/-! ## Intersections -/

namespace Intersection

/-- an intersection with less than two incoming groups goes -/
def fixUnderfull (i : Intersection) : Fix Intersection := if i.incomings.length < 2 then .remove else .keep

/-- incoming lanelets that do not exist are dropped, and groups that lose all of theirs -/
def fixIncomings (n : Network) (i : Intersection) : Fix Intersection :=
  let dangles (g : IncomingGroup) := !(n.dangling .lanelet g.lanelets).isEmpty
  if !i.incomings.any dangles then .keep
  else
    let groups := i.incomings.filterMap fun g =>
      if !dangles g then some g
      else
        let lanelets := n.resolving .lanelet g.lanelets
        if lanelets.isEmpty then none else some { g with lanelets }
    .change { i with incomings := groups }

/-- lanelets that do not exist are dropped from those that the groups lead to -/
def fixGroupSuccessors (n : Network) (i : Intersection) : Fix Intersection :=
  if i.incomings.all fun g => g.successors.all (n.resolves .lanelet) then .keep
  else
    .change { i with incomings := i.incomings.map fun g =>
      { g with
        left := n.resolving .lanelet g.left
        right := n.resolving .lanelet g.right
        straight := n.resolving .lanelet g.straight } }

/-- groups that lead nowhere lead straight on to what follows their lanelets; without such lanelets they go -/
def fixConnections (n : Network) (i : Intersection) : Fix Intersection :=
  if i.incomings.all fun g => !g.successors.isEmpty then .keep
  else
    let groups := i.incomings.filterMap fun g =>
      if !g.successors.isEmpty then some g
      else if (n.followers g).isEmpty then none
      else some { g with straight := n.followers g }
    .change { i with incomings := groups }

/-- crossings that do not exist are dropped -/
def fixCrossings (n : Network) (i : Intersection) : Fix Intersection :=
  if (n.dangling .lanelet i.crossings).isEmpty then .keep
  else .change { i with crossings := n.resolving .lanelet i.crossings }

variable {n : Network} {i i' : Intersection}

theorem fixUnderfull_eq_keep_iff : i.fixUnderfull = .keep ↔ 2 ≤ i.incomings.length := by
  unfold fixUnderfull
  split_ifs with h <;> simp <;> omega

theorem fixUnderfull_ne_change : i.fixUnderfull ≠ .change i' := by
  unfold fixUnderfull
  split_ifs <;> nofun

theorem fixIncomings_eq_keep_iff : i.fixIncomings n = .keep ↔
    ∀ g ∈ i.incomings, ∀ ref ∈ g.lanelets, n.resolves .lanelet ref = true := by
  refine Fix.ite_eq_keep_iff.trans ?_
  rw [Bool.not_eq_true', List.any_eq_false]
  refine forall₂_congr fun g _ => ?_
  rw [Bool.not_eq_true, Bool.not_eq_false', Network.dangling_isEmpty_iff]

/-- each group that is left is one from before, without the incoming lanelets that do not exist -/
theorem fixIncomings_change (h : i.fixIncomings n = .change i') :
    ∃ groups, i' = { i with incomings := groups } ∧
      ∀ g' ∈ groups, ∃ g ∈ i.incomings, g' = { g with lanelets := n.resolving .lanelet g.lanelets } := by
  obtain ⟨-, rfl⟩ := Fix.ite_eq_change_iff.1 h
  refine ⟨_, rfl, fun g' hg' => ?_⟩
  obtain ⟨g, hg, he⟩ := List.mem_filterMap.1 hg'
  refine ⟨g, hg, ?_⟩
  dsimp only at he
  split_ifs at he with hnone <;> cases he
  · rw [Bool.not_not, Network.dangling_isEmpty_iff] at hnone
    rw [Network.resolving_eq_self hnone]
  · rfl

theorem fixIncomings_ne_remove : i.fixIncomings n ≠ .remove := Fix.ite_ne_remove

theorem fixGroupSuccessors_eq_keep_iff : i.fixGroupSuccessors n = .keep ↔
    ∀ g ∈ i.incomings, ∀ ref ∈ g.successors, n.resolves .lanelet ref = true := by
  refine Fix.ite_eq_keep_iff.trans ?_
  simp only [List.all_eq_true]

theorem fixGroupSuccessors_change (h : i.fixGroupSuccessors n = .change i') :
    i' = { i with incomings := i.incomings.map fun g =>
      { g with
        left := n.resolving .lanelet g.left
        right := n.resolving .lanelet g.right
        straight := n.resolving .lanelet g.straight } } :=
  (Fix.ite_eq_change_iff.1 h).2

theorem fixGroupSuccessors_ne_remove : i.fixGroupSuccessors n ≠ .remove := Fix.ite_ne_remove

theorem fixConnections_eq_keep_iff : i.fixConnections n = .keep ↔ ∀ g ∈ i.incomings, g.successors ≠ [] := by
  refine Fix.ite_eq_keep_iff.trans ?_
  simp only [List.all_eq_true, Bool.not_eq_true', List.isEmpty_eq_false_iff]

/-- each group that is left is one from before, or such a one that led nowhere, with what follows it -/
theorem fixConnections_change (h : i.fixConnections n = .change i') :
    ∃ groups, i' = { i with incomings := groups } ∧ ∀ g' ∈ groups, g'.successors ≠ [] ∧
      ∃ g ∈ i.incomings, g' = g ∨ g' = { g with straight := n.followers g } := by
  obtain ⟨-, rfl⟩ := Fix.ite_eq_change_iff.1 h
  refine ⟨_, rfl, fun g' hg' => ?_⟩
  obtain ⟨g, hg, he⟩ := List.mem_filterMap.1 hg'
  split_ifs at he with hsome hnone <;> cases he
  · exact ⟨by simpa using hsome, _, hg, Or.inl rfl⟩
  · refine ⟨fun hnil => ?_, g, hg, Or.inr rfl⟩
    simp only [IncomingGroup.successors, List.append_eq_nil_iff] at hnil
    exact hnone (List.isEmpty_iff.2 hnil.2)

theorem fixConnections_ne_remove : i.fixConnections n ≠ .remove := Fix.ite_ne_remove

theorem fixCrossings_eq_keep_iff : i.fixCrossings n = .keep ↔
    ∀ ref ∈ i.crossings, n.resolves .lanelet ref = true :=
  Fix.ite_eq_keep_iff.trans Network.dangling_isEmpty_iff

theorem fixCrossings_change (h : i.fixCrossings n = .change i') :
    i' = { i with crossings := n.resolving .lanelet i.crossings } :=
  (Fix.ite_eq_change_iff.1 h).2

theorem fixCrossings_ne_remove : i.fixCrossings n ≠ .remove := Fix.ite_ne_remove

end Intersection

end RoadRules
