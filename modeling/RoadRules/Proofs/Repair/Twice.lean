/-
Repairs made twice.

After a run of the repairs of one rule all its locations are settled, so a second run finds nothing to do. Repairs by
decision settle what they decide about; here are the others, and all of them together.

- `settles_connections`, `settles_bothWays`: links that are completed, and links that are broken.
- `settles_references`: signs and lights that are attached or go.
- `settles_shared`: elements that share an id come to fresh ones, until there are none left. Then no repair of such a
  rule does anything.
- `repairAll_twice`: the rules together, but for those about loops in borders, of which a repair cuts one at a time.
-/
import RoadRules.Proofs.Repair.Settling

namespace RoadRules

/-! ## Links -/

namespace Network

variable {there back : Lanelet → IdSet} {id : ElementId} {a b : Network}

/-- are all links of the lanelets with an id answered? -/
def Answered (there back : Lanelet → IdSet) (id : ElementId) (n : Network) : Prop :=
  ∀ l ∈ n.lanelets.values, l.id = id → ∀ k ∈ n.lanelets.values, k.id ∈ there l → id ∈ back k

/-- what is answered stays so when lanelets come to note more on the other side -/
theorem Answers.answered (h : Answers there back a b) (ha : Answered there back id a) : Answered there back id b := by
  intro l' hl' hid k' hk' hlinked
  obtain ⟨i, hl'⟩ := Store.mem_values.1 hl'
  obtain ⟨j, hk'⟩ := Store.mem_values.1 hk'
  obtain ⟨l, hl, hsame, -⟩ := h.lanelet i l' hl'
  obtain ⟨k, hk, -, hgrown⟩ := h.lanelet j k' hk'
  have hlinked' : k.id ∈ there l := by
    rw [← h.id_eq hk hk']
    exact (hsame _).1 hlinked
  exact hgrown _ (ha l (Store.mem_values.2 ⟨i, hl⟩) ((h.id_eq hl hl').symm.trans hid) k
    (Store.mem_values.2 ⟨j, hk⟩) hlinked')

/-- do lanelets with the one id not have the other id both before and behind them? -/
def OneWay (id other : ElementId) (n : Network) : Prop :=
  ∀ l ∈ n.lanelets.values, l.id = id → ¬ (other ∈ l.predecessors ∧ other ∈ l.successors)

theorem Shrinks.oneWay (h : Shrinks a b) {other : ElementId} (ha : OneWay id other a) : OneWay id other b := by
  intro l' hl' hid hboth
  obtain ⟨i, hl'⟩ := Store.mem_values.1 hl'
  obtain ⟨l, hl, hpred, hsucc⟩ := h.lanelet i l' hl'
  have hids := h.ids ⟨.lanelet, i⟩
  rw [idOf?_of_lanelet hl, idOf?_of_lanelet hl', Option.some.injEq] at hids
  exact ha l (Store.mem_values.2 ⟨i, hl⟩) (hids.symm.trans hid) ⟨hpred _ hboth.1, hsucc _ hboth.2⟩

end Network

namespace RuleId

open Network

theorem settles_unanswered {r : RuleId} (there back : Lanelet → IdSet)
    {edit : ElementId → Network → Nat → Nat → Edited} (hedit : ∀ id, AnswersLink there back (edit id) id)
    (hidle : ∀ id (n : Network) key other, (∀ k, n.lanelets.get? other = some k → id ∈ back k) →
      edit id n key other = .unchanged n)
    (hrepair : ∀ (m : RoadMap) id rest, r.repairAt m id rest = m.edited (m.network.complete there (edit id) id)) :
    r.SettlesAlways := by
  refine ⟨fun id _ m => Answered there back id m.network, fun _ _ _ _ => trivial, fun m id rest _ => ?_,
    fun m id rest id' rest' _ hdone => ?_, fun m id rest hdone => ?_⟩
  · rw [hrepair]
    obtain ⟨hanswers, hsettled⟩ := complete_answers (hedit id) m.network
    intro l hl hid k hk hlinked
    obtain ⟨i, hl⟩ := Store.mem_values.1 hl
    obtain ⟨j, hk⟩ := Store.mem_values.1 hk
    have hborne : m.network.idOf? ⟨.lanelet, i⟩ = some id :=
      (hanswers.ids _).symm.trans ((idOf?_of_lanelet hl).trans (congrArg some hid))
    exact hsettled i (bears_iff.2 hborne) l hl j k hk hlinked
  · rw [hrepair]
    exact (complete_answers (hedit id) m.network).1.answered hdone
  · rw [hrepair, RoadMap.edited_eq_self_iff]
    exact complete_unchanged there back (hidle id m.network) hdone

theorem settles_connections {r : RuleId} (hr : r ∈ [connectionsPredecessor, connectionsSuccessor]) :
    r.SettlesAlways := by
  fin_cases hr
  · exact settles_unanswered (·.predecessors) (·.successors) answersLink_completeForth
      (fun _ _ _ _ => completeForth_unchanged) repairAt_connectionsPredecessor
  · exact settles_unanswered (·.successors) (·.predecessors) answersLink_completeBack
      (fun _ _ _ _ => completeBack_unchanged) repairAt_connectionsSuccessor

theorem settles_bothWays : nonPredecessorAsSuccessor.SettlesAlways := by
  refine ⟨fun id rest m => ∀ other ∈ rest.head?, OneWay id other m.network, fun _ _ _ _ => trivial,
    fun m id rest _ => ?_, fun m id rest id' rest' _ hdone other' hother' => ?_, fun m id rest hdone => ?_⟩
  · intro other hother
    obtain ⟨rest, rfl⟩ := List.head?_eq_some_iff.1 hother
    obtain ⟨hshrinks, hsettled⟩ := breakTwoWayLinks_settles m.network id other
    intro l hl hid
    obtain ⟨i, hl⟩ := Store.mem_values.1 hl
    have hborne : m.network.idOf? ⟨.lanelet, i⟩ = some id :=
      (hshrinks.ids _).symm.trans ((idOf?_of_lanelet hl).trans (congrArg some hid))
    exact hsettled i (bears_iff.2 hborne) l hl
  · cases rest with
    | nil => exact hdone other' hother'
    | cons other rest => exact (breakTwoWayLinks_settles m.network id other).1.oneWay (hdone other' hother')
  · cases rest with
    | nil => rfl
    | cons other rest => exact RoadMap.edited_eq_self_iff.2 (breakTwoWayLinks_unchanged (hdone other rfl))

/-! ## References back -/

theorem settles_unreferenced {r : RuleId} {kind : Kind} (hkind : kind ≠ .lanelet) {noted : ElementId → Lanelet → Bool}
    {note : ElementId → Lanelet → Lanelet}
    (hrepair : ∀ (m : RoadMap) id rest, r.repairAt m id rest =
      m.edited (m.network.attach kind (noted id) (note id) id))
    (hnote : ∀ id, Lanelet.RefersAlso kind id (note id)) : r.SettlesAlways := by
  have hattach (n : Network) (id : ElementId) := attach_settles (noted id) hkind (hnote id) n
  refine ⟨fun id _ m => ∀ key, Attached kind id key m.network, fun _ _ _ _ => trivial, fun m id rest _ key => ?_,
    fun m id rest id' rest' _ hdone key => ?_, fun m id rest hdone => ?_⟩
  · rw [hrepair]
    obtain ⟨hkeeps, hsettled⟩ := hattach m.network id
    intro hkey
    exact hsettled key (mem_keysWithId.2 (hkeeps.kept hkey)) hkey
  · rw [hrepair]
    exact (hattach m.network id).1.attached (hdone key)
  · rw [hrepair, RoadMap.edited_eq_self_iff]
    by_cases hsome : ∃ l ∈ m.network.lanelets.values, id ∈ (Element.lanelet l).refs kind
    · exact attach_unchanged hsome
    · -- without a lanelet that refers to the id no element bears it
      have hnone : m.network.keysWithId kind id = [] := List.eq_nil_iff_forall_not_mem.2 fun key hkey => by
        obtain ⟨y, l, hl, href⟩ := hdone key (mem_keysWithId.1 hkey)
        obtain ⟨k, -, hk⟩ := element?_eq_lanelet.1 hl
        exact hsome ⟨l, Store.mem_values.2 ⟨k, hk⟩, href⟩
      unfold attach
      rw [hnone]
      split_ifs <;> rfl

theorem settles_references {r : RuleId} (hr : r ∈ [referencedTrafficSign, referencedTrafficLight]) :
    r.SettlesAlways := by
  fin_cases hr
  · exact settles_unreferenced (by decide) repairAt_referencedTrafficSign
      fun id => (Lanelet.notes_trafficSign id).refersAlso
  · exact settles_unreferenced (by decide) repairAt_referencedTrafficLight
      fun id => (Lanelet.notes_trafficLight id).refersAlso

end RuleId

/-! ## Shared ids -/

namespace RoadMap

open Network

variable {m : RoadMap}

/-- without a fresh id nothing comes to one -/
theorem reassignAll_of_exhausted (h : m.freshId? = none) (hs : List Handle) : m.reassignAll hs = (m, false) := by
  induction hs with
  | nil => rfl
  | cons x hs ih =>
    have hnone : m.reassignId? x = none := by
      simp [reassignId?, h]
    rw [reassignAll, hnone]
    exact ih

/-- **One draw.** An element comes to an id that no other one bears, unless there is none. -/
theorem reassignId?_spec (hm : m.Counted) {x : Handle} {old : ElementId} (hx : m.network.idOf? x = some old) :
    m.freshId? = none ∨ ∃ fresh m', m.reassignId? x = some (fresh, m') ∧ m'.Counted ∧
      m'.network = m.network.setId x fresh ∧ ∀ z, m.network.idOf? z ≠ some fresh := by
  cases hdraw : m.freshId? with
  | none => exact Or.inl rfl
  | some d =>
    obtain ⟨fresh, m'⟩ := d
    obtain ⟨hnetwork, hmark, hfresh, hnew⟩ := freshId?_spec hm hdraw
    refine Or.inr ⟨fresh, ⟨m'.network.setId x fresh, m'.ids⟩, by simp [reassignId?, Network.contains, hx, hdraw],
      fun z i hz => ?_, ?_, hnew⟩
    · dsimp only at hz ⊢
      rw [hnetwork, idOf?_setId hx] at hz
      split_ifs at hz
      · cases hz
        exact hfresh
      · exact Nat.lt_of_lt_of_le (hm z i hz) hmark
    · rw [hnetwork]

/-- **All draws.** No ids are shared that were not, and either the ids run out or the elements that draw share none. -/
theorem reassignAll_settles (hs : List Handle) (hnodup : hs.Nodup) (hm : m.Counted)
    (hborne : ∀ x ∈ hs, ∃ id, m.network.idOf? x = some id) : (m.reassignAll hs).1.Counted ∧
      Separates [] m.network (m.reassignAll hs).1.network ∧
      ((m.reassignAll hs).1.freshId? = none ∨ Separates hs m.network (m.reassignAll hs).1.network) := by
  induction hs generalizing m with
  | nil => exact ⟨hm, .refl _, Or.inr (.refl _)⟩
  | cons x hs ih =>
    obtain ⟨hxs, hnodup⟩ := List.nodup_cons.1 hnodup
    obtain ⟨old, hx⟩ := hborne x List.mem_cons_self
    rcases reassignId?_spec hm hx with hnone | ⟨fresh, m', hreassign, hcounted, hnetwork, hnew⟩
    · rw [reassignAll_of_exhausted hnone]
      exact ⟨hm, .refl _, Or.inl hnone⟩
    · have hborne' : ∀ y ∈ hs, ∃ id, m'.network.idOf? y = some id := by
        intro y hy
        have hyx : y ≠ x := fun heq => hxs (heq ▸ hy)
        obtain ⟨id, hid⟩ := hborne y (List.mem_cons_of_mem _ hy)
        exact ⟨id, by rw [hnetwork, idOf?_setId hx, if_neg hyx, hid]⟩
      obtain ⟨hcounted, hshared, hdrawn⟩ := ih hnodup hcounted hborne'
      have hfirst : Separates [x] m.network m'.network := by
        rw [hnetwork]
        exact .setId hx hnew
      simp only [reassignAll, hreassign]
      refine ⟨hcounted, fun y z id hne hy hz => ?_, hdrawn.imp_right fun hrest => hfirst.cons hrest⟩
      obtain ⟨hy, hz, -, -⟩ := hshared y z id hne hy hz
      obtain ⟨hy, hz, -, -⟩ := hfirst y z id hne hy hz
      exact ⟨hy, hz, List.not_mem_nil, List.not_mem_nil⟩

/-- is the id one that no two elements share, or is there no fresh one left? -/
def Separated (id : ElementId) (m : RoadMap) : Prop :=
  m.freshId? = none ∨ ∀ x y, m.network.idOf? x = some id → m.network.idOf? y = some id → x = y

/-- **Separating.** The id is separated afterwards, and no ids are shared that were not. -/
theorem separateIds_settles (hm : m.Counted) (id : ElementId) : (m.separateIds id).1.Counted ∧
    Separates [] m.network (m.separateIds id).1.network ∧ (m.separateIds id).1.Separated id := by
  obtain ⟨hcounted, hshared, hdrawn⟩ := reassignAll_settles (m.network.handlesWithId id).tail
    (nodup_handlesWithId m.network id).tail hm fun x hx => ⟨id, mem_handlesWithId.1 (List.mem_of_mem_tail hx)⟩
  refine ⟨hcounted, hshared, hdrawn.imp_right fun hseparates x y hx hy => ?_⟩
  by_contra hne
  obtain ⟨hx, hy, hxs, hys⟩ := hseparates x y id hne hx hy
  exact hne (eq_of_not_mem_tail hx hy hxs hys)

end RoadMap

namespace RuleId

open RoadMap Network

theorem settles_shared {r : RuleId} (hrepair : ∀ (m : RoadMap) id rest, r.repairAt m id rest = m.separateIds id) :
    r.Settles RoadMap.Counted fun id _ m => m.Separated id := by
  refine ⟨fun m id rest hm => ?_, fun m id rest hm => ?_, fun m id rest id' rest' hm hdone => ?_,
    fun m id rest hdone => ?_⟩
  · rw [hrepair]
    exact (separateIds_settles hm id).1
  · rw [hrepair]
    exact (separateIds_settles hm id).2.2
  · rw [hrepair]
    rcases hdone with hnone | halone
    · rw [separateIds, reassignAll_of_exhausted hnone]
      exact Or.inl hnone
    · refine Or.inr fun x y hx hy => ?_
      by_contra hne
      obtain ⟨hx, hy, -, -⟩ := (separateIds_settles hm id).2.1 x y id' hne hx hy
      exact hne (halone x y hx hy)
  · rw [hrepair, separateIds]
    rcases hdone with hnone | halone
    · exact reassignAll_of_exhausted hnone _
    · rw [tail_handlesWithId halone]
      rfl

/-! ## The rules -/

/-- every rule settles something, but for those about loops in borders -/
theorem exists_settles {r : RuleId} (hleft : r ≠ leftSelfIntersection) (hright : r ≠ rightSelfIntersection) :
    ∃ Inv Done, r.Settles Inv Done ∧ ∀ m : RoadMap, m.Counted → Inv m := by
  have always {r : RuleId} (h : r.SettlesAlways) :
      ∃ Inv Done, r.Settles Inv Done ∧ ∀ m : RoadMap, m.Counted → Inv m := by
    obtain ⟨Done, hsettles⟩ := h
    exact ⟨_, Done, hsettles, fun _ _ => trivial⟩
  cases r
  case leftSelfIntersection => exact absurd rfl hleft
  case rightSelfIntersection => exact absurd rfl hright
  case uniqueIdLa | uniqueIdTs | uniqueIdTl | uniqueIdIn =>
    exact ⟨_, _, settles_shared fun _ _ _ => rfl, fun _ hm => hm⟩
  case sameVerticesSize | verticesMoreThanOne | polylinesSameDirection => exact always (settles_border (by decide))
  case existenceLeftAdj | existenceRightAdj => exact always (settles_adjacent (by decide))
  case existencePredecessor | existenceSuccessor | existenceTrafficSigns | existenceTrafficLights =>
    exact always (settles_links (by decide))
  case connectionsPredecessor | connectionsSuccessor => exact always (settles_connections (by decide))
  case nonPredecessorAsSuccessor => exact always settles_bothWays
  case existenceStopLineTrafficSigns | existenceStopLineTrafficLights | includedStopLineTrafficSigns =>
    exact always (settles_stopLine (by decide))
  case atLeastOneTrafficSignElement | givenAdditionalValue | validAdditionalValueSpeedSign =>
    exact always (settles_plates (by decide))
  case referencedTrafficSign | referencedTrafficLight => exact always (settles_references (by decide))
  case atLeastOneCycleElement | nonZeroDuration | uniqueStateInCycle => exact always (settles_phases (by decide))
  case atLeastTwoIncomingElements | existenceIncomingLanelets | existenceSuccessorLanelets
    | atLeastOneRoadConnection | existenceCrossings => exact always (settles_groups (by decide))

end RuleId

/-- **Repairs made twice.** After a run of the repairs of one rule over any list of locations, a second run over the
same list finds nothing to do: it says so for every location and leaves the map as it is. The rules about loops in
borders are left out, since their repair cuts one loop at a time. -/
theorem RoadMap.repairAll_twice (m : RoadMap) (hm : m.Counted) {r : RuleId} (hleft : r ≠ .leftSelfIntersection)
    (hright : r ≠ .rightSelfIntersection) (locations : List Location) :
    (m.repairAll ⟨[(r, locations)]⟩).1.repairAll ⟨[(r, locations)]⟩ =
      ((m.repairAll ⟨[(r, locations)]⟩).1, ⟨locations.map fun _ => (r, false)⟩) := by
  obtain ⟨Inv, Done, hsettles, hinv⟩ := RuleId.exists_settles hleft hright
  have hlist : (⟨[(r, locations)]⟩ : Violations).toList = locations.map (Violation.mk r) := by
    simp [Violations.toList]
  have hdone : ∀ l ∈ locations, RuleId.Settles.At Done (m.repairEach (locations.map (Violation.mk r))).1 l :=
    fun l hl => hsettles.repairEach locations m (hinv m hm) l (Or.inl hl)
  simp only [repairAll, hlist, hsettles.repairEach_idle locations _ hdone]

/-- two lanelets with one id -/
def RoadMap.twins : RoadMap := RoadMap.ofDocument { lanelets := [{ id := 5 }, { id := 5 }] }

/-- one of the two comes to an id of its own in the first run, and the second run has nothing left to do -/
theorem RoadMap.repairAll_twice_twins : twins.Counted ∧ RuleId.uniqueIdLa ≠ .leftSelfIntersection ∧
    RuleId.uniqueIdLa ≠ .rightSelfIntersection ∧ ∃ m report,
      twins.repairAll ⟨[(.uniqueIdLa, [[5], [9], [5], []])]⟩ = (m, report) ∧
      report.outcomes.map (·.2) = [true, false, false, false] ∧ m.network.lanelets.values.map (·.id) = [5, 6] ∧
      m.repairAll ⟨[(.uniqueIdLa, [[5], [9], [5], []])]⟩ = (m, ⟨List.replicate 4 (.uniqueIdLa, false)⟩) :=
  have hm : twins.Counted := counted_ofDocument _
  have hleft : RuleId.uniqueIdLa ≠ .leftSelfIntersection := by decide
  have hright : RuleId.uniqueIdLa ≠ .rightSelfIntersection := by decide
  ⟨hm, hleft, hright, _, _, rfl, by decide +kernel, by decide +kernel,
    repairAll_twice twins hm hleft hright [[5], [9], [5], []]⟩

end RoadRules
