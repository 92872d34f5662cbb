/-
Links that both lanelets note, and none in both directions.

- `cured_unanswered`: a link that one lanelet notes is completed at every lanelet with the id of the other one.
  Completing adds to what the other lanelets note and to nothing else (`Answers`), so what is answered stays answered.
- `cured_bothWays`: a lanelet that has another one both before and behind it forgets the one before. Links only go
  (`Shrinks`), so no link in both directions comes up.

Lanelets that share an id, and lanelets that are linked to themselves, are no exceptions.
-/
import RoadRules.Proofs.Repair.Cure

namespace RoadRules

namespace Network

variable {n a b c : Network} {there back : Lanelet → IdSet} {id other : ElementId} {key k : Nat}

theorem idOf?_of_lanelet {l : Lanelet} (hl : n.lanelets.get? key = some l) : n.idOf? ⟨.lanelet, key⟩ = some l.id := by
  rw [idOf?_lanelet, hl]
  rfl

theorem lanelet_of_idOf? (hid : n.idOf? ⟨.lanelet, key⟩ = some id) : ∃ l, n.lanelets.get? key = some l ∧ l.id = id :=
  Option.map_eq_some_iff.1 hid

theorem bears_iff : key ∈ n.laneletsWithId id ↔ n.idOf? ⟨.lanelet, key⟩ = some id := by
  change key ∈ n.keysWithId .lanelet id ↔ _
  exact mem_keysWithId

/-! ## Completed links -/

/-- All ids are the same, and all that lanelets note on one side; on the other side they may note more. -/
structure Answers (there back : Lanelet → IdSet) (a b : Network) : Prop where
  ids : ∀ x, b.idOf? x = a.idOf? x
  lanelet : ∀ k l', b.lanelets.get? k = some l' → ∃ l, a.lanelets.get? k = some l ∧
    (∀ o, o ∈ there l' ↔ o ∈ there l) ∧ ∀ o ∈ back l, o ∈ back l'

namespace Answers

theorem refl (a : Network) : Answers there back a a :=
  ⟨fun _ => rfl, fun _ l hl => ⟨l, hl, fun _ => Iff.rfl, fun _ ho => ho⟩⟩

theorem trans (h : Answers there back a b) (h' : Answers there back b c) : Answers there back a c where
  ids x := (h'.ids x).trans (h.ids x)
  lanelet k l'' hl'' := by
    obtain ⟨l', hl', hthere', hback'⟩ := h'.lanelet k l'' hl''
    obtain ⟨l, hl, hthere, hback⟩ := h.lanelet k l' hl'
    exact ⟨l, hl, fun o => (hthere' o).trans (hthere o), fun o ho => hback' o (hback o ho)⟩

/-- lanelets keep their ids -/
theorem id_eq (h : Answers there back a b) {l l' : Lanelet} (hl : a.lanelets.get? k = some l)
    (hl' : b.lanelets.get? k = some l') : l'.id = l.id := by
  have hid := h.ids ⟨.lanelet, k⟩
  rw [idOf?_of_lanelet hl, idOf?_of_lanelet hl'] at hid
  exact Option.some.inj hid

/-- an id that the lanelet under a key notes stays noted -/
theorem noted (h : Answers there back a b) {o : ElementId} (ho : ∀ l, a.lanelets.get? k = some l → o ∈ back l)
    (l' : Lanelet) (hl' : b.lanelets.get? k = some l') : o ∈ back l' := by
  obtain ⟨l, hl, -, hback⟩ := h.lanelet k l' hl'
  exact hback o (ho l hl)

end Answers

/-- Makes an edit answer a link: the lanelet `other` notes the id of the lanelet `key`, if that one notes the id of the
lanelet `other`. -/
def AnswersLink (there back : Lanelet → IdSet) (edit : Network → Nat → Nat → Edited) (id : ElementId) : Prop :=
  ∀ (b : Network) (key other : Nat) (l k : Lanelet), b.lanelets.get? key = some l → l.id = id →
    b.lanelets.get? other = some k → k.id ∈ there l → Answers there back b (edit b key other).network ∧
      ∀ k', (edit b key other).network.lanelets.get? other = some k' → id ∈ back k'

/-- The lanelet `key` notes again what it notes already, and the lanelet `other` notes the id of the lanelet `key`. -/
theorem Answers.of_noted {l : Lanelet} {o : ElementId} {other : Nat} (hids : ∀ x, c.idOf? x = b.idOf? x)
    (hget : ∀ j m', c.lanelets.get? j = some m' → ∃ m, b.lanelets.get? j = some m ∧
      there m' = (if j = key then (there m).insert o else there m) ∧
      back m' = if j = other then (back m).insert l.id else back m)
    (hl : b.lanelets.get? key = some l) (ho : o ∈ there l) :
    Answers there back b c ∧ ∀ k', c.lanelets.get? other = some k' → l.id ∈ back k' := by
  refine ⟨⟨hids, fun j m' hm' => ?_⟩, fun k' hk' => ?_⟩
  · obtain ⟨m, hm, hthere, hback⟩ := hget j m' hm'
    refine ⟨m, hm, fun q => ?_, fun q hq => ?_⟩
    · rw [hthere]
      split_ifs with hj
      · subst hj
        cases hl.symm.trans hm
        rw [SortedSet.mem_insert, or_iff_right_of_imp]
        rintro rfl
        exact ho
      · exact Iff.rfl
    · rw [hback]
      split_ifs
      · exact SortedSet.mem_insert.2 (Or.inr hq)
      · exact hq
  · obtain ⟨m, -, -, hback⟩ := hget other k' hk'
    rw [hback, if_pos rfl]
    exact SortedSet.mem_insert.2 (Or.inl rfl)

theorem answersLink_completeForth (id : ElementId) :
    AnswersLink (·.predecessors) (·.successors) (completeForth id) id := by
  intro b key other l k hl hid hk hthere
  unfold completeForth
  rw [hk]
  split_ifs with hmissing
  · refine hid ▸ Answers.of_noted (b.idOf?_link other key) (fun j m' hm' => ?_) hl hthere
    rw [get?_link hk hl] at hm'
    obtain ⟨m, hm, rfl⟩ := Option.map_eq_some_iff.1 hm'
    exact ⟨m, hm, rfl, rfl⟩
  · refine ⟨.refl b, fun k' hk' => ?_⟩
    cases hk.symm.trans hk'
    simpa using hmissing

theorem answersLink_completeBack (id : ElementId) :
    AnswersLink (·.successors) (·.predecessors) (completeBack id) id := by
  intro b key other l k hl hid hk hthere
  unfold completeBack
  rw [hk]
  split_ifs with hmissing
  · refine hid ▸ Answers.of_noted (b.idOf?_link key other) (fun j m' hm' => ?_) hl hthere
    rw [get?_link hl hk] at hm'
    obtain ⟨m, hm, rfl⟩ := Option.map_eq_some_iff.1 hm'
    exact ⟨m, hm, rfl, rfl⟩
  · refine ⟨.refl b, fun k' hk' => ?_⟩
    cases hk.symm.trans hk'
    simpa using hmissing

/-- All links of one lanelet with the id are answered after an edit for each lanelet that it notes. -/
theorem answers_noted {edit : Network → Nat → Nat → Edited} (hedit : AnswersLink there back edit id) {l : Lanelet}
    (hl : a.lanelets.get? key = some l) (hid : l.id = id) (others : List Nat)
    (hothers : ∀ other ∈ others, ∃ k, a.lanelets.get? other = some k ∧ k.id ∈ there l) :
    Answers there back a (a.editEach others fun c other => edit c key other).network ∧
      ∀ other ∈ others, ∀ k, (a.editEach others fun c other => edit c key other).network.lanelets.get? other = some k →
        id ∈ back k := by
  refine editEach_settles (P := Answers there back a)
    (Q := fun other c => ∀ k, c.lanelets.get? other = some k → id ∈ back k) others (.refl a)
    fun c hc other hother => ?_
  obtain ⟨k, hk, hthere⟩ := hothers other hother
  obtain ⟨k', hk', hkid⟩ := lanelet_of_idOf? ((hc.ids _).trans (idOf?_of_lanelet hk))
  obtain ⟨l', hl', hlid⟩ := lanelet_of_idOf? ((hc.ids _).trans (idOf?_of_lanelet hl))
  have hlinked : k'.id ∈ there l' := by
    obtain ⟨l₀, hl₀, hsame, -⟩ := hc.lanelet key l' hl'
    cases hl.symm.trans hl₀
    exact hkid ▸ (hsame k.id).2 hthere
  obtain ⟨hstep, hsettled⟩ := hedit c key other l' k' hl' (hlid.trans hid) hk' hlinked
  exact ⟨hc.trans hstep, hsettled, fun j hj => hstep.noted hj⟩

/-- **Completing.** All links of the lanelets with an id are answered afterwards. -/
theorem complete_answers {edit : Network → Nat → Nat → Edited} (hedit : AnswersLink there back edit id) (n : Network) :
    Answers there back n (n.complete there edit id).network ∧ ∀ key ∈ n.laneletsWithId id, ∀ l,
      (n.complete there edit id).network.lanelets.get? key = some l → ∀ other k,
        (n.complete there edit id).network.lanelets.get? other = some k → k.id ∈ there l → id ∈ back k := by
  refine editEach_settles (P := Answers there back n)
    (Q := fun key b => ∀ l, b.lanelets.get? key = some l → ∀ other k, b.lanelets.get? other = some k →
      k.id ∈ there l → id ∈ back k) (n.laneletsWithId id) (.refl n) fun a ha key hkey => ?_
  obtain ⟨l, hl, hid⟩ := lanelet_of_idOf? ((ha.ids _).trans (bears_iff.1 hkey))
  rw [hl, Option.map_some, Option.getD_some]
  obtain ⟨hanswers, hnoted⟩ := answers_noted hedit hl hid ((there l).toList.flatMap a.laneletsWithId)
    fun other hother => by
      obtain ⟨o, ho, hother⟩ := List.mem_flatMap.1 hother
      obtain ⟨k, hk, hko⟩ := lanelet_of_idOf? (bears_iff.1 hother)
      exact ⟨k, hk, hko ▸ ho⟩
  refine ⟨ha.trans hanswers, fun l' hl' other k hk hlinked => ?_, fun j hj l' hl' other k hk hlinked => ?_⟩
  · -- the other lanelet was among those that the edits went through
    obtain ⟨l₀, hl₀, hthere, -⟩ := hanswers.lanelet key l' hl'
    cases hl.symm.trans hl₀
    refine hnoted other (List.mem_flatMap.2 ⟨k.id, (hthere _).1 hlinked, bears_iff.2 ?_⟩) k hk
    exact (hanswers.ids _).symm.trans (idOf?_of_lanelet hk)
  · obtain ⟨l₀, hl₀, hthere, -⟩ := hanswers.lanelet j l' hl'
    obtain ⟨k₀, hk₀, -, hback⟩ := hanswers.lanelet other k hk
    refine hback _ (hj l₀ hl₀ other k₀ hk₀ ?_)
    rw [← hanswers.id_eq hk₀ hk]
    exact (hthere _).1 hlinked

/-! ## Links that go -/

/-- All ids are the same, and lanelets have no links that they did not have. -/
structure Shrinks (a b : Network) : Prop where
  ids : ∀ x, b.idOf? x = a.idOf? x
  lanelet : ∀ k l', b.lanelets.get? k = some l' → ∃ l, a.lanelets.get? k = some l ∧
    (∀ o ∈ l'.predecessors, o ∈ l.predecessors) ∧ ∀ o ∈ l'.successors, o ∈ l.successors

namespace Shrinks

theorem refl (a : Network) : Shrinks a a := ⟨fun _ => rfl, fun _ l hl => ⟨l, hl, fun _ ho => ho, fun _ ho => ho⟩⟩

theorem trans (h : Shrinks a b) (h' : Shrinks b c) : Shrinks a c where
  ids x := (h'.ids x).trans (h.ids x)
  lanelet k l'' hl'' := by
    obtain ⟨l', hl', hpred', hsucc'⟩ := h'.lanelet k l'' hl''
    obtain ⟨l, hl, hpred, hsucc⟩ := h.lanelet k l' hl'
    exact ⟨l, hl, fun o ho => hpred o (hpred' o ho), fun o ho => hsucc o (hsucc' o ho)⟩

theorem unlink (n : Network) (pred succ : Nat) : Shrinks n (n.unlink pred succ) := by
  cases hp : n.lanelets.get? pred with
  | none =>
    simp only [Network.unlink, hp]
    exact .refl n
  | some p =>
    cases hs : n.lanelets.get? succ with
    | none =>
      simp only [Network.unlink, hp, hs]
      exact .refl n
    | some s =>
      refine ⟨n.idOf?_unlink pred succ, fun k l' hl' => ?_⟩
      rw [get?_unlink hp hs] at hl'
      obtain ⟨l, hl, rfl⟩ := Option.map_eq_some_iff.1 hl'
      refine ⟨l, hl, fun o ho => ?_, fun o ho => ?_⟩
      · dsimp only at ho
        split_ifs at ho
        · exact (SortedSet.mem_erase.1 ho).1
        · exact ho
      · dsimp only at ho
        split_ifs at ho
        · exact (SortedSet.mem_erase.1 ho).1
        · exact ho

theorem forgetPredecessor (n : Network) (key : Nat) (id : ElementId) :
    Shrinks n (n.forgetPredecessor key id).network ∧
      ∀ l, (n.forgetPredecessor key id).network.lanelets.get? key = some l → ¬ id ∈ l.predecessors := by
  refine ⟨⟨n.idOf?_modifyLanelet key fun _ => rfl, fun k l' hl' => ?_⟩, fun l' hl' => ?_⟩
  · simp only [Network.forgetPredecessor, Store.get?_modify] at hl'
    split_ifs at hl'
    · obtain ⟨l, hl, rfl⟩ := Option.map_eq_some_iff.1 hl'
      exact ⟨l, hl, fun o ho => (SortedSet.mem_erase.1 ho).1, fun o ho => ho⟩
    · exact ⟨l', hl', fun o ho => ho, fun o ho => ho⟩
  · simp only [Network.forgetPredecessor, Store.get?_modify, if_true] at hl'
    obtain ⟨l, -, rfl⟩ := Option.map_eq_some_iff.1 hl'
    exact fun hmem => (SortedSet.mem_erase.1 hmem).2 rfl

end Shrinks

/-- **Breaking.** No lanelet with the id has the other id both before and behind it afterwards. -/
theorem breakTwoWayLinks_settles (n : Network) (id other : ElementId) :
    Shrinks n (n.breakTwoWayLinks id other).network ∧ ∀ key ∈ n.laneletsWithId id, ∀ l,
      (n.breakTwoWayLinks id other).network.lanelets.get? key = some l →
        ¬ (other ∈ l.predecessors ∧ other ∈ l.successors) := by
  refine editEach_settles (P := Shrinks n)
    (Q := fun key b => ∀ l, b.lanelets.get? key = some l → ¬ (other ∈ l.predecessors ∧ other ∈ l.successors))
    (n.laneletsWithId id) (.refl n) fun a ha key _ => ?_
  have settled {b : Network} (hb : Shrinks a b) (j : Nat)
      (hj : ∀ l, a.lanelets.get? j = some l → ¬ (other ∈ l.predecessors ∧ other ∈ l.successors)) :
      ∀ l, b.lanelets.get? j = some l → ¬ (other ∈ l.predecessors ∧ other ∈ l.successors) := by
    intro l' hl' hboth
    obtain ⟨l, hl, hpred, hsucc⟩ := hb.lanelet j l' hl'
    exact hj l hl ⟨hpred _ hboth.1, hsucc _ hboth.2⟩
  split_ifs with hboth
  · have hunlinked : Shrinks a (a.editEach (a.laneletsWithId other) fun n back =>
        ⟨n.unlink back key, n.canUnlink back key⟩).network :=
      editEach_induction (P := Shrinks a) _ (.refl a) fun b hb back _ => hb.trans (.unlink b back key)
    obtain ⟨hforget, hforgotten⟩ := Shrinks.forgetPredecessor (a.editEach (a.laneletsWithId other) fun n back =>
      ⟨n.unlink back key, n.canUnlink back key⟩).network key other
    have hstep := hunlinked.trans hforget
    exact ⟨ha.trans hstep, fun l hl hboth => hforgotten l hl hboth.1, fun j hj => settled hstep j hj⟩
  · refine ⟨ha, fun l hl hlinked => hboth ?_, fun j hj => hj⟩
    simp only [Edited.unchanged] at hl
    rw [hl]
    simpa using hlinked

end Network

/-! ## The rules -/

namespace RuleId

open Network

theorem cured_unanswered {r : RuleId} {there back : Lanelet → IdSet}
    {edit : ElementId → Network → Nat → Nat → Edited} (hedit : ∀ id, AnswersLink there back (edit id) id)
    (hrepair : ∀ (m : RoadMap) id rest, r.repairAt m id rest = m.edited (m.network.complete there (edit id) id))
    (hfault : r.fault = .unanswered there back) : r.Cured fun _ => True where
  inv _ _ _ _ := trivial
  violates m id rest location _ hviolates := by
    rw [hrepair] at hviolates
    obtain ⟨hanswers, hsettled⟩ := complete_answers (hedit id) m.network
    obtain ⟨b, hat, hloc⟩ := hviolates
    obtain ⟨x, l', rfl, hx, y, k', hy, hthere, hback⟩ := Fault.at_unanswered.1 (hfault ▸ hat)
    obtain ⟨i, rfl, hl'⟩ := element?_eq_lanelet.1 hx
    obtain ⟨j, rfl, hk'⟩ := element?_eq_lanelet.1 hy
    obtain ⟨l, hl, hsame, -⟩ := hanswers.lanelet i l' hl'
    obtain ⟨k, hk, -, hgrown⟩ := hanswers.lanelet j k' hk'
    have hlid := hanswers.id_eq hl hl'
    rw [List.filterMap_cons_some (idOf?_of_lanelet hl')] at hloc
    subst hloc
    refine ⟨⟨[⟨.lanelet, i⟩], ?_, ?_⟩, ?_⟩
    · rw [hfault]
      refine Fault.at_unanswered.2 ⟨_, l, rfl, element?_eq_lanelet.2 ⟨i, rfl, hl⟩, _, k,
        element?_eq_lanelet.2 ⟨j, rfl, hk⟩, ?_, fun hnoted => hback (hlid ▸ hgrown _ hnoted)⟩
      rw [← hanswers.id_eq hk hk']
      exact (hsame _).1 hthere
    · rw [List.filterMap_cons_some (idOf?_of_lanelet hl), hlid]
      rfl
    · intro heq
      obtain ⟨hid, -⟩ := List.cons.inj heq
      refine hback (hid ▸ hsettled i (bears_iff.2 ?_) l' hl' j k' hk' hthere)
      rw [idOf?_of_lanelet hl, ← hlid, hid]

theorem cured_connectionsPredecessor : connectionsPredecessor.Cured fun _ => True :=
  cured_unanswered answersLink_completeForth repairAt_connectionsPredecessor rfl

theorem cured_connectionsSuccessor : connectionsSuccessor.Cured fun _ => True :=
  cured_unanswered answersLink_completeBack repairAt_connectionsSuccessor rfl

theorem cured_bothWays : nonPredecessorAsSuccessor.Cured fun _ => True where
  inv _ _ _ _ := trivial
  violates m id rest location _ hviolates := by
    -- every location of the rule has two ids
    have pair {n : Network} {b : List Handle} (hat : Fault.bothWays.At n b) : ∃ i j l k,
        b = [⟨.lanelet, i⟩, ⟨.lanelet, j⟩] ∧ n.lanelets.get? i = some l ∧ n.lanelets.get? j = some k ∧
        b.filterMap n.idOf? = [l.id, k.id] ∧ k.id ∈ l.predecessors ∧ k.id ∈ l.successors := by
      obtain ⟨x, y, l, k, rfl, hx, hy, hboth⟩ := Fault.at_bothWays.1 hat
      obtain ⟨i, rfl, hl⟩ := element?_eq_lanelet.1 hx
      obtain ⟨j, rfl, hk⟩ := element?_eq_lanelet.1 hy
      refine ⟨i, j, l, k, rfl, hl, hk, ?_, hboth⟩
      rw [List.filterMap_cons_some (idOf?_of_lanelet hl), List.filterMap_cons_some (idOf?_of_lanelet hk)]
      rfl
    obtain ⟨b, hat, hloc⟩ := hviolates
    obtain ⟨i, j, l', k', rfl, hl', hk', hlocation, hpred, hsucc⟩ := pair hat
    cases hloc.symm.trans hlocation
    cases rest with
    | nil =>
      refine ⟨⟨_, hat, hlocation⟩, fun heq => ?_⟩
      cases (List.cons.inj heq).2
    | cons other rest =>
      obtain ⟨hshrinks, hsettled⟩ := breakTwoWayLinks_settles m.network id other
      change (m.network.breakTwoWayLinks id other).network.lanelets.get? i = some l' at hl'
      change (m.network.breakTwoWayLinks id other).network.lanelets.get? j = some k' at hk'
      obtain ⟨l, hl, hlpred, hlsucc⟩ := hshrinks.lanelet i l' hl'
      obtain ⟨k, hk, -, -⟩ := hshrinks.lanelet j k' hk'
      have hids := hshrinks.ids ⟨.lanelet, i⟩
      have hkids := hshrinks.ids ⟨.lanelet, j⟩
      rw [idOf?_of_lanelet hl, idOf?_of_lanelet hl', Option.some.injEq] at hids
      rw [idOf?_of_lanelet hk, idOf?_of_lanelet hk', Option.some.injEq] at hkids
      refine ⟨⟨[⟨.lanelet, i⟩, ⟨.lanelet, j⟩], ?_, ?_⟩, ?_⟩
      · refine Fault.at_bothWays.2 ⟨_, _, l, k, rfl, element?_eq_lanelet.2 ⟨i, rfl, hl⟩,
          element?_eq_lanelet.2 ⟨j, rfl, hk⟩, ?_, ?_⟩
        · rw [← hkids]
          exact hlpred _ hpred
        · rw [← hkids]
          exact hlsucc _ hsucc
      · rw [List.filterMap_cons_some (idOf?_of_lanelet hl), List.filterMap_cons_some (idOf?_of_lanelet hk), hids, hkids]
        rfl
      · intro heq
        obtain ⟨hid, htail⟩ := List.cons.inj heq
        obtain ⟨hother, -⟩ := List.cons.inj htail
        refine hsettled i (bears_iff.2 ?_) l' hl' (hother ▸ ⟨hpred, hsucc⟩)
        rw [idOf?_of_lanelet hl, ← hids, hid]

end RuleId

end RoadRules
