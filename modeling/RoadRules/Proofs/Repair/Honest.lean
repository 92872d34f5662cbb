/-
Repairs that tell the truth about what they did.

A repair says whether it changed anything. It says so just if an element is different afterwards, or gone.

- `Honest`: an edit that only rewrites elements, and leaves the network as it is unless it says that it changed
  something. Edits one after the other are honest if each of them is (`Honest.editEach`), and so are all forms of
  repairs (`honest_fixAll` to `honest_attach`).
- The converse is not a matter of single edits, as one might undo what another has done. A repair that settles its
  location finds nothing to do there afterwards, so if it had changed nothing it would have found nothing to do before.
- `Shortens`: a repair of a loop settles nothing, but makes a border shorter.
- `reassignAll_alters`: an element that comes to a fresh id is another one, even if it is not the only one.
- `repair_truthful`: all rules together, and the reports on runs of repairs.
-/
import RoadRules.Proofs.Repair.Twice
import RoadRules.Proofs.Repair.Unwinding

namespace RoadRules

/-! ## What is different -/

/-- a value that a change leaves alone -/
theorem Store.modify_eq_self {α : Type} {s : Store α} {key : Nat} {f : α → α}
    (h : ∀ v, s.get? key = some v → f v = v) : s.modify key f = s := by
  refine Store.ext_get? fun k => ?_
  rw [Store.get?_modify]
  split_ifs with hk
  · subst hk
    cases hv : s.get? k with
    | none => rfl
    | some v => rw [Option.map_some, h v hv]
  · rfl

namespace Network

variable {n a b c : Network}

/-- Is some element different in the other network, or gone? -/
def Alters (a b : Network) : Prop := ∃ x e, a.element? x = some e ∧ b.element? x ≠ some e

/-- Does a network come from another by some rewrite of its elements? -/
def Rewritten (a b : Network) : Prop := ∃ f, Rewrites f a b

theorem Rewritten.refl (a : Network) : Rewritten a a := ⟨_, .refl a⟩

theorem Rewritten.trans (h : Rewritten a b) (h' : Rewritten b c) : Rewritten a c := by
  obtain ⟨f, hf⟩ := h
  obtain ⟨g, hg⟩ := h'
  exact ⟨_, hf.trans hg⟩

/-- as nothing comes in, a network can only be another one by what has become of an element -/
theorem Rewritten.alters (h : Rewritten a b) (hne : b ≠ a) : a.Alters b := by
  obtain ⟨f, hf⟩ := h
  by_contra hsame
  refine hne (ext_element? (fun x => ?_) hf.external hf.nextKey)
  cases he : a.element? x with
  | none => rw [hf.element, he, Option.bind_none]
  | some e =>
    by_contra hx
    exact hsame ⟨x, e, he, hx⟩

/-! ## Honest edits -/

/-- what holds of every edit, of none, and of two one after the other, holds of any number of them -/
theorem editEach_of_each {ι : Type} {R : Network → Edited → Prop} {edit : Network → ι → Edited}
    (unchanged : ∀ a, R a (.unchanged a))
    (andThen : ∀ {a : Network} {e : Edited} {edit : Network → Edited}, R a e → R e.network (edit e.network) →
      R a (e.andThen edit))
    (each : ∀ a i, R a (edit a i)) (items : List ι) (n : Network) : R n (n.editEach items edit) := by
  induction items generalizing n with
  | nil => exact unchanged n
  | cons i items ih =>
    rw [editEach_cons]
    exact andThen (each n i) (ih _)

/-- an edit that rewrites elements, and none of them unless it says so -/
structure Honest (n : Network) (e : Edited) : Prop where
  rewritten : Rewritten n e.network
  idle : e.changed = false → e.network = n

namespace Honest

theorem unchanged (n : Network) : Honest n (.unchanged n) := ⟨.refl n, fun _ => rfl⟩

theorem andThen {e : Edited} {edit : Network → Edited} (h : Honest n e) (h' : Honest e.network (edit e.network)) :
    Honest n (e.andThen edit) where
  rewritten := h.rewritten.trans h'.rewritten
  idle hidle := by
    obtain ⟨hfirst, hsecond⟩ := Bool.or_eq_false_iff.1 hidle
    exact (h'.idle hsecond).trans (h.idle hfirst)

/-- **Edits one after the other.** -/
theorem editEach {ι : Type} {edit : Network → ι → Edited} (h : ∀ a i, Honest a (edit a i)) (items : List ι)
    (n : Network) : Honest n (n.editEach items edit) := editEach_of_each .unchanged .andThen h items n

end Honest

theorem honest_fixAll {fix : Network → Element → Fix Element} (hf : Moderate fix) (n : Network) (kind : Kind)
    (id : ElementId) : Honest n (n.fixAll kind id fix) := by
  refine .editEach (fun a key => ?_) _ n
  refine ⟨?_, fixOne_honest⟩
  simp only [fixOne, apply]
  cases he : a.element? ⟨kind, key⟩ with
  | none => exact .refl a
  | some e =>
    dsimp only
    cases hfix : fix a e with
    | keep => exact .refl a
    | change e' => exact ⟨_, a.rewrites_replace ((hf.change a e e' hfix).kind.trans (kind_of_element? he))⟩
    | remove => exact ⟨_, rewrites_remove (idOf?_of_element? he)⟩

theorem honest_link (n : Network) (pred succ : Nat) : Honest n ⟨n.link pred succ, n.canLink pred succ⟩ := by
  cases hp : n.lanelets.get? pred with
  | none => exact ⟨by simpa only [link, hp] using .refl n, fun _ => by simp only [link, hp]⟩
  | some p =>
    cases hs : n.lanelets.get? succ with
    | none => exact ⟨by simpa only [link, hp, hs] using .refl n, fun _ => by simp only [link, hp, hs]⟩
    | some s =>
      refine ⟨⟨_, rewrites_link hp hs⟩, fun hidle => ?_⟩
      simp only [canLink, hp, hs, Bool.or_eq_false_iff, Bool.not_eq_false', SortedSet.contains_iff] at hidle
      have hsame : (n.link pred succ).lanelets = n.lanelets := Store.ext_get? fun k => by
        rw [get?_link hp hs]
        cases hk : n.lanelets.get? k with
        | none => rfl
        | some l =>
          have hforth : (if k = pred then l.successors.insert s.id else l.successors) = l.successors := by
            split_ifs with hkp
            · subst hkp
              cases hp.symm.trans hk
              exact Element.insert_of_mem hidle.1
            · rfl
          have hback : (if k = succ then l.predecessors.insert p.id else l.predecessors) = l.predecessors := by
            split_ifs with hks
            · subst hks
              cases hs.symm.trans hk
              exact Element.insert_of_mem hidle.2
            · rfl
          rw [Option.map_some, hforth, hback]
      simp only [link, hp, hs] at hsame ⊢
      rw [hsame]

theorem honest_unlink (n : Network) (pred succ : Nat) : Honest n ⟨n.unlink pred succ, n.canUnlink pred succ⟩ := by
  cases hp : n.lanelets.get? pred with
  | none => exact ⟨by simpa only [unlink, hp] using .refl n, fun _ => by simp only [unlink, hp]⟩
  | some p =>
    cases hs : n.lanelets.get? succ with
    | none => exact ⟨by simpa only [unlink, hp, hs] using .refl n, fun _ => by simp only [unlink, hp, hs]⟩
    | some s =>
      refine ⟨⟨_, rewrites_unlink hp hs⟩, fun hidle => ?_⟩
      simp only [canUnlink, hp, hs, Bool.or_eq_false_iff] at hidle
      have hnot : ¬ s.id ∈ p.successors ∧ ¬ p.id ∈ s.predecessors :=
        hidle.imp (fun h hmem => by simp [SortedSet.contains_iff.2 hmem] at h)
          fun h hmem => by simp [SortedSet.contains_iff.2 hmem] at h
      have hsame : (n.unlink pred succ).lanelets = n.lanelets := Store.ext_get? fun k => by
        rw [get?_unlink hp hs]
        cases hk : n.lanelets.get? k with
        | none => rfl
        | some l =>
          have hforth : (if k = pred then l.successors.erase s.id else l.successors) = l.successors := by
            split_ifs with hkp
            · subst hkp
              cases hp.symm.trans hk
              exact Element.erase_of_not_mem hnot.1
            · rfl
          have hback : (if k = succ then l.predecessors.erase p.id else l.predecessors) = l.predecessors := by
            split_ifs with hks
            · subst hks
              cases hs.symm.trans hk
              exact Element.erase_of_not_mem hnot.2
            · rfl
          rw [Option.map_some, hforth, hback]
      simp only [unlink, hp, hs] at hsame ⊢
      rw [hsame]

/-- a note that a lanelet takes unless it has it already -/
theorem honest_modify (n : Network) (key : Nat) (has : Lanelet → Bool) (note : Lanelet → Lanelet)
    (h : ∀ l, has l = true → note l = l) :
    Honest n ⟨{ n with lanelets := n.lanelets.modify key note }, (n.lanelets.get? key).any fun l => !has l⟩ := by
  refine ⟨⟨_, n.rewrites_modifyLanelet key note⟩, fun hidle => ?_⟩
  dsimp only at hidle ⊢
  rw [Store.modify_eq_self fun l hl => h l (by simpa [hl] using hidle)]

theorem honest_forgetPredecessor (n : Network) (key : Nat) (id : ElementId) :
    Honest n (n.forgetPredecessor key id) := by
  have hmodify := n.honest_modify key (fun l => !l.predecessors.contains id)
    (fun l => { l with predecessors := l.predecessors.erase id }) fun l hl => by
      have hnot : ¬ id ∈ l.predecessors := fun hmem => by simp [SortedSet.contains_iff.2 hmem] at hl
      rw [Element.erase_of_not_mem hnot]
  simp only [Bool.not_not] at hmodify
  exact hmodify

theorem honest_remove (n : Network) (x : Handle) : Honest n ⟨n.remove x, n.contains x⟩ := by
  cases hx : n.idOf? x with
  | none =>
    have hsame : n.remove x = n := remove_of_absent (Option.map_eq_none_iff.1 (n.idOf?_eq x ▸ hx))
    exact ⟨by simpa only [hsame] using .refl n, fun _ => hsame⟩
  | some id => exact ⟨⟨_, rewrites_remove hx⟩, fun hidle => by simp [contains, hx] at hidle⟩

/-! ## Forms of repairs -/

theorem honest_complete (links : Lanelet → IdSet) {edit : Network → Nat → Nat → Edited} (hedit : MakesLinks edit)
    (n : Network) (id : ElementId) : Honest n (n.complete links edit id) := by
  refine .editEach (fun a key => .editEach (fun b other => ?_) _ a) _ n
  rcases hedit b key other with h | ⟨pred, succ, h⟩
  · rw [h]
    exact .unchanged b
  · rw [h]
    exact b.honest_link pred succ

theorem honest_breakTwoWayLinks (n : Network) (id other : ElementId) : Honest n (n.breakTwoWayLinks id other) := by
  refine .editEach (fun a key => ?_) _ n
  split_ifs
  · exact (Honest.editEach (fun b back => b.honest_unlink back key) _ a).andThen (honest_forgetPredecessor _ key other)
  · exact .unchanged a

theorem honest_attach {kind : Kind} {has : Lanelet → Bool} {note : Lanelet → Lanelet} {id : ElementId}
    (h : ∀ l, has l = true → note l = l) (n : Network) : Honest n (n.attach kind has note id) := by
  unfold attach
  split_ifs
  · exact .unchanged n
  · refine .editEach (fun a key => ?_) _ n
    split
    · exact a.honest_modify _ _ _ h
    · exact a.honest_remove _

/-! ## Edits that make something shorter -/

/-- an edit that makes nothing longer, and something shorter if it says that it changed something -/
structure Shortens (size : Network → Nat → Nat) (n : Network) (e : Edited) : Prop where
  all : ∀ k, size e.network k ≤ size n k
  some : e.changed = true → ∃ k, size e.network k < size n k

namespace Shortens

variable {size : Network → Nat → Nat}

theorem unchanged (n : Network) : Shortens size n (.unchanged n) := ⟨fun _ => Nat.le_refl _, nofun⟩

theorem andThen {e : Edited} {edit : Network → Edited} (h : Shortens size n e)
    (h' : Shortens size e.network (edit e.network)) : Shortens size n (e.andThen edit) where
  all k := Nat.le_trans (h'.all k) (h.all k)
  some hchanged := by
    rcases Bool.or_eq_true_iff.1 hchanged with hfirst | hsecond
    · obtain ⟨k, hk⟩ := h.some hfirst
      exact ⟨k, Nat.lt_of_le_of_lt (h'.all k) hk⟩
    · obtain ⟨k, hk⟩ := h'.some hsecond
      exact ⟨k, Nat.lt_of_lt_of_le hk (h.all k)⟩

theorem editEach {ι : Type} {edit : Network → ι → Edited} (h : ∀ a i, Shortens size a (edit a i)) (items : List ι)
    (n : Network) : Shortens size n (n.editEach items edit) := editEach_of_each .unchanged .andThen h items n

end Shortens

end Network

/-! ### Loops -/

namespace Network

/-- the number of points on one border of the lanelet under a key -/
def borderLength (side : Side) (n : Network) (key : Nat) : Nat :=
  ((n.lanelets.get? key).map fun l => (l.border side).length).getD 0

theorem shortens_untangle (n : Network) (id : ElementId) (side : Side) :
    Shortens (borderLength side) n (n.untangle id side) := by
  refine .editEach (fun a key => ?_) _ n
  cases hl : a.lanelets.get? key with
  | none => exact .unchanged a
  | some l =>
    rcases l.fixLoop_cases side with ⟨hkeep, -⟩ | ⟨l', hchange, -, hshorter⟩
    · simp only [apply, hkeep]
      exact .unchanged a
    · simp only [apply, hchange]
      have hkey : borderLength side { a with lanelets := a.lanelets.replace key l' } key < borderLength side a key := by
        simpa [borderLength, hl] using hshorter
      refine ⟨fun k => ?_, fun _ => ⟨key, hkey⟩⟩
      by_cases hk : k = key
      · subst hk
        exact Nat.le_of_lt hkey
      · simp [borderLength, hk]

end Network

/-! ## The rules -/

namespace RuleId

open RoadMap Network

variable {r : RuleId}

/-- every rule that hands out no ids is repaired by an honest edit -/
theorem exists_honest (hr : r.topic ≠ .general) (m : RoadMap) (id : ElementId) (rest : List ElementId) :
    ∃ e, r.repairAt m id rest = m.edited e ∧ Honest m.network e := by
  obtain ⟨edit, hform, hrepair⟩ := exists_form hr id rest
  refine ⟨_, hrepair m, ?_⟩
  cases hform with
  | decision _ moderate => exact honest_fixAll moderate m.network _ id
  | forth => exact honest_complete _ (makesLinks_completeForth id) m.network id
  | back => exact honest_complete _ (makesLinks_completeBack id) m.network id
  | breaking _ _ => exact m.network.honest_breakTwoWayLinks id _
  | nothing => exact .unchanged m.network
  | attaching notes => exact honest_attach notes.idle m.network

/-- **What a repair says it changed is different.** Had it changed nothing, its location would have been settled before,
and it would have found nothing to do. -/
theorem repairAt_ne_self {m : RoadMap} (hm : m.Counted) {id : ElementId} {rest : List ElementId}
    (hchanged : (r.repairAt m id rest).2 = true) : (r.repairAt m id rest).1 ≠ m := by
  have loop {side : Side} (h : r.repairAt m id rest = m.edited (m.network.untangle id side)) :
      (r.repairAt m id rest).1 ≠ m := by
    intro hsame
    rw [h] at hchanged hsame
    obtain ⟨k, hk⟩ := (m.network.shortens_untangle id side).some hchanged
    have hnetwork : (m.network.untangle id side).network = m.network := congrArg RoadMap.network hsame
    rw [hnetwork] at hk
    exact Nat.lt_irrefl _ hk
  by_cases hleft : r = leftSelfIntersection
  · subst hleft
    exact loop rfl
  · by_cases hright : r = rightSelfIntersection
    · subst hright
      exact loop rfl
    · obtain ⟨Inv, Done, hsettles, hinv⟩ := exists_settles hleft hright
      intro hsame
      have hdone := hsettles.done m id rest (hinv m hm)
      rw [hsame] at hdone
      rw [hsettles.idle m id rest hdone] at hchanged
      cases hchanged

end RuleId

namespace RoadMap

open Network

/-- without a fresh id for any element the map stays as it is -/
theorem reassignAll_idle (m : RoadMap) (hs : List Handle) (h : (m.reassignAll hs).2 = false) :
    (m.reassignAll hs).1 = m := by
  induction hs with
  | nil => rfl
  | cons x hs ih =>
    rw [reassignAll] at h ⊢
    cases hr : m.reassignId? x with
    | none =>
      rw [hr] at h
      exact ih h
    | some d =>
      rw [hr] at h
      cases h

/-- an element that draws no id keeps its own -/
theorem idOf?_reassignAll (m : RoadMap) {hs : List Handle} {x : Handle} (hx : x ∉ hs) :
    (m.reassignAll hs).1.network.idOf? x = m.network.idOf? x := by
  induction hs generalizing m with
  | nil => rfl
  | cons y hs ih =>
    have hne : x ≠ y := List.ne_of_not_mem_cons hx
    have hrest := List.not_mem_of_not_mem_cons hx
    simp only [reassignAll]
    cases hr : m.reassignId? y with
    | none => exact ih m hrest
    | some d =>
      obtain ⟨id, m'⟩ := d
      obtain ⟨⟨old, hold⟩, m₁, hf, rfl⟩ := exists_of_reassignId? hr
      rw [← (freshId?_cases hf).1] at hold
      refine (ih _ hrest).trans ?_
      rw [idOf?_setId hold, if_neg hne, (freshId?_cases hf).1]

/-- **Fresh ids.** The first element that draws one does not come to its own id again, nor to another one later. -/
theorem reassignAll_alters {m : RoadMap} (hm : m.Counted) {hs : List Handle} (hnodup : hs.Nodup)
    (hborne : ∀ x ∈ hs, ∃ id, m.network.idOf? x = some id) (h : (m.reassignAll hs).2 = true) :
    m.network.Alters (m.reassignAll hs).1.network := by
  cases hs with
  | nil => cases h
  | cons x hs =>
    obtain ⟨old, hx⟩ := hborne x List.mem_cons_self
    obtain ⟨e, he, -⟩ := exists_element hx
    rcases reassignId?_spec hm hx with hnone | ⟨fresh, m', hreassign, -, hnetwork, hnew⟩
    · rw [reassignAll_of_exhausted hnone] at h
      cases h
    · refine ⟨x, e, he, fun he' => hnew x ?_⟩
      have hfinal : (m.reassignAll (x :: hs)).1.network.idOf? x = some fresh := by
        simp only [reassignAll, hreassign]
        rw [idOf?_reassignAll m' (List.nodup_cons.1 hnodup).1, hnetwork, idOf?_setId hx, if_pos rfl]
      exact (idOf?_of_element? he).trans ((idOf?_of_element? he').symm.trans hfinal)

/-- a repair leaves the map as it is unless it says that it changed something -/
theorem repair_idle (m : RoadMap) {v : Violation} (h : (m.repair v).2 = false) : (m.repair v).1 = m := by
  obtain ⟨r, location⟩ := v
  cases location with
  | nil => rfl
  | cons id rest =>
    change (r.repairAt m id rest).2 = false at h
    change (r.repairAt m id rest).1 = m
    by_cases hr : r.topic = .general
    · rw [RuleId.repairAt_general hr] at h ⊢
      exact m.reassignAll_idle _ h
    · obtain ⟨e, hrepair, honest⟩ := RuleId.exists_honest hr m id rest
      rw [hrepair] at h ⊢
      exact congrArg (fun n => { m with network := n }) (honest.idle h)

/-- a repair that says that it changed something altered an element -/
theorem repair_alters {m : RoadMap} (hm : m.Counted) {v : Violation} (h : (m.repair v).2 = true) :
    m.network.Alters (m.repair v).1.network := by
  obtain ⟨r, location⟩ := v
  cases location with
  | nil => cases h
  | cons id rest =>
    change (r.repairAt m id rest).2 = true at h
    change m.network.Alters (r.repairAt m id rest).1.network
    by_cases hr : r.topic = .general
    · rw [RuleId.repairAt_general hr] at h ⊢
      exact reassignAll_alters hm (nodup_handlesWithId m.network id).tail
        (fun x hx => ⟨id, mem_handlesWithId.1 (List.mem_of_mem_tail hx)⟩) h
    · have hne := RuleId.repairAt_ne_self hm h
      obtain ⟨e, hrepair, honest⟩ := RuleId.exists_honest hr m id rest
      rw [hrepair] at hne ⊢
      exact honest.rewritten.alters fun hsame => hne (congrArg (fun n => { m with network := n }) hsame)

/-- a run of repairs none of which says that it changed something -/
theorem repairEach_idle (m : RoadMap) (vs : List Violation) (h : (m.repairEach vs).2.any (·.2) = false) :
    (m.repairEach vs).1 = m := by
  induction vs with
  | nil => rfl
  | cons v vs ih =>
    simp only [repairEach, List.any_cons, Bool.or_eq_false_iff] at h ⊢
    have hfirst := m.repair_idle h.1
    rw [hfirst] at h ⊢
    exact ih h.2

/-- **Repairs tell the truth.** If the counter has gone beyond all ids, a repair says that it changed something just if
an element is different afterwards or gone, and otherwise leaves the map as it is, with its counter. So a report without
any change means that the map is as it was. -/
theorem repair_truthful (m : RoadMap) (hm : m.Counted) :
    (∀ v, ((m.repair v).2 = true ↔ m.network.Alters (m.repair v).1.network) ∧
      ((m.repair v).2 = false → (m.repair v).1 = m)) ∧
    ∀ vs, (m.repairAll vs).2.isNoop = true → (m.repairAll vs).1 = m := by
  refine ⟨fun v => ⟨⟨repair_alters hm, fun halters => ?_⟩, m.repair_idle⟩, fun vs hnoop => ?_⟩
  · by_contra hfalse
    obtain ⟨x, e, he, hne⟩ := halters
    rw [m.repair_idle (Bool.eq_false_iff.2 hfalse)] at hne
    exact hne he
  · exact m.repairEach_idle vs.toList (by simpa [repairAll, RepairReport.isNoop] using hnoop)

/-- a lanelet that leads to one which does not exist -/
def deadEnd : RoadMap := RoadMap.ofDocument { lanelets := [{ id := 5, successors := .ofList [9] }] }

/-- The reference is dropped, and no other repair of the rule changes anything. -/
theorem repair_truthful_deadEnd : deadEnd.Counted ∧
    (deadEnd.repair ⟨.existenceSuccessor, [5]⟩).2 = true ∧
    deadEnd.network.Alters (deadEnd.repair ⟨.existenceSuccessor, [5]⟩).1.network ∧
    (deadEnd.repairAll ⟨[(.existenceSuccessor, [[9], []]), (.uniqueIdLa, [[5]])]⟩).1 = deadEnd :=
  have hm : deadEnd.Counted := counted_ofDocument _
  have h := repair_truthful deadEnd hm
  have hchanged : (deadEnd.repair ⟨.existenceSuccessor, [5]⟩).2 = true := by decide +kernel
  ⟨hm, hchanged, (h.1 _).1.1 hchanged, h.2 _ (by decide +kernel)⟩

end RoadMap

end RoadRules
