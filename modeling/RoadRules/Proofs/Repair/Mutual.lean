/-
Links that both lanelets note, or neither of them.

A network is mutual (`Mutual`) if every lanelet has an id of its own, and one lanelet notes another as a successor just
if that one notes it as a predecessor.

- `KeepsLinks`: lanelets keep their ids or go, and keep the links to all lanelets that are left. Such a step keeps a
  network mutual, though each lanelet is looked at alone (`Mutual.of_keepsLinks`). Removals are of this sort, and so are
  the decisions of repairs, which drop no link but those that lead nowhere.
- `Mutual.link`, `Mutual.unlink`: a link comes and goes at both ends. As ids are not shared, no other lanelet is taken
  for one of the ends.
- `Mutual.complete`, `Mutual.breakTwoWayLinks`, `Mutual.attach`, `Mutual.separateIds`: the other forms of repairs. What
  a broken link drops on one side only leads nowhere by then. Fresh ids go to signs, lights and intersections only, as
  of the elements with one id the lanelet comes first.
- `mutual_act`: one action. `mutual_run`: any sequence of them.
-/
import RoadRules.Network.Document
import RoadRules.Proofs.Network.Operations
import RoadRules.Proofs.Repair.Drift
import RoadRules.Proofs.Repair.Linking
import RoadRules.Proofs.Repair.Tidy

namespace RoadRules

namespace Network

variable {n a b : Network}

/-! ## Mutual links -/

/-- Lanelets have ids of their own, and note each other as successor and predecessor. -/
structure Mutual (n : Network) : Prop where
  distinct : (n.ids .lanelet).Nodup
  noted : ∀ l ∈ n.lanelets.values, ∀ k ∈ n.lanelets.values, k.id ∈ l.successors ↔ l.id ∈ k.predecessors

/-- lanelets have ids of their own if no id is found under two keys -/
theorem nodup_ids_iff : (n.ids .lanelet).Nodup ↔
    ∀ i j id, n.idOf? ⟨.lanelet, i⟩ = some id → n.idOf? ⟨.lanelet, j⟩ = some id → i = j := by
  have hentries : n.lanelets.entries.Nodup := n.lanelets.ascending.imp fun {e e'} h heq => by
    subst heq
    exact Nat.lt_irrefl _ h
  have hids : n.ids .lanelet = n.lanelets.entries.map (·.2.id) := List.map_map ..
  rw [hids, List.nodup_map_iff_inj_on hentries]
  constructor
  · intro h i j id hi hj
    obtain ⟨l, hl, rfl⟩ := lanelet_of_idOf? hi
    obtain ⟨k, hk, hid⟩ := lanelet_of_idOf? hj
    have heq := h _ (Store.get?_eq_some_iff.1 hl) _ (Store.get?_eq_some_iff.1 hk) hid.symm
    exact congrArg Prod.fst heq
  · rintro h ⟨i, l⟩ hl ⟨j, k⟩ hk heq
    have hi := Store.get?_eq_some_iff.2 hl
    have hj := Store.get?_eq_some_iff.2 hk
    obtain rfl := h i j l.id (idOf?_of_lanelet hi) ((idOf?_of_lanelet hj).trans (congrArg some heq.symm))
    cases hi.symm.trans hj
    rfl

namespace Mutual

/-- mutual links, key by key -/
theorem of_get? (hkey : ∀ i j id, n.idOf? ⟨.lanelet, i⟩ = some id → n.idOf? ⟨.lanelet, j⟩ = some id → i = j)
    (hlinks : ∀ i j l k, n.lanelets.get? i = some l → n.lanelets.get? j = some k →
      (k.id ∈ l.successors ↔ l.id ∈ k.predecessors)) : n.Mutual where
  distinct := nodup_ids_iff.2 hkey
  noted l hl k hk := by
    obtain ⟨i, hi⟩ := Store.mem_values.1 hl
    obtain ⟨j, hj⟩ := Store.mem_values.1 hk
    exact hlinks i j l k hi hj

theorem key_eq (h : n.Mutual) {i j : Nat} {id : ElementId} (hi : n.idOf? ⟨.lanelet, i⟩ = some id)
    (hj : n.idOf? ⟨.lanelet, j⟩ = some id) : i = j := nodup_ids_iff.1 h.distinct i j id hi hj

theorem mem_iff (h : n.Mutual) {i j : Nat} {l k : Lanelet} (hl : n.lanelets.get? i = some l)
    (hk : n.lanelets.get? j = some k) : k.id ∈ l.successors ↔ l.id ∈ k.predecessors :=
  h.noted l (Store.mem_values.2 ⟨i, hl⟩) k (Store.mem_values.2 ⟨j, hk⟩)

/-- the lanelets with one id are those under one key -/
theorem id_eq_iff (h : n.Mutual) {i j : Nat} {l k : Lanelet} (hl : n.lanelets.get? i = some l)
    (hk : n.lanelets.get? j = some k) : l.id = k.id ↔ i = j := by
  constructor
  · exact fun heq => h.key_eq (idOf?_of_lanelet hl) ((idOf?_of_lanelet hk).trans (congrArg some heq.symm))
  · rintro rfl
    cases hl.symm.trans hk
    rfl

/-- only lanelets matter -/
theorem congr (h : a.Mutual) (hlanelets : b.lanelets = a.lanelets) : b.Mutual where
  distinct := by
    simp only [ids, hlanelets]
    exact h.distinct
  noted := hlanelets ▸ h.noted

end Mutual

/-! ## Steps that keep the links between lanelets -/

/-- Lanelets keep their ids or go, and keep the links to all lanelets that are left. -/
def KeepsLinks (a b : Network) : Prop :=
  ∀ i l', b.lanelets.get? i = some l' → ∃ l, a.lanelets.get? i = some l ∧ l'.id = l.id ∧
    ∀ o, b.hasLocal .lanelet o = true → (o ∈ l'.predecessors ↔ o ∈ l.predecessors) ∧
      (o ∈ l'.successors ↔ o ∈ l.successors)

/-- **Each lanelet alone.** Both ends of a link that is left keep it, or neither end had it. -/
theorem Mutual.of_keepsLinks (h : a.Mutual) (hk : KeepsLinks a b) : b.Mutual := by
  have there : ∀ {i l'}, b.lanelets.get? i = some l' → b.hasLocal .lanelet l'.id = true := fun {i l'} hl' =>
    hasLocal_iff.2 ⟨i, idOf?_of_lanelet hl'⟩
  refine .of_get? (fun i j id hi hj => ?_) fun i j l' k' hl' hk' => ?_
  · obtain ⟨l', hl', rfl⟩ := lanelet_of_idOf? hi
    obtain ⟨k', hk', hid⟩ := lanelet_of_idOf? hj
    obtain ⟨l, hl, hlid, -⟩ := hk i l' hl'
    obtain ⟨k, hk, hkid, -⟩ := hk j k' hk'
    exact (h.id_eq_iff hl hk).1 (hlid.symm.trans (hid.symm.trans hkid))
  · obtain ⟨l, hl, hlid, hlinks⟩ := hk i l' hl'
    obtain ⟨k, hk, hkid, hklinks⟩ := hk j k' hk'
    rw [(hlinks k'.id (there hk')).2, (hklinks l'.id (there hl')).1, hlid, hkid]
    exact h.mem_iff hl hk

namespace KeepsLinks

/-- a rewrite, seen at each lanelet -/
theorem of_rewrites {f : Rewrite} (hf : Rewrites f a b)
    (h : ∀ x l l', a.element? x = some (.lanelet l) → f x (.lanelet l) = some (.lanelet l') → l'.id = l.id ∧
      ∀ o, b.hasLocal .lanelet o = true → (o ∈ l'.predecessors ↔ o ∈ l.predecessors) ∧
        (o ∈ l'.successors ↔ o ∈ l.successors)) : KeepsLinks a b := by
  intro i l' hl'
  have he' := element?_eq_lanelet.2 ⟨i, rfl, hl'⟩
  rw [hf.element] at he'
  obtain ⟨e, he, hfe⟩ := Option.bind_eq_some_iff.1 he'
  obtain ⟨l, hl⟩ : ∃ l, e = .lanelet l := by
    have hkind := kind_of_element? he
    cases e <;> first | exact ⟨_, rfl⟩ | cases hkind
  subst hl
  obtain ⟨j, hj, hl⟩ := element?_eq_lanelet.1 he
  cases hj
  exact ⟨l, hl, h _ l l' he hfe⟩

/-- an id that is forgotten is not one of a lanelet that is left -/
theorem remove (a : Network) (x : Handle) : KeepsLinks a (a.remove x) := by
  cases hx : a.idOf? x with
  | none =>
    rw [remove_of_absent (Option.map_eq_none_iff.1 (a.idOf?_eq x ▸ hx))]
    exact fun i l hl => ⟨l, hl, rfl, fun _ _ => ⟨Iff.rfl, Iff.rfl⟩⟩
  | some gone =>
    refine of_rewrites (rewrites_remove hx) fun y l l' _ hf => ?_
    unfold Rewrite.removal at hf
    split_ifs at hf with hy hstays
    · cases hf
      exact ⟨rfl, fun _ _ => ⟨Iff.rfl, Iff.rfl⟩⟩
    · have hne : x.kind = .lanelet → ∀ o, (a.remove x).hasLocal .lanelet o = true → o ≠ gone := by
        rintro hkind o ho rfl
        refine hstays ?_
        rw [hkind, ← resolves_remove hx, resolves, ho, Bool.or_true]
      cases hkind : x.kind <;> rw [hkind] at hf <;> cases hf
      · exact ⟨rfl, fun o ho => ⟨SortedSet.mem_erase.trans (and_iff_left (hne hkind o ho)),
          SortedSet.mem_erase.trans (and_iff_left (hne hkind o ho))⟩⟩
      all_goals exact ⟨rfl, fun _ _ => ⟨Iff.rfl, Iff.rfl⟩⟩

/-- another version of one element, which keeps the links that lead somewhere -/
theorem replace {x : Handle} {e e' : Element} (he : a.element? x = some e) (hm : e.Mild a e') :
    KeepsLinks a (a.replace x.key e') := by
  have hf := a.rewrites_replace (hm.kind.trans (kind_of_element? he))
  have hids : ∀ y, (a.replace x.key e').idOf? y = a.idOf? y := hf.idOf? fun y e₀ he₀ => by
    refine ⟨_, rfl, ?_⟩
    split_ifs with hy
    · subst hy
      cases he.symm.trans he₀
      exact hm.id
    · rfl
  refine of_rewrites hf fun y l l' hl hl' => ?_
  simp only [Rewrite.only, Option.some.injEq] at hl'
  split_ifs at hl' with hy
  · subst hy
    cases he.symm.trans hl
    have mild := hm.lanelet l l' rfl hl'
    refine ⟨mild.id, fun o ho => ?_⟩
    obtain ⟨j, hj⟩ := hasLocal_iff.1 ho
    have hresolves : a.resolves .lanelet o = true := resolves_iff.2 (Or.inr ⟨j, (hids _).symm.trans hj⟩)
    exact ⟨mild.predecessors o hresolves, mild.successors o hresolves⟩
  · cases hl'
    exact ⟨rfl, fun _ _ => ⟨Iff.rfl, Iff.rfl⟩⟩

/-- a change of one lanelet without effect on its id, and on the links to lanelets that are there -/
theorem modify {g : Lanelet → Lanelet} (key : Nat) (hid : ∀ l, (g l).id = l.id)
    (hlinks : ∀ l, a.lanelets.get? key = some l → ∀ o, a.hasLocal .lanelet o = true →
      (o ∈ (g l).predecessors ↔ o ∈ l.predecessors) ∧ (o ∈ (g l).successors ↔ o ∈ l.successors)) :
    KeepsLinks a { a with lanelets := a.lanelets.modify key g } := by
  refine of_rewrites (a.rewrites_modifyLanelet key g) fun y l l' hl hl' => ?_
  simp only [Rewrite.only, Option.some.injEq] at hl'
  split_ifs at hl' with hy
  · cases hl'
    refine ⟨hid l, fun o ho => ?_⟩
    obtain ⟨j, hj⟩ := hasLocal_iff.1 ho
    obtain ⟨k, hk, hl⟩ := element?_eq_lanelet.1 hl
    cases hy.symm.trans hk
    exact hlinks l hl o (hasLocal_iff.2 ⟨j, (a.idOf?_modifyLanelet key hid _).symm.trans hj⟩)
  · cases hl'
    exact ⟨rfl, fun _ _ => ⟨Iff.rfl, Iff.rfl⟩⟩

end KeepsLinks

/-- a lanelet to which a link has been dropped does not note the id at the other end -/
theorem not_mem_of_unlinked {key back : Nat} {other : ElementId}
    (hback : n.idOf? ⟨.lanelet, back⟩ = some other) :
    ∀ l, (n.unlink back key).lanelets.get? key = some l → ¬ other ∈ l.predecessors := by
  intro l' hl'
  obtain ⟨p, hp, rfl⟩ := lanelet_of_idOf? hback
  have hkey : n.idOf? ⟨.lanelet, key⟩ = some l'.id := (n.idOf?_unlink back key _).symm.trans (idOf?_of_lanelet hl')
  obtain ⟨s, hs, -⟩ := lanelet_of_idOf? hkey
  rw [get?_unlink hp hs] at hl'
  obtain ⟨l, -, rfl⟩ := Option.map_eq_some_iff.1 hl'
  dsimp only
  rw [if_pos rfl]
  exact fun hmem => (SortedSet.mem_erase.1 hmem).2 rfl

namespace Mutual

theorem remove (h : n.Mutual) (x : Handle) : (n.remove x).Mutual := h.of_keepsLinks (.remove n x)

/-! ## Links that come and go -/

/-- the two ends of a link note it together -/
theorem link (h : n.Mutual) (pred succ : Nat) : (n.link pred succ).Mutual := by
  cases hp : n.lanelets.get? pred with
  | none => simpa only [Network.link, hp] using h
  | some p =>
    cases hs : n.lanelets.get? succ with
    | none => simpa only [Network.link, hp, hs] using h
    | some s =>
      refine .of_get? (fun i j id hi hj => ?_) fun i j l' k' hl' hk' => ?_
      · rw [idOf?_link] at hi hj
        exact h.key_eq hi hj
      · rw [get?_link hp hs] at hl' hk'
        obtain ⟨l, hl, rfl⟩ := Option.map_eq_some_iff.1 hl'
        obtain ⟨k, hk, rfl⟩ := Option.map_eq_some_iff.1 hk'
        have hforth : k.id ∈ (if i = pred then l.successors.insert s.id else l.successors) ↔
            i = pred ∧ k.id = s.id ∨ k.id ∈ l.successors := by
          split_ifs with hi <;> simp [hi]
        have hback : l.id ∈ (if j = succ then k.predecessors.insert p.id else k.predecessors) ↔
            j = succ ∧ l.id = p.id ∨ l.id ∈ k.predecessors := by
          split_ifs with hj <;> simp [hj]
        dsimp only
        rw [hforth, hback, h.id_eq_iff hk hs, h.id_eq_iff hl hp, h.mem_iff hl hk, and_comm]

theorem unlink (h : n.Mutual) (pred succ : Nat) : (n.unlink pred succ).Mutual := by
  cases hp : n.lanelets.get? pred with
  | none => simpa only [Network.unlink, hp] using h
  | some p =>
    cases hs : n.lanelets.get? succ with
    | none => simpa only [Network.unlink, hp, hs] using h
    | some s =>
      refine .of_get? (fun i j id hi hj => ?_) fun i j l' k' hl' hk' => ?_
      · rw [idOf?_unlink] at hi hj
        exact h.key_eq hi hj
      · rw [get?_unlink hp hs] at hl' hk'
        obtain ⟨l, hl, rfl⟩ := Option.map_eq_some_iff.1 hl'
        obtain ⟨k, hk, rfl⟩ := Option.map_eq_some_iff.1 hk'
        have hforth : k.id ∈ (if i = pred then l.successors.erase s.id else l.successors) ↔
            k.id ∈ l.successors ∧ ¬ (i = pred ∧ k.id = s.id) := by
          split_ifs with hi <;> simp [hi]
        have hback : l.id ∈ (if j = succ then k.predecessors.erase p.id else k.predecessors) ↔
            l.id ∈ k.predecessors ∧ ¬ (j = succ ∧ l.id = p.id) := by
          split_ifs with hj <;> simp [hj]
        dsimp only
        rw [hforth, hback, h.id_eq_iff hk hs, h.id_eq_iff hl hp, h.mem_iff hl hk, and_comm (a := i = pred)]

/-- lanelets side by side have no links for that -/
theorem linkAdjacent (h : n.Mutual) (left right : Nat) (sameDirection : Bool) :
    (n.linkAdjacent left right sameDirection).Mutual := by
  unfold Network.linkAdjacent
  split
  · next l r _ _ =>
    have there : Mutual { n with lanelets := n.lanelets.modify left fun l =>
        { l with adjacentRight := some ⟨r.id, sameDirection⟩ } } :=
      h.of_keepsLinks (.modify left (fun _ => rfl) fun _ _ _ _ => ⟨Iff.rfl, Iff.rfl⟩)
    refine there.of_keepsLinks (.modify right (fun b => ?_) fun b _ _ _ => ?_)
    · split_ifs <;> rfl
    · split_ifs <;> exact ⟨Iff.rfl, Iff.rfl⟩
  · exact h

/-! ## Forms of repairs -/

theorem fixAll (h : n.Mutual) {fix : Network → Element → Fix Element} (hf : Moderate fix) (kind : Kind)
    (id : ElementId) : (n.fixAll kind id fix).network.Mutual := by
  refine editEach_induction (P := Mutual) _ h fun b hb key _ => ?_
  simp only [fixOne, apply]
  cases he : b.element? ⟨kind, key⟩ with
  | none => exact hb
  | some e =>
    dsimp only
    cases hfix : fix b e with
    | keep => exact hb
    | change e' => exact hb.of_keepsLinks (.replace (x := ⟨kind, key⟩) he (hf.change b e e' hfix))
    | remove => exact hb.remove _

theorem complete (h : n.Mutual) {links : Lanelet → IdSet} {edit : Network → Nat → Nat → Edited}
    (hedit : MakesLinks edit) (id : ElementId) : (n.complete links edit id).network.Mutual := by
  refine editEach_induction (P := Mutual) _ h fun b hb key _ => ?_
  refine editEach_induction (P := Mutual) _ hb fun c hc other _ => ?_
  rcases hedit c key other with h | ⟨pred, succ, h⟩
  · rw [h]
    exact hc
  · rw [h]
    exact hc.link pred succ

/-- a lanelet that every lanelet with an id is unlinked from forgets this id -/
theorem unlinkEach (h : n.Mutual) (key : Nat) (other : ElementId) :
    let c := (n.editEach (n.laneletsWithId other) fun a back => ⟨a.unlink back key, a.canUnlink back key⟩).network
    (c.Mutual ∧ Shrinks n c) ∧
      ∀ back ∈ n.laneletsWithId other, ∀ l, c.lanelets.get? key = some l → ¬ other ∈ l.predecessors := by
  refine editEach_settles (P := fun c => Mutual c ∧ Shrinks n c)
    (Q := fun _ c => ∀ l, c.lanelets.get? key = some l → ¬ other ∈ l.predecessors) (n.laneletsWithId other)
    ⟨h, .refl n⟩ fun c hc back hback => ?_
  have hidb : c.idOf? ⟨.lanelet, back⟩ = some other := (hc.2.ids _).trans (bears_iff.1 hback)
  refine ⟨⟨hc.1.unlink back key, hc.2.trans (.unlink c back key)⟩, not_mem_of_unlinked hidb,
    fun _ hsettled l' hl' hmem => ?_⟩
  obtain ⟨l, hl, hpred, -⟩ := (Shrinks.unlink c back key).lanelet key l' hl'
  exact hsettled l hl (hpred other hmem)

/-- The links from all lanelets with the other id have gone at both ends, so what the lanelet forgets on its own is at
most the id of a lanelet that is not there. -/
theorem breakTwoWayLinks (h : n.Mutual) (id other : ElementId) : (n.breakTwoWayLinks id other).network.Mutual := by
  refine editEach_induction (P := Mutual) _ h fun b hb key _ => ?_
  split_ifs
  · obtain ⟨⟨hc, hshrinks⟩, hgone⟩ := hb.unlinkEach key other
    refine hc.of_keepsLinks (.modify key (fun _ => rfl) fun l hl o ho => ⟨?_, Iff.rfl⟩)
    refine SortedSet.mem_erase.trans (and_iff_left_of_imp fun hmem => ?_)
    rintro rfl
    obtain ⟨back, hback⟩ := hasLocal_iff.1 ho
    exact hgone back (bears_iff.2 ((hshrinks.ids _).symm.trans hback)) l hl hmem
  · exact hb

theorem attach (h : n.Mutual) {kind : Kind} {noted : Lanelet → Bool} {note : Lanelet → Lanelet} {id : ElementId}
    (hn : Lanelet.Noting note) : (n.attach kind noted note id).network.Mutual := by
  unfold Network.attach
  split_ifs
  · exact h
  · refine editEach_induction (P := Mutual) _ h fun b hb key _ => ?_
    split
    · next k _ =>
      refine hb.of_keepsLinks (.modify k hn.id fun l _ _ _ => ?_)
      rw [hn.predecessors, hn.successors]
      exact ⟨Iff.rfl, Iff.rfl⟩
    · exact hb.remove _

end Mutual

/-- another id for an element of another kind leaves lanelets as they are -/
theorem lanelets_setId {x : Handle} (hx : x.kind ≠ .lanelet) (id : ElementId) :
    (n.setId x id).lanelets = n.lanelets := by
  obtain ⟨kind, key⟩ := x
  cases kind <;> first | exact absurd rfl hx | rfl

/-- of the elements with one id a lanelet comes first, and there is no other one -/
theorem Mutual.kind_of_mem_tail (h : n.Mutual) {id : ElementId} {x : Handle} (hx : x ∈ (n.handlesWithId id).tail) :
    x.kind ≠ .lanelet := by
  have hshape : n.handlesWithId id = (n.laneletsWithId id).map (Handle.mk .lanelet) ++
      ((n.trafficSignsWithId id).map (Handle.mk .trafficSign) ++
        ((n.trafficLightsWithId id).map (Handle.mk .trafficLight) ++
          (n.intersectionsWithId id).map (Handle.mk .intersection))) := by
    simp [handlesWithId, Kind.values, keysWithId]
  have hothers : ∀ y ∈ (n.trafficSignsWithId id).map (Handle.mk .trafficSign) ++
      ((n.trafficLightsWithId id).map (Handle.mk .trafficLight) ++
        (n.intersectionsWithId id).map (Handle.mk .intersection)), y.kind ≠ .lanelet := by
    intro y hy
    simp only [List.mem_append, List.mem_map] at hy
    rcases hy with ⟨_, -, rfl⟩ | ⟨_, -, rfl⟩ | ⟨_, -, rfl⟩ <;> simp
  rw [hshape] at hx
  cases hkeys : n.laneletsWithId id with
  | nil =>
    rw [hkeys] at hx
    exact hothers x (List.mem_of_mem_tail hx)
  | cons i rest =>
    rw [hkeys, List.map_cons, List.cons_append, List.tail_cons] at hx
    rcases List.mem_append.1 hx with hx | hx
    · -- a second key would be the first one again, but keys ascend
      obtain ⟨j, hj, -⟩ := List.mem_map.1 hx
      have hnodup : (i :: rest).Nodup :=
        hkeys ▸ ((n.lanelets.ascending.filter _).imp Nat.ne_of_lt).map _ fun _ _ hne => hne
      have hi : n.idOf? ⟨.lanelet, i⟩ = some id := bears_iff.1 (hkeys ▸ List.mem_cons_self)
      have hj' : n.idOf? ⟨.lanelet, j⟩ = some id := bears_iff.1 (hkeys ▸ List.mem_cons_of_mem i hj)
      exact absurd (h.key_eq hi hj' ▸ hj) (List.nodup_cons.1 hnodup).1
    · exact hothers x hx

end Network

/-! ## Repairs and runs -/

namespace RoadMap

open Network

theorem lanelets_reassignAll (m : RoadMap) {hs : List Handle} (h : ∀ x ∈ hs, x.kind ≠ .lanelet) :
    (m.reassignAll hs).1.network.lanelets = m.network.lanelets := by
  induction hs generalizing m with
  | nil => rfl
  | cons x hs ih =>
    simp only [reassignAll]
    cases hr : m.reassignId? x with
    | none => exact ih m fun y hy => h y (List.mem_cons_of_mem x hy)
    | some d =>
      obtain ⟨id, m'⟩ := d
      obtain ⟨-, m₁, hf, rfl⟩ := exists_of_reassignId? hr
      refine (ih _ fun y hy => h y (List.mem_cons_of_mem x hy)).trans ?_
      rw [lanelets_setId (h x List.mem_cons_self), (freshId?_cases hf).1]

theorem mutual_repair {m : RoadMap} (h : m.network.Mutual) (v : Violation) : (m.repair v).1.network.Mutual := by
  obtain ⟨r, location⟩ := v
  cases location with
  | nil => exact h
  | cons id rest =>
    change (r.repairAt m id rest).1.network.Mutual
    by_cases hgeneral : r.topic = .general
    · rw [RuleId.repairAt_general hgeneral]
      exact h.congr (m.lanelets_reassignAll fun _ => h.kind_of_mem_tail)
    · obtain ⟨edit, hform, hrepair⟩ := RuleId.exists_form hgeneral id rest
      rw [hrepair]
      cases hform with
      | decision _ moderate => exact h.fixAll moderate _ id
      | forth => exact h.complete (makesLinks_completeForth id) id
      | back => exact h.complete (makesLinks_completeBack id) id
      | breaking _ _ => exact h.breakTwoWayLinks id _
      | nothing => exact h
      | attaching notes => exact h.attach notes.noting

/-- what is done with the links of a map and with the map as a whole, without putting elements in or editing them -/
inductive Action where
  | link (pred succ : Nat)
  | unlink (pred succ : Nat)
  | linkAdjacent (left right : Nat) (sameDirection : Bool)
  | remove (x : Handle)
  | repair (v : Violation)

/-- the map after an action -/
def act (m : RoadMap) : Action → RoadMap
  | .link pred succ => { m with network := m.network.link pred succ }
  | .unlink pred succ => { m with network := m.network.unlink pred succ }
  | .linkAdjacent left right sameDirection => { m with network := m.network.linkAdjacent left right sameDirection }
  | .remove x => { m with network := m.network.remove x }
  | .repair v => (m.repair v).1

theorem mutual_act {m : RoadMap} (h : m.network.Mutual) (action : Action) : (m.act action).network.Mutual := by
  cases action with
  | link pred succ => exact h.link pred succ
  | unlink pred succ => exact h.unlink pred succ
  | linkAdjacent left right sameDirection => exact h.linkAdjacent left right sameDirection
  | remove x => exact h.remove x
  | repair v => exact mutual_repair h v

/-- **Links stay mutual.** If all lanelets have ids of their own, and successors and predecessors note each other, then
this is so after any sequence of links, removals and repairs, under whatever keys and at whatever locations. -/
theorem mutual_run (m : RoadMap) (actions : List Action) (h : m.network.Mutual) :
    (actions.foldl act m).network.Mutual := by
  induction actions generalizing m with
  | nil => exact h
  | cons action actions ih => exact ih (m.act action) (mutual_act h action)

/-- two lanelets that follow each other, the first of which follows itself too, with a sign that shares an id -/
def roundabout : RoadMap := RoadMap.ofDocument
  { lanelets := [{ id := 1, predecessors := .ofList [1, 2], successors := .ofList [1, 2] },
      { id := 2, predecessors := .ofList [1], successors := .ofList [1] }]
    trafficSigns := [{ id := 2 }] }

/-- The link back is broken, the sign gets an id of its own, and the first lanelet goes; all of this changes the links
or the ids. -/
theorem mutual_run_roundabout : roundabout.network.Mutual ∧
    ([.repair ⟨.nonPredecessorAsSuccessor, [1, 2]⟩, .repair ⟨.uniqueIdTs, [2]⟩, .link 1 1].foldl act roundabout
      |>.network.lanelets.values.map fun l => (l.id, l.predecessors.toList, l.successors.toList)) =
        [(1, [1], [1, 2]), (2, [1, 2], [2])] ∧
    ([.repair ⟨.nonPredecessorAsSuccessor, [1, 2]⟩, .repair ⟨.uniqueIdTs, [2]⟩, .link 1 1,
      .remove ⟨.lanelet, 0⟩].foldl act roundabout).network.Mutual :=
  have h : roundabout.network.Mutual := ⟨by decide, by decide⟩
  ⟨h, by decide, mutual_run roundabout _ h⟩

end RoadMap

end RoadRules
