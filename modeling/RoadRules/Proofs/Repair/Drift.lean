/-
What repairs leave of a network, whatever they are made for.

- `drift_repairEach`: repairs that hand out no ids keep every id. An element goes only, and a link that leads somewhere
  changes only, where an id of the violations is concerned (`Drift`).
- `renames_repairEach`: with repairs of shared ids among them, an element may also come to a fresh id: one from beyond
  the counter, or one that is not used outside (`Renames`, `Fresh`).
-/
import RoadRules.Proofs.Network.FreshIds
import RoadRules.Proofs.Repair.Forms

namespace RoadRules

/-! ## Drift -/

/-- What becomes of a network under repairs that keep all ids. `A` says which elements may go, by kind and id, and which
links may come and go. -/
structure Drift (A : Kind → ElementId → Prop) (a b : Network) : Prop where
  external : b.external = a.external
  kept : ∀ {h id}, b.idOf? h = some id → a.idOf? h = some id
  lost : ∀ {h id}, a.idOf? h = some id → b.idOf? h = some id ∨ A h.kind id
  links : ∀ {k l l'}, a.lanelets.get? k = some l → b.lanelets.get? k = some l' → ∀ o, ¬ A .lanelet o →
    a.resolves .lanelet o = true → (o ∈ l'.predecessors ↔ o ∈ l.predecessors) ∧ (o ∈ l'.successors ↔ o ∈ l.successors)

namespace Drift

variable {A : Kind → ElementId → Prop} {a b c n : Network}

theorem refl (A : Kind → ElementId → Prop) (a : Network) : Drift A a a where
  external := rfl
  kept h := h
  lost h := Or.inl h
  links hl hl' o _ _ := by cases hl.symm.trans hl'; exact ⟨Iff.rfl, Iff.rfl⟩

/-- what resolves goes on to do so, unless it may go -/
theorem resolves (h : Drift A a b) {kind : Kind} {id : ElementId} (hA : ¬ A kind id)
    (hr : a.resolves kind id = true) : b.resolves kind id = true := by
  rw [Network.resolves_iff] at hr ⊢
  rcases hr with he | ⟨k, hk⟩
  · exact Or.inl (h.external ▸ he)
  · exact Or.inr ⟨k, (h.lost hk).resolve_right hA⟩

theorem trans (h : Drift A a b) (h' : Drift A b c) : Drift A a c where
  external := h'.external.trans h.external
  kept hid := h.kept (h'.kept hid)
  lost hid := (h.lost hid).elim h'.lost Or.inr
  links {k l l''} hl hl'' o hA hr := by
    have hb : b.idOf? ⟨.lanelet, k⟩ = some l''.id := h'.kept (by rw [Network.idOf?_lanelet, hl'']; rfl)
    obtain ⟨l', hl', -⟩ := Option.map_eq_some_iff.1 hb
    obtain ⟨p, s⟩ := h.links hl hl' o hA hr
    obtain ⟨p', s'⟩ := h'.links hl' hl'' o hA (h.resolves hA hr)
    exact ⟨p'.trans p, s'.trans s⟩

theorem hasLocal (h : Drift A a b) {kind : Kind} {id : ElementId} (hb : b.hasLocal kind id = true) :
    a.hasLocal kind id = true := by
  obtain ⟨k, hk⟩ := Network.hasLocal_iff.1 hb
  exact Network.hasLocal_iff.2 ⟨k, h.kept hk⟩

/-- a rewrite under which elements go or keep their ids, and lanelets keep their links -/
theorem of_rewrites {f : Rewrite} (hf : Rewrites f a b) (h : ∀ x e, a.element? x = some e →
      f x e = none ∧ A x.kind e.id ∨ ∃ e', f x e = some e' ∧ e'.id = e.id ∧
        ∀ l l', e = .lanelet l → e' = .lanelet l' → ∀ o, ¬ A .lanelet o → a.resolves .lanelet o = true →
          (o ∈ l'.predecessors ↔ o ∈ l.predecessors) ∧ (o ∈ l'.successors ↔ o ∈ l.successors)) : Drift A a b where
  external := hf.external
  kept {x id} hid := by
    obtain ⟨e', he', rfl⟩ := Network.exists_element hid
    rw [hf.element] at he'
    obtain ⟨e, he, hfe⟩ := Option.bind_eq_some_iff.1 he'
    rcases h x e he with ⟨hnone, -⟩ | ⟨e'', hsome, hid, -⟩
    · rw [hnone] at hfe; cases hfe
    · cases hsome.symm.trans hfe
      rw [hid]
      exact Network.idOf?_of_element? he
  lost {x id} hid := by
    obtain ⟨e, he, rfl⟩ := Network.exists_element hid
    rcases h x e he with ⟨-, hA⟩ | ⟨e', hsome, hid, -⟩
    · exact Or.inr hA
    · refine Or.inl ?_
      rw [← hid]
      exact Network.idOf?_of_element? (by rw [hf.element, he]; exact hsome)
  links {k l l'} hl hl' := by
    have he : a.element? ⟨.lanelet, k⟩ = some (.lanelet l) := Network.element?_eq_lanelet.2 ⟨k, rfl, hl⟩
    have he' : b.element? ⟨.lanelet, k⟩ = some (.lanelet l') := Network.element?_eq_lanelet.2 ⟨k, rfl, hl'⟩
    rw [hf.element, he] at he'
    rcases h _ _ he with ⟨hnone, -⟩ | ⟨e', hsome, -, hlinks⟩
    · rw [Option.bind_some, hnone] at he'; cases he'
    · cases hsome.symm.trans he'
      exact hlinks l l' rfl rfl

/-! ## Steps of repairs -/

/-- an element that may go does so -/
theorem remove {x : Handle} {id : ElementId} (hid : a.idOf? x = some id) (hA : A x.kind id) :
    Drift A a (a.remove x) := by
  refine of_rewrites (Network.rewrites_remove hid) fun y e he => ?_
  by_cases hy : y = x
  · subst hy
    cases hid.symm.trans (Network.idOf?_of_element? he)
    exact Or.inl ⟨if_pos rfl, hA⟩
  · refine Or.inr ⟨_, if_neg hy, ?_, ?_⟩
    · split_ifs
      · rfl
      · exact e.id_forget _ _
    · rintro l l' rfl hl' o ho -
      split_ifs at hl'
      · cases hl'; exact ⟨Iff.rfl, Iff.rfl⟩
      · cases hk : x.kind <;> rw [hk] at hl' hA <;> cases hl' <;> try exact ⟨Iff.rfl, Iff.rfl⟩
        have hne : o ≠ id := by rintro rfl; exact ho hA
        exact ⟨SortedSet.mem_erase.trans (and_iff_left hne), SortedSet.mem_erase.trans (and_iff_left hne)⟩

/-- another version of one element -/
theorem replace {x : Handle} {e e' : Element} (he : a.element? x = some e) (hm : e.Mild a e') :
    Drift A a (a.replace x.key e') := by
  have hk : e'.kind = x.kind := hm.kind.trans (Network.kind_of_element? he)
  refine of_rewrites (a.rewrites_replace hk) fun y e₀ he₀ => Or.inr ⟨_, rfl, ?_, ?_⟩
  · split_ifs with hy
    · subst hy; cases he.symm.trans he₀; exact hm.id
    · rfl
  · rintro l l' rfl hl' o - hr
    split_ifs at hl' with hy
    · subst hy; cases he.symm.trans he₀
      have mild := hm.lanelet l l' rfl hl'
      exact ⟨mild.predecessors o hr, mild.successors o hr⟩
    · cases hl'; exact ⟨Iff.rfl, Iff.rfl⟩

/-- a change of a lanelet without effect on its id and its links -/
theorem note {note : Lanelet → Lanelet} (hn : Lanelet.Noting note) (k : Nat) :
    Drift A a { a with lanelets := a.lanelets.modify k note } := by
  refine of_rewrites (a.rewrites_modifyLanelet k note) fun y e he => Or.inr ⟨_, rfl, ?_, ?_⟩
  · split_ifs
    · cases e with
      | lanelet l => exact hn.id l
      | _ => rfl
    · rfl
  · rintro l l' rfl hl' o - -
    split_ifs at hl' <;> cases hl'
    · rw [hn.predecessors, hn.successors]; exact ⟨Iff.rfl, Iff.rfl⟩
    · exact ⟨Iff.rfl, Iff.rfl⟩

/-- a link completed: it concerns ids that may change, or is there already -/
theorem link {pred succ : Nat} {p s : Lanelet} (hp : a.lanelets.get? pred = some p)
    (hs : a.lanelets.get? succ = some s) (hforth : A .lanelet s.id ∨ s.id ∈ p.successors)
    (hback : A .lanelet p.id ∨ p.id ∈ s.predecessors) : Drift A a (a.link pred succ) where
  external := (Network.rewrites_link hp hs).external
  kept hid := a.idOf?_link pred succ _ ▸ hid
  lost hid := Or.inl ((a.idOf?_link pred succ _).trans hid)
  links {k l l'} hl hl' o hA _ := by
    rw [Network.get?_link hp hs, hl] at hl'
    cases hl'
    constructor
    · dsimp only
      split_ifs with hk
      · subst hk
        cases hs.symm.trans hl
        rw [SortedSet.mem_insert, or_iff_right_iff_imp]
        rintro rfl
        exact hback.resolve_left hA
      · rfl
    · dsimp only
      split_ifs with hk
      · subst hk
        cases hp.symm.trans hl
        rw [SortedSet.mem_insert, or_iff_right_iff_imp]
        rintro rfl
        exact hforth.resolve_left hA
      · rfl

/-- a link dropped that concerns ids that may change -/
theorem unlink {pred succ : Nat} {p s : Lanelet} (hp : a.lanelets.get? pred = some p)
    (hs : a.lanelets.get? succ = some s) (hforth : A .lanelet s.id) (hback : A .lanelet p.id) :
    Drift A a (a.unlink pred succ) where
  external := (Network.rewrites_unlink hp hs).external
  kept hid := a.idOf?_unlink pred succ _ ▸ hid
  lost hid := Or.inl ((a.idOf?_unlink pred succ _).trans hid)
  links {k l l'} hl hl' o hA _ := by
    have hs' : o ≠ s.id := by rintro rfl; exact hA hforth
    have hp' : o ≠ p.id := by rintro rfl; exact hA hback
    rw [Network.get?_unlink hp hs, hl] at hl'
    cases hl'
    constructor <;> dsimp only <;> split_ifs <;> simp [hs', hp']

end Drift

/-! ## Forms of repairs -/

namespace Network

variable {A : Kind → ElementId → Prop} {n : Network} {id : ElementId}

theorem drift_fixAll {kind : Kind} (hA : n.hasLocal kind id = true → A kind id)
    {fix : Network → Element → Fix Element} (hf : Moderate fix) : Drift A n (n.fixAll kind id fix).network := by
  refine editEach_induction (P := Drift A n) _ (.refl A n) fun b hb key hkey => ?_
  have hid : n.idOf? ⟨kind, key⟩ = some id := mem_keysWithId.1 hkey
  simp only [fixOne, apply]
  cases he : b.element? ⟨kind, key⟩ with
  | none => exact hb
  | some e =>
    have hide : e.id = id := Option.some.inj ((hb.kept (idOf?_of_element? he)).symm.trans hid)
    dsimp only
    cases hfix : fix b e with
    | keep => exact hb
    | change e' => exact hb.trans (.replace (x := ⟨kind, key⟩) he (hf.change b e e' hfix))
    | remove =>
      exact hb.trans (.remove (idOf?_of_element? he) (hide ▸ hA (hasLocal_iff.2 ⟨key, hid⟩)))

/-- the lanelet under a key notes the ids of a list, and the network has drifted no farther than it may -/
structure Completing (A : Kind → ElementId → Prop) (n : Network) (links : Lanelet → IdSet) (key : Nat)
    (ids : List ElementId) (b : Network) : Prop where
  drift : Drift A n b
  noted : ∀ {l}, b.lanelets.get? key = some l → ∀ o ∈ ids, o ∈ links l

theorem drift_complete {links : Lanelet → IdSet} {edit : Network → Nat → Nat → Edited}
    (hedit : ∀ b key other ids, (∀ i, n.idOf? ⟨.lanelet, key⟩ = some i → i = id ∧ A .lanelet id) →
      (∀ i, n.idOf? ⟨.lanelet, other⟩ = some i → i ∈ ids) → Completing A n links key ids b →
      Completing A n links key ids (edit b key other).network)
    (hA : n.hasLocal .lanelet id = true → A .lanelet id) : Drift A n (n.complete links edit id).network := by
  refine editEach_induction (P := Drift A n) _ (.refl A n) fun b hb key hkey => ?_
  have hid : n.idOf? ⟨.lanelet, key⟩ = some id := mem_keysWithId.1 (show key ∈ n.keysWithId .lanelet id from hkey)
  have start : Completing A n links key (((b.lanelets.get? key).map (links · |>.toList)).getD []) b := by
    refine ⟨hb, fun hl o ho => ?_⟩
    rw [hl] at ho
    exact ho
  refine (editEach_induction (P := Completing A n links key _) _ start fun c hc other hother => ?_).drift
  obtain ⟨o, ho, hother⟩ := List.mem_flatMap.1 hother
  have hido : n.idOf? ⟨.lanelet, other⟩ = some o :=
    hb.kept (mem_keysWithId.1 (show other ∈ b.keysWithId .lanelet o from hother))
  refine hedit c key other _ (fun i hi => ?_) (fun i hi => ?_) hc
  · cases hid.symm.trans hi
    exact ⟨rfl, hA (hasLocal_iff.2 ⟨key, hid⟩)⟩
  · cases hido.symm.trans hi
    exact ho

/-- a link that is new only for the lanelet at the other end -/
theorem Completing.link {links : Lanelet → IdSet} {key pred succ : Nat} {ids : List ElementId} {b : Network}
    (h : Completing A n links key ids b)
    (hforth : ∀ {p s}, b.lanelets.get? pred = some p → b.lanelets.get? succ = some s →
      A .lanelet s.id ∨ s.id ∈ p.successors)
    (hback : ∀ {p s}, b.lanelets.get? pred = some p → b.lanelets.get? succ = some s →
      A .lanelet p.id ∨ p.id ∈ s.predecessors)
    (grow : ∀ l l' : Lanelet, (∀ x ∈ l.predecessors, x ∈ l'.predecessors) → (∀ x ∈ l.successors, x ∈ l'.successors) →
      ∀ o ∈ links l, o ∈ links l') :
    Completing A n links key ids (b.link pred succ) := by
  cases hp : b.lanelets.get? pred with
  | none => simpa only [Network.link, hp] using h
  | some p =>
    cases hs : b.lanelets.get? succ with
    | none => simpa only [Network.link, hp, hs] using h
    | some s =>
      refine ⟨h.drift.trans (.link hp hs (hforth hp hs) (hback hp hs)), fun {l'} hl' o ho => ?_⟩
      rw [get?_link hp hs] at hl'
      obtain ⟨l, hl, rfl⟩ := Option.map_eq_some_iff.1 hl'
      refine grow l _ (fun x hx => ?_) (fun x hx => ?_) o (h.noted hl o ho)
      · dsimp only
        split_ifs
        · exact SortedSet.mem_insert.2 (Or.inr hx)
        · exact hx
      · dsimp only
        split_ifs
        · exact SortedSet.mem_insert.2 (Or.inr hx)
        · exact hx

theorem drift_completeForth (hA : n.hasLocal .lanelet id = true → A .lanelet id) :
    Drift A n (n.complete (·.predecessors) (completeForth id) id).network := by
  refine drift_complete (fun b key other ids hkey hother hb => ?_) hA
  unfold completeForth
  split_ifs
  · refine hb.link (fun {p s} _ hs => ?_) (fun {p s} hp hs => ?_) fun l l' hsub _ => hsub
    · obtain ⟨hid, hA⟩ := hkey s.id (hb.drift.kept (by rw [idOf?_lanelet, hs]; rfl))
      exact Or.inl (hid ▸ hA)
    · exact Or.inr (hb.noted hs _ (hother p.id (hb.drift.kept (by rw [idOf?_lanelet, hp]; rfl))))
  · exact hb

theorem drift_completeBack (hA : n.hasLocal .lanelet id = true → A .lanelet id) :
    Drift A n (n.complete (·.successors) (completeBack id) id).network := by
  refine drift_complete (fun b key other ids hkey hother hb => ?_) hA
  unfold completeBack
  split_ifs
  · refine hb.link (fun {p s} hp hs => ?_) (fun {p s} hp _ => ?_) fun l l' _ hsub => hsub
    · exact Or.inr (hb.noted hp _ (hother s.id (hb.drift.kept (by rw [idOf?_lanelet, hs]; rfl))))
    · obtain ⟨hid, hA⟩ := hkey p.id (hb.drift.kept (by rw [idOf?_lanelet, hp]; rfl))
      exact Or.inl (hid ▸ hA)
  · exact hb

theorem drift_breakTwoWayLinks {other : ElementId} (hA : n.hasLocal .lanelet id = true → A .lanelet id)
    (hother : A .lanelet other) : Drift A n (n.breakTwoWayLinks id other).network := by
  refine editEach_induction (P := Drift A n) _ (.refl A n) fun b hb key hkey => ?_
  have hid : n.idOf? ⟨.lanelet, key⟩ = some id := mem_keysWithId.1 (show key ∈ n.keysWithId .lanelet id from hkey)
  have hAid := hA (hasLocal_iff.2 ⟨key, hid⟩)
  split_ifs
  · have unlinked : Drift A n (b.editEach (b.laneletsWithId other) fun n back =>
        ⟨n.unlink back key, n.canUnlink back key⟩).network := by
      refine editEach_induction (P := Drift A n) _ hb fun c hc back hback => ?_
      have hidb : n.idOf? ⟨.lanelet, back⟩ = some other :=
        hb.kept (mem_keysWithId.1 (show back ∈ b.keysWithId .lanelet other from hback))
      cases hp : c.lanelets.get? back with
      | none => simpa only [Network.unlink, hp] using hc
      | some p =>
        cases hs : c.lanelets.get? key with
        | none => simpa only [Network.unlink, hp, hs] using hc
        | some s =>
          have hpid : p.id = other :=
            Option.some.inj ((hc.kept (by rw [idOf?_lanelet, hp]; rfl)).symm.trans hidb)
          have hsid : s.id = id := Option.some.inj ((hc.kept (by rw [idOf?_lanelet, hs]; rfl)).symm.trans hid)
          exact hc.trans (.unlink hp hs (hsid ▸ hAid) (hpid ▸ hother))
    refine unlinked.trans (.of_rewrites (rewrites_modifyLanelet _ key _) fun y e _ => Or.inr ⟨_, rfl, ?_, ?_⟩)
    · split_ifs
      · cases e <;> rfl
      · rfl
    · rintro l l' rfl hl' o ho -
      have hne : o ≠ other := by rintro rfl; exact ho hother
      split_ifs at hl' <;> cases hl'
      · exact ⟨SortedSet.mem_erase.trans (and_iff_left hne), Iff.rfl⟩
      · exact ⟨Iff.rfl, Iff.rfl⟩
  · exact hb

theorem drift_attach {kind : Kind} (hA : n.hasLocal kind id = true → A kind id) {noted : Lanelet → Bool}
    {note : Lanelet → Lanelet} (hn : Lanelet.Noting note) : Drift A n (n.attach kind noted note id).network := by
  unfold attach
  split_ifs
  · exact .refl A n
  · refine editEach_induction (P := Drift A n) _ (.refl A n) fun b hb key hkey => ?_
    have hid : n.idOf? ⟨kind, key⟩ = some id := mem_keysWithId.1 hkey
    split
    · exact hb.trans (.note hn _)
    · cases hb' : b.idOf? ⟨kind, key⟩ with
      | none =>
        have : b.element? ⟨kind, key⟩ = none := Option.map_eq_none_iff.1 (b.idOf?_eq _ ▸ hb')
        rw [remove_of_absent this]
        exact hb
      | some i =>
        have hi : i = id := Option.some.inj ((hb.kept hb').symm.trans hid)
        exact hb.trans (.remove hb' (hi ▸ hA (hasLocal_iff.2 ⟨key, hid⟩)))

end Network

/-! ## Repairs that hand out no ids -/

/-- may the violation be repaired without going beyond `A`? -/
structure Licensed (A : Kind → ElementId → Prop) (n : Network) (v : Violation) : Prop where
  anchor : ∀ id ∈ v.location.head?, ∀ kind, n.hasLocal kind id = true → A kind id
  partner : v.rule = .nonPredecessorAsSuccessor → ∀ id ∈ v.location.tail.head?, A .lanelet id

theorem Licensed.drift {A : Kind → ElementId → Prop} {a b : Network} {v : Violation} (h : Licensed A a v)
    (hd : Drift A a b) : Licensed A b v where
  anchor id hid kind hb := h.anchor id hid kind (hd.hasLocal hb)
  partner := h.partner

namespace RoadMap

open Network

variable {A : Kind → ElementId → Prop}

theorem drift_repair (m : RoadMap) {v : Violation} (hv : v.rule.topic ≠ .general) (h : Licensed A m.network v) :
    Drift A m.network (m.repair v).1.network ∧ (m.repair v).1.ids = m.ids := by
  obtain ⟨r, location⟩ := v
  cases location with
  | nil => exact ⟨.refl A _, rfl⟩
  | cons id rest =>
    have hA := h.anchor id rfl
    obtain ⟨edit, hform, hrepair⟩ := RuleId.exists_form hv id rest
    change Drift A m.network (r.repairAt m id rest).1.network ∧ (r.repairAt m id rest).1.ids = m.ids
    rw [hrepair]
    refine ⟨?_, rfl⟩
    cases hform with
    | decision _ moderate => exact drift_fixAll (hA _) moderate
    | forth => exact drift_completeForth (hA .lanelet)
    | back => exact drift_completeBack (hA .lanelet)
    | breaking hr hother =>
      refine drift_breakTwoWayLinks (hA .lanelet) (h.partner hr _ ?_)
      rw [List.tail_cons, hother]
      rfl
    | nothing => exact .refl A _
    | attaching notes => exact drift_attach (hA _) notes.noting

/-- **Repairs that hand out no ids.** -/
theorem drift_repairEach (m : RoadMap) (vs : List Violation) (hv : ∀ v ∈ vs, v.rule.topic ≠ .general)
    (h : ∀ v ∈ vs, Licensed A m.network v) :
    Drift A m.network (m.repairEach vs).1.network ∧ (m.repairEach vs).1.ids = m.ids := by
  induction vs generalizing m with
  | nil => exact ⟨.refl A _, rfl⟩
  | cons v vs ih =>
    obtain ⟨drift, hids⟩ := m.drift_repair (hv v List.mem_cons_self) (h v List.mem_cons_self)
    obtain ⟨drift', hids'⟩ := ih (m.repair v).1 (fun w hw => hv w (List.mem_cons_of_mem _ hw))
      fun w hw => (h w (List.mem_cons_of_mem _ hw)).drift drift
    exact ⟨drift.trans drift', hids'.trans hids⟩

end RoadMap

/-! ## Repairs that hand out ids -/

/-- an id from beyond a watermark, or one of which no element outside makes use -/
def Fresh (watermark : Nat) (external : ExternalIds) (id : ElementId) : Prop :=
  watermark ≤ id.toNat ∨ ∀ kind, external.contains kind id = false

/-- what becomes of a network under all sorts of repairs: elements keep their ids, go or come to fresh ones -/
structure Renames (watermark : Nat) (a b : Network) : Prop where
  external : b.external = a.external
  ids : ∀ {h id}, b.idOf? h = some id →
    a.idOf? h = some id ∨ (∃ old, a.idOf? h = some old) ∧ Fresh watermark a.external id

namespace Renames

variable {w : Nat} {a b c : Network}

theorem refl (w : Nat) (a : Network) : Renames w a a := ⟨rfl, Or.inl⟩

theorem trans (h : Renames w a b) (h' : Renames w b c) : Renames w a c where
  external := h'.external.trans h.external
  ids {x id} hid := by
    rcases h'.ids hid with hb | ⟨⟨old, hb⟩, fresh⟩
    · exact h.ids hb
    · refine Or.inr ⟨?_, h.external ▸ fresh⟩
      rcases h.ids hb with ha | ⟨ha, -⟩
      · exact ⟨old, ha⟩
      · exact ha

theorem of_drift {A : Kind → ElementId → Prop} (h : Drift A a b) : Renames w a b :=
  ⟨h.external, fun hid => Or.inl (h.kept hid)⟩

/-- another id for an element -/
theorem setId (h : Handle) {id : ElementId} (hf : Fresh w a.external id) : Renames w a (a.setId h id) where
  external := (a.rewrites_setId h id).external
  ids {x i} hi := by
    obtain ⟨e', he', rfl⟩ := Network.exists_element hi
    rw [(a.rewrites_setId h id).element] at he'
    obtain ⟨e, he, hfe⟩ := Option.bind_eq_some_iff.1 he'
    simp only [Rewrite.only, Option.some.injEq] at hfe
    split_ifs at hfe
    · subst hfe
      rw [Element.id_withId]
      exact Or.inr ⟨⟨_, Network.idOf?_of_element? he⟩, hf⟩
    · exact Or.inl (hfe ▸ Network.idOf?_of_element? he)

end Renames

namespace RoadMap

open Network

variable {w : Nat}

/-- an id that is drawn lies beyond the watermark, or is not in use -/
theorem fresh_of_freshId? {m m' : RoadMap} {id : ElementId} (h : m.freshId? = some (id, m'))
    (hw : w ≤ m.ids.watermark) :
    m'.network = m.network ∧ w ≤ m'.ids.watermark ∧ Fresh w m.network.external id := by
  obtain ⟨hnetwork, ⟨hid, hmark⟩ | ⟨-, hids, hunused⟩⟩ := freshId?_cases h
  · exact ⟨hnetwork, by omega, Or.inl (by omega)⟩
  · refine ⟨hnetwork, hids ▸ hw, Or.inr fun kind => ?_⟩
    have := not_resolves_of_unused hunused kind
    rw [resolves, Bool.or_eq_false_iff] at this
    exact this.1

theorem renames_reassignAll (m : RoadMap) (hs : List Handle) (hw : w ≤ m.ids.watermark) :
    Renames w m.network (m.reassignAll hs).1.network ∧ w ≤ (m.reassignAll hs).1.ids.watermark := by
  induction hs generalizing m with
  | nil => exact ⟨.refl w _, hw⟩
  | cons h hs ih =>
    simp only [reassignAll]
    cases hr : m.reassignId? h with
    | none => exact ih m hw
    | some d =>
      obtain ⟨id, m'⟩ := d
      obtain ⟨-, m₁, hf, rfl⟩ := exists_of_reassignId? hr
      obtain ⟨hn, hw', fresh⟩ := fresh_of_freshId? hf hw
      obtain ⟨renames, hw''⟩ := ih { m₁ with network := m₁.network.setId h id } hw'
      rw [← hn] at fresh ⊢
      exact ⟨(Renames.setId h fresh).trans renames, hw''⟩

theorem renames_repair (m : RoadMap) (v : Violation) (hw : w ≤ m.ids.watermark) :
    Renames w m.network (m.repair v).1.network ∧ w ≤ (m.repair v).1.ids.watermark := by
  by_cases hv : v.rule.topic = .general
  · obtain ⟨r, location⟩ := v
    cases location with
    | nil => exact ⟨.refl w _, hw⟩
    | cons id rest =>
      change Renames w m.network (r.repairAt m id rest).1.network ∧ w ≤ (r.repairAt m id rest).1.ids.watermark
      rw [RuleId.repairAt_general hv]
      exact m.renames_reassignAll _ hw
  · obtain ⟨drift, hids⟩ := m.drift_repair (A := fun _ _ => True) hv ⟨fun _ _ _ _ => trivial, fun _ _ _ => trivial⟩
    exact ⟨.of_drift drift, hids ▸ hw⟩

/-- **Repairs of all sorts.** -/
theorem renames_repairEach (m : RoadMap) (vs : List Violation) (hw : w ≤ m.ids.watermark) :
    Renames w m.network (m.repairEach vs).1.network ∧ w ≤ (m.repairEach vs).1.ids.watermark := by
  induction vs generalizing m with
  | nil => exact ⟨.refl w _, hw⟩
  | cons v vs ih =>
    obtain ⟨renames, hw'⟩ := m.renames_repair v hw
    obtain ⟨renames', hw''⟩ := ih (m.repair v).1 hw'
    exact ⟨renames.trans renames', hw''⟩

end RoadMap

end RoadRules
