/-
The faults of a network into which an edited copy has been written.

- `violates_of_drift`: after repairs that keep all ids, a violation is seen in the copy, or it was there in the network
  before, at an id outside those that the neighbourhood was taken around.
- `shared_of_renames`: after repairs of all sorts the same holds of shared ids.
- `violates_of_extract`: a violation of the copy that is in the network after the merge was there before it.
- `violates_of_copy`: a violation of the edited copy is in the network after the merge, or it is about a sign or a light
  to which a lanelet refers that the copy lacks.
-/
import RoadRules.Proofs.Repair.Drift
import RoadRules.Proofs.Repair.Following
import RoadRules.Proofs.Rule.Locality

namespace RoadRules

namespace Network

variable {n m c : Network} {s : Scope} {ids : List ElementId}

/-- the network with an edited copy written back is followed by the copy -/
theorem EditedCopy.follows (hc : EditedCopy n s c) : Follows n s (n.merge s c) c where
  inside hs := by rw [element?_merge hc, if_pos hs]
  nothing {x} hs := by
    cases he : c.element? x with
    | none => rfl
    | some e => exact absurd (hc.inside (idOf?_of_element? he)).1 hs
  outside hs := by rw [element?_merge hc, if_neg hs]
  present {x e} he := by
    rw [element?_merge hc] at he
    split_ifs at he with hs
    · obtain ⟨-, old, ho⟩ := hc.inside (idOf?_of_element? he)
      obtain ⟨e₀, he₀, -⟩ := exists_element ho
      exact ⟨e₀, he₀⟩
    · exact ⟨e, he⟩
  external := rfl
  copied := hc.external
  nextKey := Follows.nextKey_merge hc

theorem EditedCopy.of_renames {w : Nat} (h : Renames w (n.extract s) c) : EditedCopy n s c where
  external := h.external
  present x id hid := by
    rcases h.ids hid with hid | ⟨old, -⟩
    · exact ⟨id, hid⟩
    · exact old

theorem EditedCopy.of_drift {A : Kind → ElementId → Prop} (h : Drift A (n.extract s) c) : EditedCopy n s c :=
  ⟨h.external, fun _ id hid => ⟨id, h.kept hid⟩⟩

namespace Follows

theorem idOf?_outside (h : Follows n s m c) {x : Handle} (hs : ¬ s.Has x) : m.idOf? x = n.idOf? x := by
  rw [idOf?_eq, idOf?_eq, h.outside hs]

/-- what a copy has drifted, the network has -/
theorem drift (h : Follows n s m c) {A : Kind → ElementId → Prop} (hd : Drift A (n.extract s) c) : Drift A n m where
  external := h.external
  kept {x id} hid := by
    by_cases hs : s.Has x
    · rw [← idOf?_extract_of_has hs]
      exact hd.kept ((h.idOf?_inside hs).trans hid)
    · rwa [← h.idOf?_outside hs]
  lost {x id} hid := by
    by_cases hs : s.Has x
    · rw [← h.idOf?_inside hs]
      exact hd.lost ((idOf?_extract_of_has hs).trans hid)
    · exact Or.inl ((h.idOf?_outside hs).trans hid)
  links {k l l'} hl hl' o hA hr := by
    by_cases hs : k ∈ s.lanelets
    · refine hd.links (k := k) ?_ ((h.lanelet_inside hs).trans hl') o hA ?_
      · rw [get?_extract_lanelet, if_pos hs, hl]
      · rw [resolves_extract, hr]
    · have he : m.element? ⟨.lanelet, k⟩ = n.element? ⟨.lanelet, k⟩ := h.outside hs
      have : l' = l := by simpa [element?, hl, hl'] using he
      exact this ▸ ⟨Iff.rfl, Iff.rfl⟩

end Follows

/-! ## Faults after repairs that keep all ids -/

/-- the fault was there before, at elements with the same ids, and not where the neighbourhood was taken -/
def Before (n : Network) (ids : List ElementId) (f : Fault) (b : List Handle) : Prop :=
  f.At n b ∧ ∀ x ∈ b.head?, ∀ id, n.idOf? x = some id → id ∉ ids

section Merged

variable {A : Kind → ElementId → Prop} (hs : Surrounds n s ids) (h : Follows n s m c) (hd : Drift A n m)
  (hA : ∀ kind id, A kind id → id ∈ ids)

include hs

theorem not_mem_of_outside {x : Handle} (hx : ¬ s.Has x) {id : ElementId} (hid : n.idOf? x = some id) : id ∉ ids :=
  fun hm => hx (hs.bearers x id hm hid)

/-- a lanelet that is linked with one outside the neighbourhood, or is outside itself, has none of its ids -/
theorem not_mem_of_link {i j : Nat} {l k : Lanelet} (hl : n.lanelets.get? i = some l) (hk : n.lanelets.get? j = some k)
    (hlink : k.id ∈ l.linkedLanelets) (hout : ¬ (i ∈ s.lanelets ∧ j ∈ s.lanelets)) : l.id ∉ ids := by
  intro hm
  exact hout ⟨hs.bearers ⟨.lanelet, i⟩ _ hm (by rw [idOf?_lanelet, hl]; rfl),
    hs.links hk hl hm (Lanelet.touches_iff.2 (Or.inr hlink))⟩

include h

theorem own_of_follows {wrong : Element → Bool} {b : List Handle} (hat : (Fault.own wrong).At m b) :
    (Fault.own wrong).At c b ∨ n.Before ids (.own wrong) b := by
  obtain ⟨x, e, rfl, he, hw⟩ := Fault.at_own.1 hat
  by_cases hx : s.Has x
  · exact Or.inl (Fault.at_own.2 ⟨x, e, rfl, (h.inside hx).trans he, hw⟩)
  · refine Or.inr ⟨Fault.at_own.2 ⟨x, e, rfl, (h.outside hx).symm.trans he, hw⟩, ?_⟩
    rintro y ⟨⟩ id hid
    exact not_mem_of_outside hs hx hid

theorem unreferenced_of_follows {kind : Kind} {refs : Lanelet → List ElementId}
    (hf : (Fault.unreferenced kind refs).Followed) {b : List Handle} (hat : (Fault.unreferenced kind refs).At m b) :
    (Fault.unreferenced kind refs).At c b ∨ n.Before ids (.unreferenced kind refs) b := by
  obtain ⟨x, id, rfl, hk, hid, hno⟩ := Fault.at_unreferenced.1 hat
  by_cases hx : s.Has x
  · refine Or.inl (Fault.at_unreferenced.2 ⟨x, id, rfl, hk, (h.idOf?_inside hx).trans hid, fun y l hl => ?_⟩)
    exact hno y l ((h.inside (h.has_of_copy (idOf?_of_element? hl))).symm.trans hl)
  · have hid : n.idOf? x = some id := (h.idOf?_outside hx).symm.trans hid
    refine Or.inr ⟨Fault.at_unreferenced.2 ⟨x, id, rfl, hk, hid, fun y l hl hr => ?_⟩, ?_⟩
    · -- a lanelet that has changed is in the neighbourhood, and then so is the sign or light it refers to
      by_cases hy : s.Has y
      · obtain ⟨j, rfl, hj⟩ := element?_eq_lanelet.1 hl
        obtain ⟨e, he, rfl⟩ := exists_element hid
        rcases hf with ⟨rfl, rfl⟩ | ⟨rfl, rfl⟩
        · obtain ⟨t, ht⟩ := (exists_trafficSign_iff x).2 ⟨hk, e, he⟩
          obtain rfl : e = .trafficSign t := Option.some.inj (he.symm.trans ht)
          obtain ⟨i, rfl, hi⟩ := element?_eq_trafficSign.1 he
          exact hx (hs.signs hy hj hi hr)
        · obtain ⟨t, ht⟩ := (exists_trafficLight_iff x).2 ⟨hk, e, he⟩
          obtain rfl : e = .trafficLight t := Option.some.inj (he.symm.trans ht)
          obtain ⟨i, rfl, hi⟩ := element?_eq_trafficLight.1 he
          exact hx (hs.lights hy hj hi hr)
      · exact hno y l ((h.outside hy).trans hl) hr
    · rintro z ⟨⟩ i hi
      exact not_mem_of_outside hs hx hi

include hd

theorem shared_of_drift {kind : Kind} {b : List Handle} (hat : (Fault.shared kind).At m b) :
    (Fault.shared kind).At c b ∨ n.Before ids (.shared kind) b := by
  obtain ⟨x, rfl, hk, id, hx, y, hne, hy⟩ := Fault.at_shared.1 hat
  by_cases both : s.Has x ∧ s.Has y
  · exact Or.inl (Fault.at_shared.2 ⟨x, rfl, hk, id, (h.idOf?_inside both.1).trans hx, y, hne,
      (h.idOf?_inside both.2).trans hy⟩)
  · refine Or.inr ⟨Fault.at_shared.2 ⟨x, rfl, hk, id, hd.kept hx, y, hne, hd.kept hy⟩, ?_⟩
    rintro z ⟨⟩ i hi
    cases (hd.kept hx).symm.trans hi
    rintro hm
    exact both ⟨hs.bearers _ _ hm (hd.kept hx), hs.bearers _ _ hm (hd.kept hy)⟩

include hA

theorem missing_of_drift {kind : Kind} {refs : Element → List ElementId} (hf : (Fault.missing kind refs).Followed)
    {b : List Handle} (hat : (Fault.missing kind refs).At m b) :
    (Fault.missing kind refs).At c b ∨ n.Before ids (.missing kind refs) b := by
  obtain ⟨x, e, rfl, he, ref, href, hno⟩ := Fault.at_missing.1 hat
  by_cases hx : s.Has x
  · exact Or.inl (Fault.at_missing.2 ⟨x, e, rfl, (h.inside hx).trans he, ref, href, h.resolves kind ref ▸ hno⟩)
  · have he : n.element? x = some e := (h.outside hx).symm.trans he
    -- what refers to an id that has gone is in the neighbourhood
    have hno : n.resolves kind ref = false := by
      by_contra hr
      have hr : n.resolves kind ref = true := by simpa using hr
      have lost : A kind ref := by
        by_contra hlost
        rw [hd.resolves hlost hr] at hno
        cases hno
      rcases resolves_iff.1 hr with hext | ⟨k, hk⟩
      · have : m.resolves kind ref = true := resolves_iff.2 (Or.inl (hd.external ▸ hext))
        rw [this] at hno; cases hno
      · exact hx (hs.has_of_ref hk (hA _ _ lost) he (hf e ref href))
    refine Or.inr ⟨Fault.at_missing.2 ⟨x, e, rfl, he, ref, href, hno⟩, ?_⟩
    rintro y ⟨⟩ id hid
    exact not_mem_of_outside hs hx hid

/-- the lanelets that a lanelet is linked with, if one of the two is outside the neighbourhood, are those that it was
linked with before -/
theorem links_of_drift {i j : Nat} {l k : Lanelet} (hl : m.lanelets.get? i = some l) (hk : m.lanelets.get? j = some k)
    (hout : ¬ (i ∈ s.lanelets ∧ j ∈ s.lanelets)) : ∃ l₀, n.lanelets.get? i = some l₀ ∧ l₀.id = l.id ∧
      (k.id ∈ l.predecessors ↔ k.id ∈ l₀.predecessors) ∧ (k.id ∈ l.successors ↔ k.id ∈ l₀.successors) := by
  have hidl : n.idOf? ⟨.lanelet, i⟩ = some l.id := hd.kept (by rw [idOf?_lanelet, hl]; rfl)
  have hidk : n.idOf? ⟨.lanelet, j⟩ = some k.id := hd.kept (by rw [idOf?_lanelet, hk]; rfl)
  obtain ⟨l₀, hl₀, hid⟩ := Option.map_eq_some_iff.1 hidl
  refine ⟨l₀, hl₀, hid, ?_⟩
  by_cases hi : i ∈ s.lanelets
  · have hA' : ¬ A .lanelet k.id := fun ha => hout ⟨hi, hs.bearers _ _ (hA _ _ ha) hidk⟩
    exact hd.links hl₀ hl k.id hA' (resolves_iff.2 (Or.inr ⟨j, hidk⟩))
  · have he : m.element? ⟨.lanelet, i⟩ = n.element? ⟨.lanelet, i⟩ := h.outside hi
    have : l = l₀ := by simpa [element?, hl, hl₀] using he
    exact this ▸ ⟨Iff.rfl, Iff.rfl⟩

theorem unanswered_of_drift {there back : Lanelet → IdSet} (hf : (Fault.unanswered there back).Followed)
    {b : List Handle} (hat : (Fault.unanswered there back).At m b) :
    (Fault.unanswered there back).At c b ∨ n.Before ids (.unanswered there back) b := by
  obtain ⟨x, l, rfl, hl, y, k, hk, hthere, hback⟩ := Fault.at_unanswered.1 hat
  obtain ⟨i, rfl, hi⟩ := element?_eq_lanelet.1 hl
  obtain ⟨j, rfl, hj⟩ := element?_eq_lanelet.1 hk
  by_cases both : i ∈ s.lanelets ∧ j ∈ s.lanelets
  · exact Or.inl (Fault.at_unanswered.2 ⟨_, l, rfl, (h.inside (h := ⟨.lanelet, i⟩) both.1).trans hl, _, k,
      (h.inside (h := ⟨.lanelet, j⟩) both.2).trans hk, hthere, hback⟩)
  · obtain ⟨l₀, hl₀, hidl, lp, ls⟩ := links_of_drift hs h hd hA hi hj both
    obtain ⟨k₀, hk₀, hidk, kp, ks⟩ := links_of_drift hs h hd hA hj hi fun h => both h.symm
    have hthere₀ : k₀.id ∈ there l₀ := by
      rw [hidk]
      rcases hf with ⟨rfl, -⟩ | ⟨rfl, -⟩
      · exact lp.1 hthere
      · exact ls.1 hthere
    have hback₀ : ¬ l₀.id ∈ back k₀ := by
      rw [hidl]
      rcases hf with ⟨-, rfl⟩ | ⟨-, rfl⟩
      · exact mt ks.2 hback
      · exact mt kp.2 hback
    refine Or.inr ⟨Fault.at_unanswered.2 ⟨_, l₀, rfl, element?_eq_lanelet.2 ⟨i, rfl, hl₀⟩, _, k₀,
      element?_eq_lanelet.2 ⟨j, rfl, hk₀⟩, hthere₀, hback₀⟩, ?_⟩
    rintro z ⟨⟩ id hid
    rw [idOf?_lanelet, hl₀] at hid
    cases hid
    exact not_mem_of_link hs hl₀ hk₀ (hf.linked hthere₀) both

theorem bothWays_of_drift {b : List Handle} (hat : Fault.bothWays.At m b) :
    Fault.bothWays.At c b ∨ n.Before ids .bothWays b := by
  obtain ⟨x, y, l, k, rfl, hl, hk, hp, hsucc⟩ := Fault.at_bothWays.1 hat
  obtain ⟨i, rfl, hi⟩ := element?_eq_lanelet.1 hl
  obtain ⟨j, rfl, hj⟩ := element?_eq_lanelet.1 hk
  by_cases both : i ∈ s.lanelets ∧ j ∈ s.lanelets
  · exact Or.inl (Fault.at_bothWays.2 ⟨_, _, l, k, rfl, (h.inside (h := ⟨.lanelet, i⟩) both.1).trans hl,
      (h.inside (h := ⟨.lanelet, j⟩) both.2).trans hk, hp, hsucc⟩)
  · obtain ⟨l₀, hl₀, hidl, lp, ls⟩ := links_of_drift hs h hd hA hi hj both
    obtain ⟨k₀, hk₀, hidk⟩ : ∃ k₀, n.lanelets.get? j = some k₀ ∧ k₀.id = k.id :=
      Option.map_eq_some_iff.1 (hd.kept (h := ⟨.lanelet, j⟩) (by rw [idOf?_lanelet, hj]; rfl))
    refine Or.inr ⟨Fault.at_bothWays.2 ⟨_, _, l₀, k₀, rfl, element?_eq_lanelet.2 ⟨i, rfl, hl₀⟩,
      element?_eq_lanelet.2 ⟨j, rfl, hk₀⟩, hidk ▸ lp.1 hp, hidk ▸ ls.1 hsucc⟩, ?_⟩
    rintro z ⟨⟩ id hid
    rw [idOf?_lanelet, hl₀] at hid
    cases hid
    exact not_mem_of_link hs hl₀ hk₀ (Lanelet.mem_linkedLanelets.2 (Or.inl (hidk ▸ lp.1 hp))) both

/-- **Faults after repairs.** A fault is seen in the copy, or it was there before, away from the ids of the repairs. -/
theorem at_of_drift {f : Fault} (hf : f.Followed) {b : List Handle} (hat : f.At m b) : f.At c b ∨ n.Before ids f b := by
  cases f with
  | own wrong => exact own_of_follows hs h hat
  | missing kind refs => exact missing_of_drift hs h hd hA hf hat
  | shared kind => exact shared_of_drift hs h hd hat
  | unanswered there back => exact unanswered_of_drift hs h hd hA hf hat
  | bothWays => exact bothWays_of_drift hs h hd hA hat
  | unreferenced kind refs => exact unreferenced_of_follows hs h hf hat

end Merged

/-! ## Violations -/

/-- the elements at which a fault is are there -/
theorem present_of_at {f : Fault} {b : List Handle} (hat : f.At n b) : ∀ x ∈ b, ∃ id, n.idOf? x = some id := by
  intro z hz
  cases f with
  | own wrong =>
    obtain ⟨x, e, rfl, he, -⟩ := Fault.at_own.1 hat
    exact ⟨_, idOf?_of_element? (List.mem_singleton.1 hz ▸ he)⟩
  | missing kind refs =>
    obtain ⟨x, e, rfl, he, -⟩ := Fault.at_missing.1 hat
    exact ⟨_, idOf?_of_element? (List.mem_singleton.1 hz ▸ he)⟩
  | shared kind =>
    obtain ⟨x, rfl, -, id, hid, -⟩ := Fault.at_shared.1 hat
    exact ⟨id, List.mem_singleton.1 hz ▸ hid⟩
  | unanswered there back =>
    obtain ⟨x, l, rfl, hl, -⟩ := Fault.at_unanswered.1 hat
    exact ⟨_, idOf?_of_element? (List.mem_singleton.1 hz ▸ hl)⟩
  | bothWays =>
    obtain ⟨x, y, l, k, rfl, hl, hk, -⟩ := Fault.at_bothWays.1 hat
    rcases List.mem_cons.1 hz with rfl | hz
    · exact ⟨_, idOf?_of_element? hl⟩
    · exact ⟨_, idOf?_of_element? (List.mem_singleton.1 hz ▸ hk)⟩
  | unreferenced kind refs =>
    obtain ⟨x, id, rfl, -, hid, -⟩ := Fault.at_unreferenced.1 hat
    exact ⟨id, List.mem_singleton.1 hz ▸ hid⟩

/-- a fault is at some element, the first one chosen -/
theorem head_of_at {f : Fault} {b : List Handle} (hat : f.At n b) : ∃ x rest, b = x :: rest := by
  cases b with
  | nil => cases f <;> exact hat.elim
  | cons x rest => exact ⟨x, rest, rfl⟩

/-- networks in which some elements bear the same ids give them the same location -/
theorem location_congr {b : List Handle} (h : ∀ x ∈ b, ∀ id, m.idOf? x = some id → n.idOf? x = some id)
    (hp : ∀ x ∈ b, ∃ id, m.idOf? x = some id) : b.filterMap n.idOf? = b.filterMap m.idOf? :=
  List.filterMap_congr fun x hx => by
    obtain ⟨id, hid⟩ := hp x hx
    rw [hid, h x hx id hid]

/-- the first id of a violation is that of the first element at which the fault is -/
theorem head_location {v : Violation} {b : List Handle} (hat : v.rule.fault.At n b)
    (hloc : b.filterMap n.idOf? = v.location) : ∃ x rest id, b = x :: rest ∧ n.idOf? x = some id ∧
      v.location.head? = some id := by
  obtain ⟨x, rest, rfl⟩ := head_of_at hat
  obtain ⟨id, hid⟩ := present_of_at hat x List.mem_cons_self
  rw [List.filterMap_cons_some hid] at hloc
  exact ⟨x, rest, id, rfl, hid, by rw [← hloc]; rfl⟩

/-- **Violations after repairs.** A violation is seen in the copy, or it was there before, away from the ids of the
repairs. -/
theorem violates_of_drift {A : Kind → ElementId → Prop} (hs : Surrounds n s ids) (h : Follows n s m c)
    (hd : Drift A n m) (hA : ∀ kind id, A kind id → id ∈ ids) {v : Violation} (hv : m.Violates v) :
    c.Violates v ∨ n.Violates v ∧ ∀ id ∈ v.location.head?, id ∉ ids := by
  obtain ⟨b, hat, hloc⟩ := hv
  rcases at_of_drift hs h hd hA v.rule.followed hat with hc | ⟨hn, hout⟩
  · refine Or.inl ⟨b, hc, ?_⟩
    rw [← hloc]
    exact (location_congr (n := m) (fun x _ id hid => h.idOf?_inside (h.has_of_copy hid) ▸ hid)
      (present_of_at hc)).symm
  · have hloc' : b.filterMap n.idOf? = v.location := by
      rw [← hloc]
      exact location_congr (fun x _ id hid => hd.kept hid) (present_of_at hat)
    refine Or.inr ⟨⟨b, hn, hloc'⟩, ?_⟩
    obtain ⟨x, rest, id, rfl, hid, hhead⟩ := head_location hn hloc'
    rw [hhead]
    rintro _ ⟨⟩
    exact hout x rfl id hid

/-- **Shared ids after repairs.** A shared id is seen in the copy, or it was shared before and is not one of those of
the repairs. -/
theorem shared_of_renames {w : Nat} (hs : Surrounds n s ids) (h : Follows n s m c)
    (hr : Renames w (n.extract s) c) (hw : ∀ x id, n.idOf? x = some id → id.toNat < w) {v : Violation} {kind : Kind}
    (hf : v.rule.fault = .shared kind) (hv : m.Violates v) :
    c.Violates v ∨ n.Violates v ∧ ∀ id ∈ v.location.head?, id ∉ ids := by
  obtain ⟨b, hat, hloc⟩ := hv
  rw [hf] at hat
  obtain ⟨x, rfl, hk, id, hx, y, hne, hy⟩ := Fault.at_shared.1 hat
  have hloc' : v.location = [id] := by rw [← hloc]; simp [hx]
  -- an id that an element outside bears is not fresh
  have kept : ∀ {p q : Handle}, ¬ s.Has q → m.idOf? q = some id → m.idOf? p = some id → n.idOf? p = some id := by
    intro p q hq hqid hpid
    have hqid : n.idOf? q = some id := (h.idOf?_outside hq).symm.trans hqid
    by_cases hp : s.Has p
    · rcases hr.ids ((h.idOf?_inside hp).trans hpid) with hid | ⟨-, fresh | fresh⟩
      · exact (idOf?_of_extract hid).2
      · have := hw q id hqid
        omega
      · have hext := external_extract.2 (Or.inr ⟨q.key, hq, hqid⟩)
        rw [fresh q.kind] at hext
        cases hext
    · exact (h.idOf?_outside hp).symm.trans hpid
  by_cases both : s.Has x ∧ s.Has y
  · refine Or.inl ⟨[x], ?_, by rw [hloc']; simp [h.idOf?_inside both.1, hx]⟩
    rw [hf]
    exact Fault.at_shared.2 ⟨x, rfl, hk, id, (h.idOf?_inside both.1).trans hx, y, hne,
      (h.idOf?_inside both.2).trans hy⟩
  · have hn : n.idOf? x = some id ∧ n.idOf? y = some id := by
      by_cases hxs : s.Has x
      · have hys : ¬ s.Has y := fun hys => both ⟨hxs, hys⟩
        exact ⟨kept hys hy hx, kept hys hy hy⟩
      · exact ⟨kept hxs hx hx, kept hxs hx hy⟩
    refine Or.inr ⟨⟨[x], ?_, by rw [hloc']; simp [hn.1]⟩, ?_⟩
    · rw [hf]
      exact Fault.at_shared.2 ⟨x, rfl, hk, id, hn.1, y, hne, hn.2⟩
    · rw [hloc']
      rintro i ⟨⟩ hm
      exact both ⟨hs.bearers _ _ hm hn.1, hs.bearers _ _ hm hn.2⟩

/-- A fault of a part of a network is there in the network. The exception is a sign or a light that only lanelets
outside the part refer to. -/
theorem at_of_part (he : ∀ {x e}, c.element? x = some e → m.element? x = some e)
    (hr : ∀ kind id, c.resolves kind id = m.resolves kind id) {f : Fault} {b : List Handle} (hat : f.At c b) :
    f.At m b ∨ ∃ kind refs, f = .unreferenced kind refs ∧ ∃ x id, b = [x] ∧ m.idOf? x = some id ∧
      ∃ y l, m.element? y = some (.lanelet l) ∧ id ∈ refs l := by
  have hid : ∀ {x id}, c.idOf? x = some id → m.idOf? x = some id := by
    intro x id hid
    obtain ⟨e, hx, rfl⟩ := exists_element hid
    exact idOf?_of_element? (he hx)
  cases f with
  | own wrong =>
    obtain ⟨x, e, rfl, hx, hw⟩ := Fault.at_own.1 hat
    exact Or.inl (Fault.at_own.2 ⟨x, e, rfl, he hx, hw⟩)
  | missing kind refs =>
    obtain ⟨x, e, rfl, hx, ref, href, hno⟩ := Fault.at_missing.1 hat
    exact Or.inl (Fault.at_missing.2 ⟨x, e, rfl, he hx, ref, href, hr kind ref ▸ hno⟩)
  | shared kind =>
    obtain ⟨x, rfl, hk, id, hx, y, hne, hy⟩ := Fault.at_shared.1 hat
    exact Or.inl (Fault.at_shared.2 ⟨x, rfl, hk, id, hid hx, y, hne, hid hy⟩)
  | unanswered there back =>
    obtain ⟨x, l, rfl, hl, y, k, hk, hlinks⟩ := Fault.at_unanswered.1 hat
    exact Or.inl (Fault.at_unanswered.2 ⟨x, l, rfl, he hl, y, k, he hk, hlinks⟩)
  | bothWays =>
    obtain ⟨x, y, l, k, rfl, hl, hk, hlinks⟩ := Fault.at_bothWays.1 hat
    exact Or.inl (Fault.at_bothWays.2 ⟨x, y, l, k, rfl, he hl, he hk, hlinks⟩)
  | unreferenced kind refs =>
    obtain ⟨x, id, rfl, hk, hx, -⟩ := Fault.at_unreferenced.1 hat
    by_cases href : ∃ y l, m.element? y = some (.lanelet l) ∧ id ∈ refs l
    · exact Or.inr ⟨kind, refs, rfl, x, id, rfl, hid hx, href⟩
    · push Not at href
      exact Or.inl (Fault.at_unreferenced.2 ⟨x, id, rfl, hk, hid hx, href⟩)

/-- **Violations of the copy.** One that is in the network after the merge was there before it. -/
theorem violates_of_extract (h : Follows n s m c) {v : Violation} (hcopy : (n.extract s).Violates v)
    (hm : m.Violates v) : n.Violates v := by
  obtain ⟨b, hat, hloc⟩ := hcopy
  have hloc' : b.filterMap n.idOf? = v.location :=
    (location_congr (fun x _ id hid => (idOf?_of_extract hid).2) (present_of_at hat)).trans hloc
  rcases at_of_part (fun he => (element?_of_extract he).2) (resolves_extract n s) hat with
    hn | ⟨kind, refs, hf, x, id, rfl, hid, y, l, hl, href⟩
  · exact ⟨b, hn, hloc'⟩
  · -- the lanelet that refers to the id is outside the copy, and still refers to it after the merge
    exfalso
    rw [hf] at hat
    obtain ⟨_, i, ⟨⟩, -, hi, hno⟩ := Fault.at_unreferenced.1 hat
    cases hid.symm.trans (idOf?_of_extract hi).2
    have hy : ¬ s.Has y := fun hy => hno y l ((element?_extract_of_has hy).trans hl) href
    obtain ⟨b', hat', hloc''⟩ := hm
    rw [hf] at hat'
    obtain ⟨x', id', rfl, -, hid', hno'⟩ := Fault.at_unreferenced.1 hat'
    have : id' = id := by
      have e := hloc''.trans hloc'.symm
      simpa [hid, hid'] using e
    exact hno' y l ((h.outside hy).trans hl) (this ▸ href)

/-- does some lanelet refer to the sign or the light that the violation says is not referred to? -/
def Refers (n : Network) (v : Violation) : Prop :=
  ∃ kind refs, v.rule.fault = .unreferenced kind refs ∧
    ∃ id, v.location = [id] ∧ ∃ x l, n.element? x = some (.lanelet l) ∧ id ∈ refs l

/-- **Violations of the edited copy.** The network has them after the merge, unless a lanelet that the copy lacks refers
to what they are about. -/
theorem violates_of_copy (h : Follows n s m c) {v : Violation} (hv : c.Violates v) : m.Violates v ∨ m.Refers v := by
  obtain ⟨b, hat, hloc⟩ := hv
  have inside : ∀ {x e}, c.element? x = some e → m.element? x = some e := fun he =>
    (h.inside (h.has_of_copy (idOf?_of_element? he))).symm.trans he
  have hloc' : b.filterMap m.idOf? = v.location :=
    (location_congr (fun x _ id hid => (h.idOf?_inside (h.has_of_copy hid)).symm.trans hid)
      (present_of_at hat)).trans hloc
  rcases at_of_part inside (fun kind id => (h.resolves kind id).symm) hat with
    hm | ⟨kind, refs, hf, x, id, rfl, hid, hl⟩
  · exact Or.inl ⟨b, hm, hloc'⟩
  · refine Or.inr ⟨kind, refs, hf, id, ?_, hl⟩
    rw [← hloc']
    simp [hid]

end Network

end RoadRules
