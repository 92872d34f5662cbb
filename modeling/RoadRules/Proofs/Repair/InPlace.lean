/-
A repair of a neighbourhood is a repair in place.

- `repair_neighbourhood`: whatever the rule and the location, repairing a copy of the neighbourhood of the location's
  ids and writing it back gives the network that repairing it directly gives, with the same answer to whether anything
  changed; outside the neighbourhood no element changes.

Every form of repair is followed by the copy. What it looks at is in the neighbourhood or can be told from what
resolves; the cases differ in what has to be known about the elements on the way (`Settled`, `Linking`, `Attaching`).
-/
import RoadRules.Proofs.Network.FreshIds
import RoadRules.Proofs.Network.Nearest
import RoadRules.Proofs.Repair.Following
import RoadRules.Proofs.Repair.Forms

namespace RoadRules

namespace Network

variable {n m c m' c' : Network} {s : Scope} {ids : List ElementId}

/-! ## Decisions -/

/-- an element that keeps its id, and an intersection that lets no traffic come in from elsewhere -/
structure Calm (e e' : Element) : Prop where
  id : e'.id = e.id
  intersection : ∀ i', e' = .intersection i' → ∃ i, e = .intersection i ∧ i.Mild i'

theorem Calm.refl (e : Element) : Calm e e := ⟨rfl, fun i he => ⟨i, he, .refl i⟩⟩

theorem Calm.trans {e e' e'' : Element} (h : Calm e e') (h' : Calm e' e'') : Calm e e'' where
  id := h'.id.trans h.id
  intersection i'' he := by
    obtain ⟨i', hi', mild'⟩ := h'.intersection i'' he
    obtain ⟨i, hi, mild⟩ := h.intersection i' hi'
    exact ⟨i, hi, mild.trans mild'⟩

theorem Calm.of_mild {e e' : Element} (h : e.Mild n e') : Calm e e' where
  id := h.id
  intersection i' he := by
    cases e with
    | intersection i => exact ⟨i, rfl, h.intersection i i' rfl he⟩
    | _ => subst he; cases h.kind

theorem Calm.forget (kind : Kind) (id : ElementId) (e : Element) : Calm e (e.forget kind id) where
  id := e.id_forget kind id
  intersection i' he := by
    cases e with
    | intersection i =>
      refine ⟨i, rfl, ?_⟩
      cases kind
      case lanelet =>
        cases he
        refine ⟨rfl, fun g' hg' => ?_⟩
        obtain ⟨g, hg, rfl⟩ := List.mem_map.1 hg'
        exact ⟨g, hg, fun o ho => (SortedSet.mem_erase.1 ho).1⟩
      all_goals
        cases he
        exact Intersection.Mild.refl _
    | lanelet l => cases kind <;> cases he
    | trafficSign t => cases he
    | trafficLight t => cases he

/-- the state of decisions that are made on both sides: every element left is still much as it was -/
structure Settled (n : Network) (s : Scope) (m c : Network) : Prop where
  follows : Follows n s m c
  calm : ∀ {x e'}, m.element? x = some e' → ∃ e, n.element? x = some e ∧ Calm e e'

namespace Settled

theorem start (n : Network) (s : Scope) : Settled n s n (n.extract s) :=
  ⟨.start n s, fun he => ⟨_, he, .refl _⟩⟩

theorem idOf? (h : Settled n s m c) {x : Handle} {id : ElementId} (hid : m.idOf? x = some id) :
    n.idOf? x = some id := by
  obtain ⟨e', he', rfl⟩ := exists_element hid
  obtain ⟨e, he, calm⟩ := h.calm he'
  rw [calm.id]
  exact idOf?_of_element? he

/-- edits that leave elements calm -/
theorem step (h : Settled n s m c) {f : Rewrite} (hm : Rewrites f m m') (hf : Follows n s m' c')
    (hcalm : ∀ x e e', m.element? x = some e → f x e = some e' → Calm e e') : Settled n s m' c' where
  follows := hf
  calm {x e''} he := by
    rw [hm.element] at he
    obtain ⟨e', he', hfe⟩ := Option.bind_eq_some_iff.1 he
    obtain ⟨e, he, calm⟩ := h.calm he'
    exact ⟨e, he, calm.trans (hcalm x e' e'' he' hfe)⟩

/-- what follows the lanelets of a group, as far as these are in the scope -/
theorem followers (h : Follows n s m c) {g : IncomingGroup}
    (hg : ∀ o ∈ g.lanelets, ∀ k, m.idOf? ⟨.lanelet, k⟩ = some o → k ∈ s.lanelets) : m.followers g = c.followers g := by
  have hkeys : g.lanelets.toList.flatMap m.laneletsWithId = g.lanelets.toList.flatMap c.laneletsWithId :=
    List.flatMap_congr fun o ho => (h.keysWithId .lanelet (hg o ho)).symm
  have hvals : (g.lanelets.toList.flatMap m.laneletsWithId).filterMap m.lanelets.get? =
      (g.lanelets.toList.flatMap c.laneletsWithId).filterMap c.lanelets.get? := by
    rw [← hkeys]
    refine List.filterMap_congr fun k hk => ?_
    obtain ⟨o, ho, hk⟩ := List.mem_flatMap.1 hk
    have hk : k ∈ m.keysWithId .lanelet o := hk
    exact (h.lanelet_inside (hg o ho k (mem_keysWithId.1 hk))).symm
  have hres : m.resolves .lanelet = c.resolves .lanelet := funext (h.resolves .lanelet)
  simp only [Network.followers, hvals, hres]

/-- carrying out a decision about an element with an id that the scope surrounds -/
theorem fixOne (h : Settled n s m c) (hs : Surrounds n s ids) {fix : Network → Element → Fix Element}
    (hf : Moderate fix) {x : Handle} {id : ElementId} (hid : n.idOf? x = some id) (hm : id ∈ ids) :
    Settled n s (m.fixOne x.kind x.key (fix m)).network (c.fixOne x.kind x.key (fix c)).network ∧
      (m.fixOne x.kind x.key (fix m)).changed = (c.fixOne x.kind x.key (fix c)).changed := by
  have hx : s.Has x := hs.bearers x id hm hid
  simp only [Network.fixOne]
  rw [show c.element? ⟨x.kind, x.key⟩ = m.element? ⟨x.kind, x.key⟩ from h.follows.inside hx]
  cases he : m.element? ⟨x.kind, x.key⟩ with
  | none => exact ⟨h, rfl⟩
  | some e =>
    have he : m.element? x = some e := he
    obtain ⟨e₀, he₀, calm⟩ := h.calm he
    have hid₀ : e₀.id = id := Option.some.inj ((idOf?_of_element? he₀).symm.trans hid)
    have hide : m.idOf? x = some id := (idOf?_of_element? he).trans (congrArg some (calm.id.trans hid₀))
    have same : fix m e = fix c e := by
      refine hf.sees m c e h.follows.resolves fun i hi g hg => followers h.follows fun o ho k hk => ?_
      subst hi
      obtain ⟨i₀, rfl, mild⟩ := calm.intersection i rfl
      obtain ⟨g₀, hg₀, hsub⟩ := mild.incomings g hg
      obtain ⟨y, rfl, hi₀⟩ := element?_eq_intersection.1 he₀
      obtain ⟨l, hl, rfl⟩ := Option.map_eq_some_iff.1 (h.idOf? hk)
      refine hs.intersectionLanelets hi₀ (by rw [show i₀.id = id from hid₀]; exact hm) hl ?_
      simp only [Intersection.lanelets, List.mem_append, List.mem_flatMap, IncomingGroup.allLanelets]
      exact Or.inl ⟨g₀, hg₀, Or.inl (hsub _ ho)⟩
    simp only [apply, ← same]
    cases hfix : fix m e with
    | keep => exact ⟨h, rfl⟩
    | change e' =>
      have mild := hf.change m e e' hfix
      have hk : e'.kind = x.kind := mild.kind.trans (kind_of_element? he)
      have hr := m.rewrites_replace hk
      refine ⟨h.step hr (h.follows.only hr (c.rewrites_replace hk) hx) fun y a a' ha hy => ?_, rfl⟩
      by_cases hyx : y = x
      · subst hyx
        cases he.symm.trans ha
        simp only [Rewrite.only, if_true, Option.some.injEq] at hy
        exact hy ▸ .of_mild mild
      · simp only [Rewrite.only, if_neg hyx, Option.some.injEq] at hy
        exact hy ▸ .refl a
    | remove =>
      have out : ∀ y a, ¬ s.Has y → n.element? y = some a → id ∉ a.refs x.kind :=
        fun y a hy ha href => hy (hs.has_of_ref hid hm ha href)
      refine ⟨h.step (rewrites_remove hide) (h.follows.remove hide hx out) fun y a a' ha hy => ?_, rfl⟩
      unfold Rewrite.removal at hy
      split_ifs at hy
      · cases hy; exact .refl a
      · cases hy; exact .forget _ _ a

end Settled

/-- **Decisions on a copy.** They come out as on the network. -/
theorem follows_fixAll (hs : Surrounds n s ids) {kind : Kind} {id : ElementId} (hm : id ∈ ids)
    {fix : Network → Element → Fix Element} (hf : Moderate fix) :
    Follows n s (n.fixAll kind id fix).network ((n.extract s).fixAll kind id fix).network ∧
      (n.fixAll kind id fix).changed = ((n.extract s).fixAll kind id fix).changed := by
  have hkeys : (n.extract s).keysWithId kind id = n.keysWithId kind id :=
    (Follows.start n s).keysWithId kind fun k hk => hs.bearers _ _ hm hk
  simp only [fixAll, hkeys]
  refine (editEach_induction₂ (R := Settled n s) _ (.start n s) fun a b hab k hk => ?_).imp_left (·.follows)
  exact hab.fixOne hs hf (x := ⟨kind, k⟩) (mem_keysWithId.1 hk) hm

/-! ## Links -/

/-- do only lanelets of the scope bear the id? -/
def BornInside (n : Network) (s : Scope) (id : ElementId) : Prop :=
  ∀ k, n.idOf? ⟨.lanelet, k⟩ = some id → k ∈ s.lanelets

/-- the state of links that are completed on both sides: what is linked with the lanelets with the id is in the
scope -/
structure Linking (n : Network) (s : Scope) (id : ElementId) (m c : Network) : Prop where
  follows : Follows n s m c
  kept : ∀ {x i}, m.idOf? x = some i → n.idOf? x = some i
  links : ∀ {k l}, m.lanelets.get? k = some l → l.id = id → ∀ o, o ∈ l.predecessors ∨ o ∈ l.successors →
    n.BornInside s o

namespace Linking

variable {id : ElementId}

theorem start (hs : Surrounds n s ids) (hm : id ∈ ids) : Linking n s id n (n.extract s) where
  follows := .start n s
  kept h := h
  links {k l} hl hid o ho j hj := by
    obtain ⟨b, hb, rfl⟩ := Option.map_eq_some_iff.1 hj
    refine hs.links hb hl (hid ▸ hm) ?_
    simp only [Lanelet.touches, Bool.or_eq_true, List.contains_iff_mem, Lanelet.linkedLanelets, List.mem_append,
      SortedSet.mem_toList]
    exact Or.inr (Or.inl (Or.inl ho))

/-- a new link between lanelets whose ids only lanelets of the scope bear -/
theorem link (h : Linking n s id m c) {pred succ : Nat} (hp : ∀ i, n.idOf? ⟨.lanelet, pred⟩ = some i → n.BornInside s i)
    (hs : ∀ i, n.idOf? ⟨.lanelet, succ⟩ = some i → n.BornInside s i) (hpred : pred ∈ s.lanelets)
    (hsucc : succ ∈ s.lanelets) :
    Linking n s id (m.link pred succ) (c.link pred succ) ∧ m.canLink pred succ = c.canLink pred succ := by
  obtain ⟨follows, same⟩ := h.follows.link hpred hsucc
  refine ⟨⟨follows, fun hid => h.kept (m.idOf?_link pred succ _ ▸ hid), ?_⟩, same⟩
  cases hmp : m.lanelets.get? pred with
  | none => intro k l; simpa only [Network.link, hmp] using h.links (k := k) (l := l)
  | some p =>
    cases hms : m.lanelets.get? succ with
    | none => intro k l; simpa only [Network.link, hmp, hms] using h.links (k := k) (l := l)
    | some q =>
      intro k l hl hid o ho
      rw [get?_link hmp hms] at hl
      obtain ⟨l₀, hl₀, rfl⟩ := Option.map_eq_some_iff.1 hl
      have idOf : ∀ {j : Nat} {l : Lanelet}, m.lanelets.get? j = some l → n.idOf? ⟨.lanelet, j⟩ = some l.id :=
        fun hj => h.kept (by rw [idOf?_lanelet, hj]; rfl)
      rcases ho with ho | ho
      · have ho : o = p.id ∨ o ∈ l₀.predecessors := by
          dsimp only at ho
          split_ifs at ho
          · exact SortedSet.mem_insert.1 ho
          · exact Or.inr ho
        rcases ho with rfl | ho
        · exact hp _ (idOf hmp)
        · exact h.links hl₀ hid o (Or.inl ho)
      · have ho : o = q.id ∨ o ∈ l₀.successors := by
          dsimp only at ho
          split_ifs at ho
          · exact SortedSet.mem_insert.1 ho
          · exact Or.inr ho
        rcases ho with rfl | ho
        · exact hs _ (idOf hms)
        · exact h.links hl₀ hid o (Or.inr ho)

end Linking

/-- **Completing links on a copy.** It comes out as on the network. -/
theorem follows_complete (hs : Surrounds n s ids) {id : ElementId} (hm : id ∈ ids) {links : Lanelet → IdSet}
    (hlinks : ∀ l o, o ∈ links l → o ∈ l.predecessors ∨ o ∈ l.successors) {edit : Network → Nat → Nat → Edited}
    (hedit : ∀ a b, Linking n s id a b → ∀ key other, (∀ i, n.idOf? ⟨.lanelet, key⟩ = some i → n.BornInside s i) →
      (∀ i, n.idOf? ⟨.lanelet, other⟩ = some i → n.BornInside s i) → key ∈ s.lanelets → other ∈ s.lanelets →
      Linking n s id (edit a key other).network (edit b key other).network ∧
        (edit a key other).changed = (edit b key other).changed) :
    Follows n s (n.complete links edit id).network ((n.extract s).complete links edit id).network ∧
      (n.complete links edit id).changed = ((n.extract s).complete links edit id).changed := by
  have hkeys : (n.extract s).laneletsWithId id = n.laneletsWithId id :=
    (Follows.start n s).keysWithId .lanelet fun k hk => hs.bearers _ _ hm hk
  simp only [complete, hkeys]
  refine (editEach_induction₂ (R := Linking n s id) _ (.start hs hm) fun a b hab key hkey => ?_).imp_left (·.follows)
  have hid : n.idOf? ⟨.lanelet, key⟩ = some id := mem_keysWithId.1 (show key ∈ n.keysWithId .lanelet id from hkey)
  have inside : key ∈ s.lanelets := hs.bearers _ _ hm hid
  have born : ∀ i, n.idOf? ⟨.lanelet, key⟩ = some i → n.BornInside s i := by
    intro i hi k hk
    cases hid.symm.trans hi
    exact hs.bearers _ _ hm hk
  -- the lanelets noted are the same on both sides, and all in the scope
  have noted : ∀ o ∈ ((a.lanelets.get? key).map (links · |>.toList)).getD [], n.BornInside s o := by
    intro o ho
    cases hl : a.lanelets.get? key with
    | none => rw [hl] at ho; cases ho
    | some l =>
      rw [hl] at ho
      have hlid : some l.id = some id := (hab.kept (by rw [idOf?_lanelet, hl]; rfl)).symm.trans hid
      exact hab.links hl (Option.some.inj hlid) o (hlinks l o ho)
  have items : (((b.lanelets.get? key).map (links · |>.toList)).getD []).flatMap b.laneletsWithId =
      (((a.lanelets.get? key).map (links · |>.toList)).getD []).flatMap a.laneletsWithId := by
    rw [hab.follows.lanelet_inside inside]
    exact List.flatMap_congr fun o ho =>
      hab.follows.keysWithId .lanelet fun k hk => noted o ho k (hab.kept hk)
  rw [items]
  refine editEach_induction₂ _ hab fun a' b' hab' other hother => ?_
  obtain ⟨o, ho, hother⟩ := List.mem_flatMap.1 hother
  have hido : n.idOf? ⟨.lanelet, other⟩ = some o :=
    hab.kept (mem_keysWithId.1 (show other ∈ a.keysWithId .lanelet o from hother))
  refine hedit a' b' hab' key other born (fun i hi => ?_) inside (noted o ho other hido)
  cases hido.symm.trans hi
  exact noted o ho

theorem follows_completeForth (hs : Surrounds n s ids) {id : ElementId} (hm : id ∈ ids) :
    Follows n s (n.complete (·.predecessors) (completeForth id) id).network
        ((n.extract s).complete (·.predecessors) (completeForth id) id).network ∧
      (n.complete (·.predecessors) (completeForth id) id).changed =
        ((n.extract s).complete (·.predecessors) (completeForth id) id).changed := by
  refine follows_complete hs hm (fun l o ho => Or.inl ho) fun a b hab key other hk ho ik io => ?_
  simp only [completeForth, hab.follows.lanelet_inside io]
  split_ifs
  · exact hab.link ho hk io ik
  · exact ⟨hab, rfl⟩

theorem follows_completeBack (hs : Surrounds n s ids) {id : ElementId} (hm : id ∈ ids) :
    Follows n s (n.complete (·.successors) (completeBack id) id).network
        ((n.extract s).complete (·.successors) (completeBack id) id).network ∧
      (n.complete (·.successors) (completeBack id) id).changed =
        ((n.extract s).complete (·.successors) (completeBack id) id).changed := by
  refine follows_complete hs hm (fun l o ho => Or.inr ho) fun a b hab key other hk ho ik io => ?_
  simp only [completeBack, hab.follows.lanelet_inside io]
  split_ifs
  · exact hab.link hk ho ik io
  · exact ⟨hab, rfl⟩

/-- the state of edits that keep all ids -/
structure Steady (n : Network) (s : Scope) (m c : Network) : Prop where
  follows : Follows n s m c
  kept : ∀ {x i}, m.idOf? x = some i → n.idOf? x = some i

/-- **Breaking links on a copy.** It comes out as on the network. -/
theorem follows_breakTwoWayLinks (hs : Surrounds n s ids) {id other : ElementId} (hm : id ∈ ids) (ho : other ∈ ids) :
    Follows n s (n.breakTwoWayLinks id other).network ((n.extract s).breakTwoWayLinks id other).network ∧
      (n.breakTwoWayLinks id other).changed = ((n.extract s).breakTwoWayLinks id other).changed := by
  have hkeys : (n.extract s).laneletsWithId id = n.laneletsWithId id :=
    (Follows.start n s).keysWithId .lanelet fun k hk => hs.bearers _ _ hm hk
  simp only [breakTwoWayLinks, hkeys]
  refine (editEach_induction₂ (R := Steady n s) _ ⟨.start n s, fun h => h⟩ fun a b hab key hkey => ?_).imp_left
    (·.follows)
  have ik : key ∈ s.lanelets :=
    hs.bearers ⟨.lanelet, key⟩ _ hm (mem_keysWithId.1 (show key ∈ n.keysWithId .lanelet id from hkey))
  have backs : b.laneletsWithId other = a.laneletsWithId other :=
    hab.follows.keysWithId .lanelet fun k hk => hs.bearers _ _ ho (hab.kept hk)
  simp only [hab.follows.lanelet_inside ik, backs]
  split_ifs
  · let cut := fun (n : Network) (back : Nat) => (⟨n.unlink back key, n.canUnlink back key⟩ : Edited)
    have edits : Steady n s (a.editEach (a.laneletsWithId other) cut).network
          (b.editEach (a.laneletsWithId other) cut).network ∧
        (a.editEach (a.laneletsWithId other) cut).changed = (b.editEach (a.laneletsWithId other) cut).changed := by
      refine editEach_induction₂ (R := Steady n s) _ hab fun a' b' hab' back hback => ?_
      have ib : back ∈ s.lanelets := hs.bearers ⟨.lanelet, back⟩ _ ho
        (hab.kept (mem_keysWithId.1 (show back ∈ a.keysWithId .lanelet other from hback)))
      obtain ⟨follows, same⟩ := hab'.follows.unlink ib ik
      exact ⟨⟨follows, fun hid => hab'.kept (a'.idOf?_unlink back key _ ▸ hid)⟩, same⟩
    simp only [cut] at edits
    obtain ⟨unlinked, same⟩ := edits
    simp only [Edited.andThen, forgetPredecessor, same, unlinked.follows.lanelet_inside ik]
    refine ⟨⟨unlinked.follows.only (rewrites_modifyLanelet _ key _) (rewrites_modifyLanelet _ key _) ik, ?_⟩, trivial⟩
    intro x i hid
    rw [idOf?_modifyLanelet] at hid
    · exact unlinked.kept hid
    · exact fun _ => rfl
  · exact ⟨hab, rfl⟩

/-! ## References back -/

/-- the distance from a point to an element, if it is a lanelet near enough to be referred from -/
def distance? (e : Element) (p : Point) : Option Float :=
  match e with
  | .lanelet l => l.distanceWithin? p attachDistance
  | _ => none

theorem bind_distance? (n : Network) (k : Nat) (p : Point) :
    (n.element? ⟨.lanelet, k⟩).bind (distance? · p) =
      (n.lanelets.get? k).bind (·.distanceWithin? p attachDistance) := by
  simp only [element?]
  cases n.lanelets.get? k <;> rfl

/-- a sign or a light without a reference has its nearest lanelet in the scope -/
theorem Surrounds.nearest (hs : Surrounds n s ids) {x : Handle} {e : Element} {p : Point} {j : Nat}
    (he : n.element? x = some e) (hm : e.id ∈ ids)
    (hno : ∀ i l, n.lanelets.get? i = some l → e.id ∉ (Element.lanelet l).refs x.kind)
    (hp : e.position? = some p) (hj : n.nearestLanelet? p attachDistance = some j) : j ∈ s.lanelets := by
  cases e with
  | trafficSign t =>
    obtain ⟨k, rfl, ht⟩ := element?_eq_trafficSign.1 he
    exact hs.nearestToSign ht hm hno hp hj
  | trafficLight t =>
    obtain ⟨k, rfl, ht⟩ := element?_eq_trafficLight.1 he
    exact hs.nearestToLight ht hm hno hp hj
  | lanelet l => cases hp
  | intersection i => cases hp

/-- the state of signs or lights that are attached on both sides: those that are left are as they were, and all
lanelets lie where they lay -/
structure Attaching (n : Network) (s : Scope) (kind : Kind) (m c : Network) : Prop where
  follows : Follows n s m c
  same : ∀ {x e}, x.kind = kind → m.element? x = some e → n.element? x = some e
  course : ∀ k p, (m.element? ⟨.lanelet, k⟩).bind (distance? · p) = (n.element? ⟨.lanelet, k⟩).bind (distance? · p)

namespace Attaching

variable {kind : Kind}

theorem start (n : Network) (s : Scope) (kind : Kind) : Attaching n s kind n (n.extract s) :=
  ⟨.start n s, fun _ he => he, fun _ _ => rfl⟩

/-- edits that change no element of the kind, and no course of a lanelet -/
theorem step (h : Attaching n s kind m c) {f : Rewrite} (hm : Rewrites f m m') (hf : Follows n s m' c')
    (same : ∀ x e e', x.kind = kind → e.kind = kind → f x e = some e' → e' = e)
    (course : ∀ k e, ∃ e', f ⟨.lanelet, k⟩ e = some e' ∧ ∀ p, distance? e' p = distance? e p) :
    Attaching n s kind m' c' where
  follows := hf
  same {x e'} hx he := by
    rw [hm.element] at he
    obtain ⟨e, he, hfe⟩ := Option.bind_eq_some_iff.1 he
    rw [same x e e' hx ((kind_of_element? he).trans hx) hfe]
    exact h.same hx he
  course k p := by
    rw [← h.course, hm.element]
    cases m.element? ⟨.lanelet, k⟩ with
    | none => rfl
    | some e =>
      obtain ⟨e', hfe, hd⟩ := course k e
      simp [hfe, hd]

/-- the nearest lanelet, if it is in the scope -/
theorem nearest (h : Attaching n s kind m c) (p : Point)
    (hs : ∀ j, n.nearestLanelet? p attachDistance = some j → j ∈ s.lanelets) :
    m.nearestLanelet? p attachDistance = n.nearestLanelet? p attachDistance ∧
      c.nearestLanelet? p attachDistance = n.nearestLanelet? p attachDistance := by
  refine ⟨nearestLanelet?_of_subset (fun _ => true) (fun k => ?_) fun _ _ => rfl,
    nearestLanelet?_of_subset s.lanelets.contains (fun k => ?_) fun j hj => SortedSet.contains_iff.2 (hs j hj)⟩
  · rw [← bind_distance?, ← bind_distance?, h.course, if_pos rfl]
  · rw [← bind_distance?, ← bind_distance?, ← h.course, SortedSet.contains_eq]
    by_cases hk : k ∈ s.lanelets
    · rw [h.follows.inside (h := ⟨.lanelet, k⟩) hk, if_pos (by simpa using hk)]
    · rw [h.follows.nothing (h := ⟨.lanelet, k⟩) hk, if_neg (by simpa using hk)]; rfl

/-- a lanelet of the scope notes something -/
theorem note (h : Attaching n s kind m c) (hkind : kind ≠ .lanelet) {note : Lanelet → Lanelet}
    (hnote : Lanelet.Noting note) {j : Nat} (hj : j ∈ s.lanelets) :
    Attaching n s kind { m with lanelets := m.lanelets.modify j note }
      { c with lanelets := c.lanelets.modify j note } := by
  have follows := h.follows.only (x := ⟨.lanelet, j⟩) (rewrites_modifyLanelet m j note)
    (rewrites_modifyLanelet c j note) hj
  refine h.step (rewrites_modifyLanelet m j note) follows (fun y e e' hy _ he => ?_) fun k e => ⟨_, rfl, fun p => ?_⟩
  · have : y ≠ ⟨.lanelet, j⟩ := by rintro rfl; exact hkind hy.symm
    simpa [Rewrite.only, this, eq_comm] using he
  · split_ifs
    · cases e with
      | lanelet l => exact hnote.distance l p _
      | _ => rfl
    · rfl

/-- an element with an id that the scope surrounds goes -/
theorem remove (h : Attaching n s kind m c) (hs : Surrounds n s ids) (hkind : kind ≠ .lanelet) {key : Nat}
    {id : ElementId} (hm : id ∈ ids) (hid : n.idOf? ⟨kind, key⟩ = some id) :
    Attaching n s kind (m.remove ⟨kind, key⟩) (c.remove ⟨kind, key⟩) := by
  have hx : s.Has ⟨kind, key⟩ := hs.bearers _ _ hm hid
  cases he : m.element? ⟨kind, key⟩ with
  | none =>
    rw [remove_of_absent he, remove_of_absent ((h.follows.inside hx).trans he)]
    exact h
  | some e =>
    have hide : m.idOf? ⟨kind, key⟩ = some id := by rw [idOf?_eq, ← hid, idOf?_eq, he, h.same rfl he]
    have follows := h.follows.remove hide hx fun y a hy ha href => hy (hs.has_of_ref hid hm ha href)
    refine h.step (rewrites_remove hide) follows (fun y e e' hy hek he => ?_) fun k e => ?_
    · unfold Rewrite.removal at he
      split_ifs at he
      · cases he; rfl
      · cases he
        subst hek
        cases e with
        | lanelet l => exact absurd rfl hkind
        | _ => rfl
    · have : (⟨.lanelet, k⟩ : Handle) ≠ ⟨kind, key⟩ := fun h => hkind (congrArg Handle.kind h).symm
      refine ⟨_, if_neg this, fun p => ?_⟩
      split_ifs
      · rfl
      · cases e <;> cases kind <;> rfl

/-- **One element attached on a copy.** It is attached to the same lanelet, or removed, as on the network. -/
theorem attachOne (h : Attaching n s kind m c) (hs : Surrounds n s ids) (hkind : kind ≠ .lanelet) {id : ElementId}
    (hm : id ∈ ids) (hno : ∀ k l, n.lanelets.get? k = some l → id ∉ (Element.lanelet l).refs kind)
    {noted : Lanelet → Bool} {note : Lanelet → Lanelet} (hnote : Lanelet.Noting note) {key : Nat}
    (hid : n.idOf? ⟨kind, key⟩ = some id) :
    Attaching n s kind (m.attachOne kind noted note key).network (c.attachOne kind noted note key).network ∧
      (m.attachOne kind noted note key).changed = (c.attachOne kind noted note key).changed := by
  have hx : s.Has ⟨kind, key⟩ := hs.bearers _ _ hm hid
  have inside : ∀ e p, m.element? ⟨kind, key⟩ = some e → e.position? = some p →
      ∀ j, n.nearestLanelet? p attachDistance = some j → j ∈ s.lanelets := by
    intro e p he hp j hj
    have he := h.same rfl he
    have hide : e.id = id := Option.some.inj ((idOf?_of_element? he).symm.trans hid)
    exact hs.nearest he (hide ▸ hm) (fun i l hl => hide ▸ hno i l hl) hp hj
  have nearest : ∀ e p, m.element? ⟨kind, key⟩ = some e → e.position? = some p →
      m.nearestLanelet? p attachDistance = n.nearestLanelet? p attachDistance ∧
        c.nearestLanelet? p attachDistance = n.nearestLanelet? p attachDistance :=
    fun e p he hp => h.nearest p (inside e p he hp)
  have both : (((m.element? ⟨kind, key⟩).bind Element.position?).bind fun p => c.nearestLanelet? p attachDistance) =
      ((m.element? ⟨kind, key⟩).bind Element.position?).bind fun p => m.nearestLanelet? p attachDistance := by
    refine Option.bind_congr fun p hp => ?_
    obtain ⟨e, he, hp⟩ := Option.bind_eq_some_iff.1 hp
    exact (nearest e p he hp).2.trans (nearest e p he hp).1.symm
  simp only [Network.attachOne, h.follows.inside hx, both]
  cases hnear : ((m.element? ⟨kind, key⟩).bind Element.position?).bind fun p => m.nearestLanelet? p attachDistance with
  | some j =>
    obtain ⟨p, hp, hj⟩ := Option.bind_eq_some_iff.1 hnear
    obtain ⟨e, he, hp⟩ := Option.bind_eq_some_iff.1 hp
    have hjs : j ∈ s.lanelets := inside e p he hp j ((nearest e p he hp).1 ▸ hj)
    exact ⟨h.note hkind hnote hjs, by simp only [h.follows.lanelet_inside hjs]⟩
  | none => exact ⟨h.remove hs hkind hm hid, by simp only [contains, h.follows.idOf?_inside hx]⟩

end Attaching

/-- an id is referred to in the copy if it is in the network, provided that an element bears it -/
theorem Surrounds.referred (hs : Surrounds n s ids) {kind : Kind} {key : Nat} {id : ElementId} (hm : id ∈ ids)
    (hid : n.idOf? ⟨kind, key⟩ = some id) (h : ∃ l ∈ n.lanelets.values, id ∈ (Element.lanelet l).refs kind) :
    ∃ l ∈ (n.extract s).lanelets.values, id ∈ (Element.lanelet l).refs kind := by
  obtain ⟨l, hl, href⟩ := h
  obtain ⟨k, hk⟩ := Store.mem_values.1 hl
  have hin : k ∈ s.lanelets :=
    hs.has_of_ref (x := ⟨kind, key⟩) (y := ⟨.lanelet, k⟩) hid hm (by simp [element?, hk]) href
  exact ⟨l, Store.mem_values.2 ⟨k, by rw [get?_extract_lanelet, if_pos hin, hk]⟩, href⟩

/-- **Attaching signs and lights on a copy.** It comes out as on the network. -/
theorem follows_attach (hs : Surrounds n s ids) {kind : Kind} (hkind : kind ≠ .lanelet) {id : ElementId} (hm : id ∈ ids)
    {noted : Lanelet → Bool} {note : Lanelet → Lanelet} (hnote : Lanelet.Noting note) :
    Follows n s (n.attach kind noted note id).network ((n.extract s).attach kind noted note id).network ∧
      (n.attach kind noted note id).changed = ((n.extract s).attach kind noted note id).changed := by
  have hkeys : (n.extract s).keysWithId kind id = n.keysWithId kind id :=
    (Follows.start n s).keysWithId kind fun k hk => hs.bearers _ _ hm hk
  by_cases hcopy : ∃ l ∈ (n.extract s).lanelets.values, id ∈ (Element.lanelet l).refs kind
  · have href : ∃ l ∈ n.lanelets.values, id ∈ (Element.lanelet l).refs kind := by
      obtain ⟨l, hl, href⟩ := hcopy
      obtain ⟨k, hk⟩ := Store.mem_values.1 hl
      rw [get?_extract_lanelet] at hk
      split_ifs at hk
      exact ⟨l, Store.mem_values.2 ⟨k, hk⟩, href⟩
    rw [attach_unchanged href, attach_unchanged hcopy]
    exact ⟨.start n s, rfl⟩
  · rw [attach_eq_editEach hcopy, hkeys]
    by_cases href : ∃ l ∈ n.lanelets.values, id ∈ (Element.lanelet l).refs kind
    · -- the copy lacks the lanelet that refers to the id, so no element bears the id
      have none_bears : n.keysWithId kind id = [] := List.eq_nil_iff_forall_not_mem.2 fun key hkey =>
        hcopy (hs.referred hm (mem_keysWithId.1 hkey) href)
      rw [attach_unchanged href, none_bears]
      exact ⟨.start n s, rfl⟩
    · rw [attach_eq_editEach href]
      refine (editEach_induction₂ (R := Attaching n s kind) _ (.start n s kind) fun a b hab key hkey => ?_).imp_left
        (·.follows)
      have hno : ∀ k l, n.lanelets.get? k = some l → id ∉ (Element.lanelet l).refs kind :=
        fun k l hl hr => href ⟨l, Store.mem_values.2 ⟨k, hl⟩, hr⟩
      exact hab.attachOne hs hkind hm hno hnote (mem_keysWithId.1 hkey)

/-! ## Fresh ids -/

/-- **Fresh ids on a copy.** The elements of the scope get the ids that they get on the network. -/
theorem follows_reassignAll {hs : List Handle} (hin : ∀ x ∈ hs, s.Has x) {a b : RoadMap}
    (h : Follows n s a.network b.network) (hi : a.ids = b.ids) :
    Follows n s (a.reassignAll hs).1.network (b.reassignAll hs).1.network ∧
      (a.reassignAll hs).1.ids = (b.reassignAll hs).1.ids ∧ (a.reassignAll hs).2 = (b.reassignAll hs).2 := by
  induction hs generalizing a b with
  | nil => exact ⟨h, hi, rfl⟩
  | cons x hs ih =>
    have hx := hin x List.mem_cons_self
    have rest := fun {a b : RoadMap} => ih (a := a) (b := b) fun y hy => hin y (List.mem_cons_of_mem _ hy)
    have there : b.network.contains x = a.network.contains x := by simp only [contains, h.idOf?_inside hx]
    simp only [RoadMap.reassignAll, RoadMap.reassignId?, there]
    by_cases hc : a.network.contains x = true
    · simp only [hc, if_true]
      rcases RoadMap.freshId?_congr hi (smallestUnusedId?_congr h.resolves) with ⟨ha, hb⟩ | ⟨id, ids, ha, hb⟩
      · simp only [ha, hb, Option.map_none]
        exact rest h hi
      · simp only [ha, hb, Option.map_some]
        have follows : Follows n s (a.network.setId x id) (b.network.setId x id) :=
          h.only (a.network.rewrites_setId x id) (b.network.rewrites_setId x id) hx
        obtain ⟨hf, hids, -⟩ := rest (a := ⟨a.network.setId x id, ids⟩) (b := ⟨b.network.setId x id, ids⟩) follows rfl
        exact ⟨hf, hids, trivial⟩
    · simp only [hc]
      exact rest h hi

/-! ## All repairs -/

/-- **Repairs on a copy.** They come out as on the network. -/
theorem follows_repairAt (a : RoadMap) (hs : Surrounds a.network s ids) (r : RuleId) {id : ElementId}
    {rest : List ElementId} (hm : ∀ o ∈ id :: rest, o ∈ ids) :
    Follows a.network s (r.repairAt a id rest).1.network
        (r.repairAt ⟨a.network.extract s, a.ids⟩ id rest).1.network ∧
      (r.repairAt a id rest).1.ids = (r.repairAt ⟨a.network.extract s, a.ids⟩ id rest).1.ids ∧
      (r.repairAt a id rest).2 = (r.repairAt ⟨a.network.extract s, a.ids⟩ id rest).2 := by
  have hid := hm id List.mem_cons_self
  have edited : ∀ {e e' : Edited}, Follows a.network s e.network e'.network ∧ e.changed = e'.changed →
      Follows a.network s (a.edited e).1.network (RoadMap.edited ⟨a.network.extract s, a.ids⟩ e').1.network ∧
        (a.edited e).1.ids = (RoadMap.edited ⟨a.network.extract s, a.ids⟩ e').1.ids ∧
        (a.edited e).2 = (RoadMap.edited ⟨a.network.extract s, a.ids⟩ e').2 :=
    fun h => ⟨h.1, rfl, h.2⟩
  by_cases hgeneral : r.topic = .general
  · have bearers : (a.network.extract s).handlesWithId id = a.network.handlesWithId id :=
      List.flatMap_congr fun kind _ => congrArg (List.map _)
        ((Follows.start a.network s).keysWithId kind fun k hk => hs.bearers _ _ hid hk)
    rw [RuleId.repairAt_general hgeneral, RuleId.repairAt_general hgeneral]
    simp only [RoadMap.separateIds, bearers]
    exact follows_reassignAll
      (fun x hx => hs.bearers x _ hid (mem_handlesWithId.1 (List.mem_of_mem_tail hx))) (.start _ _) rfl
  · obtain ⟨edit, hform, hrepair⟩ := RuleId.exists_form hgeneral id rest
    rw [hrepair, hrepair]
    refine edited ?_
    cases hform with
    | decision _ moderate => exact follows_fixAll hs hid moderate
    | forth => exact follows_completeForth hs hid
    | back => exact follows_completeBack hs hid
    | breaking _ hother =>
      exact follows_breakTwoWayLinks hs hid (hm _ (List.mem_cons_of_mem _ (List.mem_of_head? hother)))
    | nothing => exact ⟨.start _ _, rfl⟩
    | attaching notes => exact follows_attach hs notes.kind_ne hid notes.noting

end Network

/-- **A repair of a neighbourhood is a repair in place.** For every network, rule, location and radius: the repair of a
copy of the neighbourhood of the location's ids, written back, leaves the network that the repair of the network itself
leaves. Counter and answer are the same too, and outside the neighbourhood no element changes. -/
theorem RoadMap.repair_neighbourhood (m : RoadMap) (v : Violation) (radius : Nat) :
    let scope := m.network.aroundAll radius v.location
    let copy := RoadMap.repair ⟨m.network.extract scope, m.ids⟩ v
    let whole := m.repair v
    (RoadMap.merge ⟨m.network, copy.1.ids⟩ scope copy.1.network).network = whole.1.network ∧
      copy.1.ids = whole.1.ids ∧ copy.2 = whole.2 ∧
      ∀ h, ¬ scope.Has h → whole.1.network.element? h = m.network.element? h := by
  intro scope copy whole
  have followed : Network.Follows m.network scope whole.1.network copy.1.network ∧ whole.1.ids = copy.1.ids ∧
      whole.2 = copy.2 := by
    have hs : Network.Surrounds m.network scope v.location := m.network.surrounds_aroundAll radius v.location
    simp only [whole, copy, RoadMap.repair]
    clear_value scope
    cases hl : v.location with
    | nil => exact ⟨.start _ _, rfl, rfl⟩
    | cons id rest => exact Network.follows_repairAt m (hl ▸ hs) v.rule fun _ ho => ho
  obtain ⟨hf, hids, hflag⟩ := followed
  exact ⟨hf.merge_eq, hids.symm, hflag.symm, fun h hs => hf.outside hs⟩

end RoadRules
