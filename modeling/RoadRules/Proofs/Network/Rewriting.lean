/-
Edits of a network, element by element.

A network comes from another by a rewrite (`Rewrites`) if the rewrite says what becomes of each element, and external
ids and the next key are the same. The operations that repairs are made of are rewrites that leave most elements as
they are: a change of one element (`Rewrite.only`), and the removal of one together with the references to its id
(`Rewrite.removal`).
-/
import RoadRules.Proofs.Network.Scoped

namespace RoadRules

/-! ## What elements refer to -/

theorem Lanelet.mem_linkedLanelets {l : Lanelet} {id : ElementId} : id ∈ l.linkedLanelets ↔
    id ∈ l.predecessors ∨ id ∈ l.successors ∨ (∃ a, l.adjacentLeft = some a ∧ a.id = id) ∨
      ∃ a, l.adjacentRight = some a ∧ a.id = id := by
  simp [linkedLanelets, SortedSet.mem_toList]

namespace Lanelet

variable {l : Lanelet} {id o : ElementId}

theorem mem_trafficSignRefs : id ∈ l.trafficSignRefs ↔
    id ∈ l.trafficSigns ∨ ∃ s, l.stopLine = some s ∧ id ∈ s.trafficSigns := by
  rw [trafficSignRefs, List.mem_append, SortedSet.mem_toList]
  cases l.stopLine <;> simp [SortedSet.mem_toList]

theorem mem_trafficLightRefs : id ∈ l.trafficLightRefs ↔
    id ∈ l.trafficLights ∨ ∃ s, l.stopLine = some s ∧ id ∈ s.trafficLights := by
  rw [trafficLightRefs, List.mem_append, SortedSet.mem_toList]
  cases l.stopLine <;> simp [SortedSet.mem_toList]

theorem mem_linkedLanelets_forgetLanelet :
    o ∈ (l.forgetLanelet id).linkedLanelets ↔ o ∈ l.linkedLanelets ∧ o ≠ id := by
  simp only [mem_linkedLanelets, forgetLanelet, SortedSet.mem_erase, Option.filter_eq_some_iff, bne_iff_ne]
  grind

theorem mem_trafficSignRefs_forgetTrafficSign :
    o ∈ (l.forgetTrafficSign id).trafficSignRefs ↔ o ∈ l.trafficSignRefs ∧ o ≠ id := by
  simp only [mem_trafficSignRefs, forgetTrafficSign, SortedSet.mem_erase, Option.map_eq_some_iff]
  grind [SortedSet.mem_erase]

theorem mem_trafficLightRefs_forgetTrafficLight :
    o ∈ (l.forgetTrafficLight id).trafficLightRefs ↔ o ∈ l.trafficLightRefs ∧ o ≠ id := by
  simp only [mem_trafficLightRefs, forgetTrafficLight, SortedSet.mem_erase, Option.map_eq_some_iff]
  grind [SortedSet.mem_erase]

@[simp] theorem trafficLightRefs_forgetTrafficSign (l : Lanelet) (id : ElementId) :
    (l.forgetTrafficSign id).trafficLightRefs = l.trafficLightRefs := by
  simp only [trafficLightRefs, forgetTrafficSign, Option.map_map]; rfl

@[simp] theorem trafficSignRefs_forgetTrafficLight (l : Lanelet) (id : ElementId) :
    (l.forgetTrafficLight id).trafficSignRefs = l.trafficSignRefs := by
  simp only [trafficSignRefs, forgetTrafficLight, Option.map_map]; rfl

end Lanelet

theorem IncomingGroup.mem_allLanelets_forgetLanelet {g : IncomingGroup} {id o : ElementId} :
    o ∈ (g.forgetLanelet id).allLanelets ↔ o ∈ g.allLanelets ∧ o ≠ id := by
  simp only [allLanelets, successors, forgetLanelet, List.mem_append, SortedSet.mem_toList, SortedSet.mem_erase]
  tauto

theorem Intersection.mem_lanelets_forgetLanelet {i : Intersection} {id o : ElementId} :
    o ∈ (i.forgetLanelet id).lanelets ↔ o ∈ i.lanelets ∧ o ≠ id := by
  simp only [lanelets, forgetLanelet, List.mem_append, List.mem_flatMap, List.mem_map, SortedSet.mem_toList,
    SortedSet.mem_erase, exists_exists_and_eq_and, IncomingGroup.mem_allLanelets_forgetLanelet]
  grind

/-! ## Elements -/

namespace Element

def kind : Element → Kind
  | lanelet _ => .lanelet
  | trafficSign _ => .trafficSign
  | trafficLight _ => .trafficLight
  | intersection _ => .intersection

/-- the element without references to an id as one of a kind -/
def forget (kind : Kind) (id : ElementId) : Element → Element
  | lanelet l =>
    match kind with
    | .lanelet => lanelet (l.forgetLanelet id)
    | .trafficSign => lanelet (l.forgetTrafficSign id)
    | .trafficLight => lanelet (l.forgetTrafficLight id)
    | .intersection => lanelet l
  | intersection i => if kind = .lanelet then intersection (i.forgetLanelet id) else intersection i
  | e => e

/-- the ids that the element refers to as ones of a kind -/
def refs (kind : Kind) : Element → List ElementId
  | lanelet l =>
    match kind with
    | .lanelet => l.linkedLanelets
    | .trafficSign => l.trafficSignRefs
    | .trafficLight => l.trafficLightRefs
    | .intersection => []
  | intersection i => if kind = .lanelet then i.lanelets else []
  | _ => []

/-- Of the references of the kind, those to the id are forgotten; all others are as they were. -/
theorem mem_refs_forget_iff {e : Element} {kind k : Kind} {id ref : ElementId} : ref ∈ (e.forget kind id).refs k ↔
    ref ∈ e.refs k ∧ (k = kind → ref ≠ id) := by
  cases e with
  | lanelet l =>
    cases kind <;> cases k <;> simp only [forget, refs, Lanelet.mem_linkedLanelets_forgetLanelet,
      Lanelet.mem_trafficSignRefs_forgetTrafficSign, Lanelet.mem_trafficLightRefs_forgetTrafficLight,
      Lanelet.trafficLightRefs_forgetTrafficSign, Lanelet.trafficSignRefs_forgetTrafficLight, reduceCtorEq,
      false_imp_iff, and_true, true_imp_iff, List.not_mem_nil, false_and]
    all_goals rfl
  | intersection i => cases kind <;> cases k <;> simp [forget, refs, Intersection.mem_lanelets_forgetLanelet]
  | trafficSign s => cases kind <;> simp [forget, refs]
  | trafficLight t => cases kind <;> simp [forget, refs]

/-- the element with another id -/
def withId (id : ElementId) : Element → Element
  | lanelet l => lanelet { l with id }
  | trafficSign s => trafficSign { s with id }
  | trafficLight t => trafficLight { t with id }
  | intersection i => intersection { i with id }

@[simp] theorem id_withId (id : ElementId) (e : Element) : (e.withId id).id = id := by cases e <;> rfl

@[simp] theorem kind_withId (id : ElementId) (e : Element) : (e.withId id).kind = e.kind := by cases e <;> rfl

@[simp] theorem id_forget (kind : Kind) (id : ElementId) (e : Element) : (e.forget kind id).id = e.id := by
  cases e <;> cases kind <;> rfl

@[simp] theorem kind_forget (kind : Kind) (id : ElementId) (e : Element) : (e.forget kind id).kind = e.kind := by
  cases e <;> cases kind <;> rfl

/-- a change of lanelets -/
def onLanelet (g : Lanelet → Lanelet) : Element → Element
  | lanelet l => lanelet (g l)
  | e => e

/-! ### Forgetting what is not there, and noting what is -/

theorem erase_of_not_mem {s : IdSet} {id : ElementId} (h : ¬ id ∈ s) : s.erase id = s :=
  SortedSet.ext fun a => by
    rw [SortedSet.mem_erase]
    exact ⟨fun ha => ha.1, fun ha => ⟨ha, by rintro rfl; exact h ha⟩⟩

theorem insert_of_mem {s : IdSet} {id : ElementId} (h : id ∈ s) : s.insert id = s :=
  SortedSet.ext fun a => by
    rw [SortedSet.mem_insert]
    exact or_iff_right_of_imp fun ha => ha ▸ h

theorem filter_adjacency {a : Option Adjacency} {id : ElementId} (h : ∀ x, a = some x → x.id ≠ id) :
    a.filter (·.id != id) = a := by
  cases a with
  | none => rfl
  | some x => simp [h x rfl]

theorem forgetLanelet_group {g : IncomingGroup} {id : ElementId} (h : id ∉ g.allLanelets) : g.forgetLanelet id = g := by
  simp only [IncomingGroup.allLanelets, IncomingGroup.successors, List.mem_append, not_or, SortedSet.mem_toList] at h
  obtain ⟨h₁, ⟨h₂, h₃⟩, h₄⟩ := h
  simp [IncomingGroup.forgetLanelet, erase_of_not_mem, h₁, h₂, h₃, h₄]

/-- an element that does not refer to the id stays as it is -/
theorem forget_of_not_mem {kind : Kind} {id : ElementId} {e : Element} (h : id ∉ e.refs kind) :
    e.forget kind id = e := by
  cases e with
  | trafficSign s => rfl
  | trafficLight t => rfl
  | intersection i =>
    cases kind
    case lanelet =>
      simp only [refs, if_true, Intersection.lanelets, List.mem_append, not_or, List.mem_flatMap, not_exists, not_and,
        SortedSet.mem_toList] at h
      have hg : i.incomings.map (·.forgetLanelet id) = i.incomings :=
        (List.map_congr_left fun g hg => forgetLanelet_group (h.1 g hg)).trans (List.map_id' _)
      simp [forget, Intersection.forgetLanelet, hg, erase_of_not_mem h.2]
    all_goals rfl
  | lanelet l =>
    cases kind
    case intersection => rfl
    case lanelet =>
      simp only [refs, Lanelet.linkedLanelets, List.mem_append, not_or, SortedSet.mem_toList] at h
      obtain ⟨⟨⟨h₁, h₂⟩, h₃⟩, h₄⟩ := h
      have hl : l.adjacentLeft.filter (·.id != id) = l.adjacentLeft :=
        filter_adjacency fun x hx => by rintro rfl; simp [hx] at h₃
      have hr : l.adjacentRight.filter (·.id != id) = l.adjacentRight :=
        filter_adjacency fun x hx => by rintro rfl; simp [hx] at h₄
      simp [forget, Lanelet.forgetLanelet, hl, hr, erase_of_not_mem h₁, erase_of_not_mem h₂]
    case trafficSign =>
      obtain ⟨lid, left, right, center, pre, suc, adjL, adjR, stopLine, signs, lights, types⟩ := l
      simp only [refs, Lanelet.trafficSignRefs, List.mem_append, not_or, SortedSet.mem_toList] at h
      cases stopLine with
      | none => simp [forget, Lanelet.forgetTrafficSign, erase_of_not_mem h.1]
      | some stop =>
        have hs : ¬ id ∈ stop.trafficSigns := h.2
        simp [forget, Lanelet.forgetTrafficSign, erase_of_not_mem h.1, erase_of_not_mem hs]
    case trafficLight =>
      obtain ⟨lid, left, right, center, pre, suc, adjL, adjR, stopLine, signs, lights, types⟩ := l
      simp only [refs, Lanelet.trafficLightRefs, List.mem_append, not_or, SortedSet.mem_toList] at h
      cases stopLine with
      | none => simp [forget, Lanelet.forgetTrafficLight, erase_of_not_mem h.1]
      | some stop =>
        have hs : ¬ id ∈ stop.trafficLights := h.2
        simp [forget, Lanelet.forgetTrafficLight, erase_of_not_mem h.1, erase_of_not_mem hs]

end Element

/-! ## Rewrites -/

/-- what becomes of each element -/
abbrev Rewrite := Handle → Element → Option Element

namespace Rewrite

/-- one element changes -/
def only (x : Handle) (g : Element → Element) : Rewrite := fun h e => some (if h = x then g e else e)

/-- one element goes, and with it the references to its id, unless the id still resolves -/
def removal (x : Handle) (id : ElementId) (stays : Bool) : Rewrite := fun h e =>
  if h = x then none else some (if stays then e else e.forget x.kind id)

end Rewrite

/-- a network that comes from another by a rewrite -/
structure Rewrites (f : Rewrite) (n m : Network) : Prop where
  element : ∀ h, m.element? h = (n.element? h).bind (f h)
  external : m.external = n.external
  nextKey : m.nextKey = n.nextKey

namespace Rewrites

variable {f g : Rewrite} {n m k : Network}

theorem trans (hf : Rewrites f n m) (hg : Rewrites g m k) : Rewrites (fun h e => (f h e).bind (g h)) n k where
  element h := by rw [hg.element, hf.element, Option.bind_assoc]
  external := hg.external.trans hf.external
  nextKey := hg.nextKey.trans hf.nextKey

theorem refl (n : Network) : Rewrites (fun _ e => some e) n n := ⟨fun h => by simp, rfl, rfl⟩

/-- what a rewrite keeps of the ids -/
theorem idOf? (hf : Rewrites f n m) (h : ∀ x e, n.element? x = some e → ∃ e', f x e = some e' ∧ e'.id = e.id)
    (x : Handle) : m.idOf? x = n.idOf? x := by
  rw [Network.idOf?_eq, Network.idOf?_eq, hf.element]
  cases he : n.element? x with
  | none => rfl
  | some e =>
    obtain ⟨e', hf, hid⟩ := h x e he
    simp [hf, hid]

end Rewrites

namespace Network

variable {n : Network}

theorem kind_of_element? {h : Handle} {e : Element} (he : n.element? h = some e) : e.kind = h.kind := by
  cases e with
  | lanelet l => obtain ⟨k, rfl, -⟩ := element?_eq_lanelet.1 he; rfl
  | trafficSign s => obtain ⟨k, rfl, -⟩ := element?_eq_trafficSign.1 he; rfl
  | trafficLight t => obtain ⟨k, rfl, -⟩ := element?_eq_trafficLight.1 he; rfl
  | intersection i => obtain ⟨k, rfl, -⟩ := element?_eq_intersection.1 he; rfl

/-- networks with the same elements, external ids and next key are equal -/
theorem ext_element? {m : Network} (h : ∀ x, m.element? x = n.element? x) (he : m.external = n.external)
    (hk : m.nextKey = n.nextKey) : m = n := by
  have store : ∀ {α : Type} (kind : Kind) (get : Network → Store α) (mk : α → Element),
      Function.Injective mk → (∀ (a : Network) k, a.element? ⟨kind, k⟩ = ((get a).get? k).map mk) → get m = get n := by
    intro α kind get mk inj hget
    refine Store.ext_get? fun k => Option.map_injective inj ?_
    rw [← hget, ← hget, h]
  have hl := store .lanelet (·.lanelets) .lanelet (fun _ _ e => by cases e; rfl) fun _ _ => rfl
  have hs := store .trafficSign (·.trafficSigns) .trafficSign (fun _ _ e => by cases e; rfl) fun _ _ => rfl
  have ht := store .trafficLight (·.trafficLights) .trafficLight (fun _ _ e => by cases e; rfl) fun _ _ => rfl
  have hi := store .intersection (·.intersections) .intersection (fun _ _ e => by cases e; rfl) fun _ _ => rfl
  cases m; cases n
  simp only at hl hs ht hi he hk
  rw [hl, hs, ht, hi, he, hk]

/-! ## Changes of one element -/

/-- a store with one value changed, seen as elements -/
theorem map_modify {α : Type} (s : Store α) (kind : Kind) (key k : Nat) {mk : α → Element} {v : α → α}
    {g : Element → Element} (hg : ∀ a, g (mk a) = mk (v a)) : ((s.modify key v).get? k).map mk =
      ((s.get? k).map mk).bind (Rewrite.only ⟨kind, key⟩ g ⟨kind, k⟩) := by
  rw [Store.get?_modify]
  by_cases hk : k = key
  · subst hk
    cases s.get? k <;> simp [Rewrite.only, hg]
  · cases s.get? k <;> simp [Rewrite.only, hk]

/-- an element of another kind does not change -/
theorem only_of_kind_ne {x : Handle} {kind : Kind} {k : Nat} (g : Element → Element) (hk : kind ≠ x.kind)
    (o : Option Element) : o = o.bind (Rewrite.only x g ⟨kind, k⟩) := by
  have : Handle.mk kind k ≠ x := by rintro rfl; exact hk rfl
  cases o <;> simp [Rewrite.only, this]

theorem rewrites_modifyLanelet (n : Network) (key : Nat) (g : Lanelet → Lanelet) :
    Rewrites (.only ⟨.lanelet, key⟩ (.onLanelet g)) n { n with lanelets := n.lanelets.modify key g } where
  element h := by
    obtain ⟨kind, k⟩ := h
    cases kind
    case lanelet => exact map_modify n.lanelets .lanelet key k fun _ => rfl
    all_goals exact only_of_kind_ne _ (by simp) _
  external := rfl
  nextKey := rfl

theorem rewrites_replace (n : Network) {h : Handle} {e : Element} (hk : e.kind = h.kind) :
    Rewrites (.only h fun _ => e) n (n.replace h.key e) where
  element x := by
    obtain ⟨kind, k⟩ := x
    obtain ⟨hkind, key⟩ := h
    subst hk
    cases e <;> cases kind
    case lanelet.lanelet => exact map_modify n.lanelets .lanelet key k fun _ => rfl
    case trafficSign.trafficSign => exact map_modify n.trafficSigns .trafficSign key k fun _ => rfl
    case trafficLight.trafficLight => exact map_modify n.trafficLights .trafficLight key k fun _ => rfl
    case intersection.intersection => exact map_modify n.intersections .intersection key k fun _ => rfl
    all_goals exact only_of_kind_ne _ (by simp [Element.kind]) _
  external := by cases e <;> rfl
  nextKey := by cases e <;> rfl

theorem rewrites_setId (n : Network) (h : Handle) (id : ElementId) :
    Rewrites (.only h (.withId id)) n (n.setId h id) where
  element x := by
    obtain ⟨kind, k⟩ := x
    obtain ⟨hkind, key⟩ := h
    cases hkind <;> cases kind
    case lanelet.lanelet => exact map_modify n.lanelets .lanelet key k fun _ => rfl
    case trafficSign.trafficSign => exact map_modify n.trafficSigns .trafficSign key k fun _ => rfl
    case trafficLight.trafficLight => exact map_modify n.trafficLights .trafficLight key k fun _ => rfl
    case intersection.intersection => exact map_modify n.intersections .intersection key k fun _ => rfl
    all_goals exact only_of_kind_ne _ (by simp) _
  external := by cases h with | mk kind key => cases kind <;> rfl
  nextKey := by cases h with | mk kind key => cases kind <;> rfl

theorem idOf?_setId {h : Handle} {old : ElementId} (hh : n.idOf? h = some old) (id : ElementId) (x : Handle) :
    (n.setId h id).idOf? x = if x = h then some id else n.idOf? x := by
  rw [idOf?_eq, (n.rewrites_setId h id).element]
  split_ifs with hx
  · subst hx
    obtain ⟨e, he, -⟩ := exists_element hh
    simp [he, Rewrite.only]
  · rw [idOf?_eq]
    cases n.element? x <;> simp [Rewrite.only, hx]

/-! ## Removals -/

/-- the network without an element, with all references as they were -/
def discard (n : Network) (h : Handle) : Network :=
  match h.kind with
  | .lanelet => { n with lanelets := n.lanelets.erase h.key }
  | .trafficSign => { n with trafficSigns := n.trafficSigns.erase h.key }
  | .trafficLight => { n with trafficLights := n.trafficLights.erase h.key }
  | .intersection => { n with intersections := n.intersections.erase h.key }

theorem element?_discard (n : Network) (x h : Handle) :
    (n.discard x).element? h = if h = x then none else n.element? h := by
  obtain ⟨kind, k⟩ := h
  obtain ⟨xkind, key⟩ := x
  cases xkind <;> cases kind <;> simp only [discard, element?, Store.get?_erase, Handle.mk.injEq, reduceCtorEq,
    false_and, true_and, if_false]
  all_goals
    by_cases hk : k = key <;> simp [hk]

/-- the network without references to an id as one of a kind -/
def scrub (n : Network) (kind : Kind) (id : ElementId) : Network :=
  match kind with
  | .lanelet => { n with
      lanelets := n.lanelets.map (·.forgetLanelet id), intersections := n.intersections.map (·.forgetLanelet id) }
  | .trafficSign => { n with lanelets := n.lanelets.map (·.forgetTrafficSign id) }
  | .trafficLight => { n with lanelets := n.lanelets.map (·.forgetTrafficLight id) }
  | .intersection => n

theorem element?_scrub (n : Network) (kind : Kind) (id : ElementId) (h : Handle) :
    (n.scrub kind id).element? h = (n.element? h).map (.forget kind id) := by
  obtain ⟨hkind, k⟩ := h
  cases kind <;> cases hkind <;>
    simp [scrub, element?, Element.forget, Function.comp_def]

theorem remove_eq {h : Handle} {id : ElementId} (hid : n.idOf? h = some id) : n.remove h =
    if (n.discard h).resolves h.kind id then n.discard h else (n.discard h).scrub h.kind id := by
  obtain ⟨kind, key⟩ := h
  cases kind
  case lanelet =>
    obtain ⟨l, hl, rfl⟩ := Option.map_eq_some_iff.1 hid
    simp only [remove, removeLanelet, hl]; rfl
  case trafficSign =>
    obtain ⟨s, hs, rfl⟩ := Option.map_eq_some_iff.1 hid
    simp only [remove, removeTrafficSign, hs]; rfl
  case trafficLight =>
    obtain ⟨t, ht, rfl⟩ := Option.map_eq_some_iff.1 hid
    simp only [remove, removeTrafficLight, ht]; rfl
  case intersection =>
    simp only [scrub, ite_self]; rfl

theorem external_discard (n : Network) (h : Handle) : (n.discard h).external = n.external := by
  cases h with | mk kind key => cases kind <;> rfl

theorem nextKey_discard (n : Network) (h : Handle) : (n.discard h).nextKey = n.nextKey := by
  cases h with | mk kind key => cases kind <;> rfl

/-- **Removal.** The element goes, and with it the references to its id, unless the id still resolves. -/
theorem rewrites_remove {h : Handle} {id : ElementId} (hid : n.idOf? h = some id) :
    Rewrites (.removal h id ((n.discard h).resolves h.kind id)) n (n.remove h) where
  element x := by
    rw [remove_eq hid]
    cases hr : (n.discard h).resolves h.kind id
    · rw [if_neg (by simp), element?_scrub, element?_discard]
      split_ifs with hx
      · cases n.element? x <;> simp [Rewrite.removal, hx]
      · cases n.element? x <;> simp [Rewrite.removal, hx]
    · rw [if_pos rfl, element?_discard]
      split_ifs with hx
      · cases n.element? x <;> simp [Rewrite.removal, hx]
      · cases n.element? x <;> simp [Rewrite.removal, hx]
  external := by
    have hs : ∀ m : Network, (m.scrub h.kind id).external = m.external := fun m => by cases h.kind <;> rfl
    rw [remove_eq hid]
    split_ifs <;> simp only [hs, external_discard]
  nextKey := by
    have hs : ∀ m : Network, (m.scrub h.kind id).nextKey = m.nextKey := fun m => by cases h.kind <;> rfl
    rw [remove_eq hid]
    split_ifs <;> simp only [hs, nextKey_discard]

theorem remove_of_absent {x : Handle} (h : n.element? x = none) : n.remove x = n := by
  obtain ⟨kind, k⟩ := x
  cases kind
  case intersection =>
    refine ext_element? (fun y => ?_) rfl rfl
    rw [show n.remove ⟨.intersection, k⟩ = n.discard ⟨.intersection, k⟩ from rfl, element?_discard]
    split_ifs with hy
    · rw [hy, h]
    · rfl
  all_goals
    have h := Option.map_eq_none_iff.1 h
    simp only [remove, removeLanelet, removeTrafficSign, removeTrafficLight, h]

/-! ## Links -/

/-- notes an id among the successors of a lanelet, and another among the predecessors of another -/
def linking (pred succ : Nat) (p s : ElementId) : Rewrite := fun h e =>
  (Rewrite.only ⟨.lanelet, pred⟩ (.onLanelet fun l => { l with successors := l.successors.insert s }) h e).bind
    (Rewrite.only ⟨.lanelet, succ⟩ (.onLanelet fun l => { l with predecessors := l.predecessors.insert p }) h)

/-- drops an id from the successors of a lanelet, and another from the predecessors of another -/
def unlinking (pred succ : Nat) (p s : ElementId) : Rewrite := fun h e =>
  (Rewrite.only ⟨.lanelet, pred⟩ (.onLanelet fun l => { l with successors := l.successors.erase s }) h e).bind
    (Rewrite.only ⟨.lanelet, succ⟩ (.onLanelet fun l => { l with predecessors := l.predecessors.erase p }) h)

theorem rewrites_link {pred succ : Nat} {p s : Lanelet} (hp : n.lanelets.get? pred = some p)
    (hs : n.lanelets.get? succ = some s) : Rewrites (linking pred succ p.id s.id) n (n.link pred succ) := by
  simp only [link, hp, hs]
  exact (n.rewrites_modifyLanelet pred _).trans (rewrites_modifyLanelet _ succ _)

theorem rewrites_unlink {pred succ : Nat} {p s : Lanelet} (hp : n.lanelets.get? pred = some p)
    (hs : n.lanelets.get? succ = some s) : Rewrites (unlinking pred succ p.id s.id) n (n.unlink pred succ) := by
  simp only [unlink, hp, hs]
  exact (n.rewrites_modifyLanelet pred _).trans (rewrites_modifyLanelet _ succ _)

theorem get?_link {pred succ : Nat} {p s : Lanelet} (hp : n.lanelets.get? pred = some p)
    (hs : n.lanelets.get? succ = some s) (k : Nat) : (n.link pred succ).lanelets.get? k =
      (n.lanelets.get? k).map fun l => { l with
        successors := if k = pred then l.successors.insert s.id else l.successors
        predecessors := if k = succ then l.predecessors.insert p.id else l.predecessors } := by
  simp only [link, hp, hs, Store.get?_modify]
  cases n.lanelets.get? k with
  | none => split_ifs <;> rfl
  | some l => split_ifs <;> rfl

theorem get?_unlink {pred succ : Nat} {p s : Lanelet} (hp : n.lanelets.get? pred = some p)
    (hs : n.lanelets.get? succ = some s) (k : Nat) : (n.unlink pred succ).lanelets.get? k =
      (n.lanelets.get? k).map fun l => { l with
        successors := if k = pred then l.successors.erase s.id else l.successors
        predecessors := if k = succ then l.predecessors.erase p.id else l.predecessors } := by
  simp only [unlink, hp, hs, Store.get?_modify]
  cases n.lanelets.get? k with
  | none => split_ifs <;> rfl
  | some l => split_ifs <;> rfl

/-- changes of two lanelets that keep their ids, one after the other -/
theorem id_of_two {x y : Handle} {g k : Lanelet → Lanelet} (hg : ∀ l, (g l).id = l.id) (hk : ∀ l, (k l).id = l.id)
    (h : Handle) (e : Element) : ∃ e', (Rewrite.only x (.onLanelet g) h e).bind (Rewrite.only y (.onLanelet k) h) =
      some e' ∧ e'.id = e.id := by
  have keeps : ∀ {g : Lanelet → Lanelet}, (∀ l, (g l).id = l.id) → ∀ e : Element, (e.onLanelet g).id = e.id := by
    intro g hg e
    cases e with
    | lanelet l => exact hg l
    | _ => rfl
  refine ⟨_, rfl, ?_⟩
  split_ifs
  · exact (keeps hk _).trans (keeps hg e)
  · exact keeps hk e
  · exact keeps hg e
  · rfl

theorem idOf?_link (n : Network) (pred succ : Nat) (h : Handle) : (n.link pred succ).idOf? h = n.idOf? h := by
  cases hp : n.lanelets.get? pred with
  | none => simp only [link, hp]
  | some p =>
    cases hs : n.lanelets.get? succ with
    | none => simp only [link, hp, hs]
    | some s =>
      refine (rewrites_link hp hs).idOf? (fun x e _ => ?_) h
      apply id_of_two <;> exact fun _ => rfl

theorem idOf?_unlink (n : Network) (pred succ : Nat) (h : Handle) : (n.unlink pred succ).idOf? h = n.idOf? h := by
  cases hp : n.lanelets.get? pred with
  | none => simp only [unlink, hp]
  | some p =>
    cases hs : n.lanelets.get? succ with
    | none => simp only [unlink, hp, hs]
    | some s =>
      refine (rewrites_unlink hp hs).idOf? (fun x e _ => ?_) h
      apply id_of_two <;> exact fun _ => rfl

theorem idOf?_modifyLanelet (n : Network) (key : Nat) {g : Lanelet → Lanelet} (hg : ∀ l, (g l).id = l.id) (h : Handle) :
    Network.idOf? { n with lanelets := n.lanelets.modify key g } h = n.idOf? h :=
  (n.rewrites_modifyLanelet key g).idOf? (fun x e _ => by
    refine ⟨_, rfl, ?_⟩
    split_ifs
    · cases e with
      | lanelet l => exact hg l
      | _ => rfl
    · rfl) h

end Network

end RoadRules
