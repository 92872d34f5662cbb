/-
The forms of repairs.

- Most rules are repaired by a decision about every element of one sort that bears the first id of the location: it
  stays, changes or goes (`RuleId.DecidesBy`). Such a decision never changes an element's kind or id, and of a lanelet's
  links it drops at most those that lead nowhere (`Moderate`, `RuleId.decision_of_decides`).
- Links that only one of two lanelets notes are completed in one way, whichever of the two notes them
  (`completePredecessors_eq`, `completeSuccessors_eq`), link by link (`MakesLinks`).
- Signs and lights without a reference are attached in one way (`attachTrafficSigns_eq`, `attachTrafficLights_eq`), by
  lanelets that come to note them (`Lanelet.Notes`).
- `RuleId.exists_form`: these forms, and links in both directions that are broken, are all that a repair can do, but for
  the repairs of shared ids. What every repair keeps up is shown form by form.
-/
import RoadRules.Proofs.Network.Rewriting
import RoadRules.Proofs.Repair.Decisions

namespace RoadRules

/-- where a sign or a light stands -/
def Element.position? : Element → Option Point
  | trafficSign s => s.position
  | trafficLight t => t.position
  | _ => none

/-! ## Edits one after the other -/

namespace Network

theorem editEach_cons {ι : Type} (n : Network) (i : ι) (items : List ι) (edit : Network → ι → Edited) :
    n.editEach (i :: items) edit = (edit n i).andThen fun n => n.editEach items edit := by
  -- what has changed before the rest is only carried along
  have run : ∀ (items : List ι) (e : Edited), items.foldl (fun e i => e.andThen (edit · i)) e =
      e.andThen fun n => n.editEach items edit := by
    intro items
    induction items with
    | nil => simp [Edited.andThen, editEach, Edited.unchanged]
    | cons j items ih =>
      intro e
      have hfirst : ∀ a : Network, a.editEach (j :: items) edit = (edit a j).andThen fun n => n.editEach items edit :=
        fun a => (ih _).trans (by simp [Edited.andThen, Edited.unchanged])
      rw [List.foldl_cons, ih]
      simp [hfirst, Edited.andThen, Bool.or_assoc]
  exact (run items _).trans (by simp [Edited.andThen, Edited.unchanged])

/-- edits that keep up a relation between two networks, and change something in both or in neither -/
theorem editEach_induction₂ {ι : Type} {R : Network → Network → Prop} {edit edit' : Network → ι → Edited}
    {n m : Network} (items : List ι) (h : R n m) (step : ∀ a b, R a b → ∀ i ∈ items,
      R (edit a i).network (edit' b i).network ∧ (edit a i).changed = (edit' b i).changed) :
    R (n.editEach items edit).network (m.editEach items edit').network ∧
      (n.editEach items edit).changed = (m.editEach items edit').changed := by
  induction items generalizing n m with
  | nil => exact ⟨h, rfl⟩
  | cons i items ih =>
    obtain ⟨hfirst, hchanged⟩ := step n m h i List.mem_cons_self
    obtain ⟨hrest, hchanged'⟩ := ih hfirst fun a b hab j hj => step a b hab j (List.mem_cons_of_mem _ hj)
    rw [editEach_cons, editEach_cons]
    exact ⟨hrest, congrArg₂ Bool.or hchanged hchanged'⟩

/-- edits that keep up a property -/
theorem editEach_induction {ι : Type} {P : Network → Prop} {edit : Network → ι → Edited} {n : Network}
    (items : List ι) (h : P n) (step : ∀ a, P a → ∀ i ∈ items, P (edit a i).network) :
    P (n.editEach items edit).network := by
  induction items generalizing n with
  | nil => exact h
  | cons i items ih =>
    rw [editEach_cons]
    exact ih (step n h i List.mem_cons_self) fun a ha j hj => step a ha j (List.mem_cons_of_mem _ hj)

end Network

/-! ## Decisions about elements -/

namespace Fix

def map {α β : Type} (mk : α → β) : Fix α → Fix β
  | keep => keep
  | change x => change (mk x)
  | remove => remove

/-- a decision about lanelets as one about elements -/
def onLanelet (fix : Lanelet → Fix Lanelet) : Element → Fix Element
  | .lanelet l => (fix l).map .lanelet
  | _ => .keep

def onTrafficSign (fix : TrafficSign → Fix TrafficSign) : Element → Fix Element
  | .trafficSign s => (fix s).map .trafficSign
  | _ => .keep

def onTrafficLight (fix : TrafficLight → Fix TrafficLight) : Element → Fix Element
  | .trafficLight t => (fix t).map .trafficLight
  | _ => .keep

def onIntersection (fix : Intersection → Fix Intersection) : Element → Fix Element
  | .intersection i => (fix i).map .intersection
  | _ => .keep

end Fix

namespace Network

/-- carries out a decision about the element under a key -/
def fixOne (n : Network) (kind : Kind) (key : Nat) (fix : Element → Fix Element) : Edited :=
  n.apply (n.element? ⟨kind, key⟩) fix (n.replace key) (n.remove ⟨kind, key⟩)

/-- decides about every element of a kind that bears an id -/
def fixAll (n : Network) (kind : Kind) (id : ElementId) (fix : Network → Element → Fix Element) : Edited :=
  n.editEach (n.keysWithId kind id) fun n key => n.fixOne kind key (fix n)

theorem fixLanelets_eq (n : Network) (id : ElementId) (fix : Network → Lanelet → Fix Lanelet) :
    n.fixLanelets id fix = n.fixAll .lanelet id fun n => .onLanelet (fix n) := by
  refine congrArg (n.editEach _) (funext fun n => funext fun key => ?_)
  simp only [fixOne, element?]
  cases n.lanelets.get? key with
  | none => rfl
  | some l => simp only [apply, Option.map_some, Fix.onLanelet]; cases fix n l <;> rfl

theorem fixTrafficSigns_eq (n : Network) (id : ElementId) (fix : TrafficSign → Fix TrafficSign) :
    n.fixTrafficSigns id fix = n.fixAll .trafficSign id fun _ => .onTrafficSign fix := by
  refine congrArg (n.editEach _) (funext fun n => funext fun key => ?_)
  simp only [fixOne, element?]
  cases n.trafficSigns.get? key with
  | none => rfl
  | some s => simp only [apply, Option.map_some, Fix.onTrafficSign]; cases fix s <;> rfl

theorem fixTrafficLights_eq (n : Network) (id : ElementId) (fix : TrafficLight → Fix TrafficLight) :
    n.fixTrafficLights id fix = n.fixAll .trafficLight id fun _ => .onTrafficLight fix := by
  refine congrArg (n.editEach _) (funext fun n => funext fun key => ?_)
  simp only [fixOne, element?]
  cases n.trafficLights.get? key with
  | none => rfl
  | some t => simp only [apply, Option.map_some, Fix.onTrafficLight]; cases fix t <;> rfl

theorem fixIntersections_eq (n : Network) (id : ElementId) (fix : Network → Intersection → Fix Intersection) :
    n.fixIntersections id fix = n.fixAll .intersection id fun n => .onIntersection (fix n) := by
  refine congrArg (n.editEach _) (funext fun n => funext fun key => ?_)
  simp only [fixOne, element?]
  cases n.intersections.get? key with
  | none => rfl
  | some i => simp only [apply, Option.map_some, Fix.onIntersection]; cases fix n i <;> rfl

end Network

/-! ## Decisions about one sort of elements -/

/-- the elements of a kind are those that `mk` makes -/
structure Makes {α : Type} (mk : α → Element) (kind : Kind) : Prop where
  injective : Function.Injective mk
  kind_iff : ∀ e, e.kind = kind ↔ ∃ a, e = mk a

namespace Makes

theorem lanelet : Makes Element.lanelet .lanelet :=
  ⟨fun _ _ h => Element.lanelet.inj h, fun e => by cases e <;> simp [Element.kind]⟩

theorem trafficSign : Makes Element.trafficSign .trafficSign :=
  ⟨fun _ _ h => Element.trafficSign.inj h, fun e => by cases e <;> simp [Element.kind]⟩

theorem trafficLight : Makes Element.trafficLight .trafficLight :=
  ⟨fun _ _ h => Element.trafficLight.inj h, fun e => by cases e <;> simp [Element.kind]⟩

theorem intersection : Makes Element.intersection .intersection :=
  ⟨fun _ _ h => Element.intersection.inj h, fun e => by cases e <;> simp [Element.kind]⟩

end Makes

/-- a decision about elements that decides about those that `mk` makes, and keeps all others -/
structure Fix.Extends {α : Type} (mk : α → Element) (kind : Kind) (d : Network → α → Fix α)
    (f : Network → Element → Fix Element) : Prop where
  makes : Makes mk kind
  on : ∀ n a, f n (mk a) = (d n a).map mk
  other : ∀ n e, e.kind ≠ kind → f n e = .keep

namespace Fix.Extends

theorem lanelet (d : Network → Lanelet → Fix Lanelet) : Extends .lanelet .lanelet d fun n => .onLanelet (d n) :=
  ⟨.lanelet, fun _ _ => rfl, fun _ e he => by cases e <;> simp_all [onLanelet, Element.kind]⟩

theorem trafficSign (d : TrafficSign → Fix TrafficSign) :
    Extends .trafficSign .trafficSign (fun _ => d) fun _ => .onTrafficSign d :=
  ⟨.trafficSign, fun _ _ => rfl, fun _ e he => by cases e <;> simp_all [onTrafficSign, Element.kind]⟩

theorem trafficLight (d : TrafficLight → Fix TrafficLight) :
    Extends .trafficLight .trafficLight (fun _ => d) fun _ => .onTrafficLight d :=
  ⟨.trafficLight, fun _ _ => rfl, fun _ e he => by cases e <;> simp_all [onTrafficLight, Element.kind]⟩

theorem intersection (d : Network → Intersection → Fix Intersection) :
    Extends .intersection .intersection d fun n => .onIntersection (d n) :=
  ⟨.intersection, fun _ _ => rfl, fun _ e he => by cases e <;> simp_all [onIntersection, Element.kind]⟩

variable {α : Type} {mk : α → Element} {kind : Kind} {d : Network → α → Fix α} {f : Network → Element → Fix Element}
  {n : Network} {e e' : Element}

theorem eq_keep_iff (h : Extends mk kind d f) {a : α} : f n (mk a) = .keep ↔ d n a = .keep := by
  rw [h.on]
  cases d n a <;> simp [map]

/-- what is changed is one of the elements that the decision is about -/
theorem of_change (h : Extends mk kind d f) (hf : f n e = .change e') :
    ∃ a a', e = mk a ∧ e' = mk a' ∧ d n a = .change a' := by
  by_cases he : e.kind = kind
  · obtain ⟨a, rfl⟩ := (h.makes.kind_iff e).1 he
    rw [h.on] at hf
    cases hd : d n a with
    | change a' =>
      rw [hd] at hf
      exact ⟨a, a', rfl, (Fix.change.inj hf).symm, hd⟩
    | _ =>
      rw [hd] at hf
      cases hf
  · rw [h.other n e he] at hf
    cases hf

/-- what is removed is one of them too -/
theorem of_remove (h : Extends mk kind d f) (hf : f n e = .remove) : ∃ a, e = mk a ∧ d n a = .remove := by
  by_cases he : e.kind = kind
  · obtain ⟨a, rfl⟩ := (h.makes.kind_iff e).1 he
    rw [h.on] at hf
    cases hd : d n a with
    | remove => exact ⟨a, rfl, hd⟩
    | _ =>
      rw [hd] at hf
      cases hf
  · rw [h.other n e he] at hf
    cases hf

end Fix.Extends

/-- The rule is repaired by a decision about the elements that `mk` makes. -/
def RuleId.DecidesBy {α : Type} (r : RuleId) (mk : α → Element) (kind : Kind) (d : Network → α → Fix α) : Prop :=
  ∃ f, Fix.Extends mk kind d f ∧
    ∀ (m : RoadMap) id rest, r.repairAt m id rest = m.edited (m.network.fixAll kind id f)

namespace RuleId.DecidesBy

variable {r : RuleId}

theorem ofLanelets (d : Network → Lanelet → Fix Lanelet)
    (h : ∀ (m : RoadMap) id rest, r.repairAt m id rest = m.edited (m.network.fixLanelets id d)) :
    r.DecidesBy .lanelet .lanelet d :=
  ⟨_, .lanelet d, fun m id rest => by rw [h, Network.fixLanelets_eq]⟩

theorem ofTrafficSigns (d : TrafficSign → Fix TrafficSign)
    (h : ∀ (m : RoadMap) id rest, r.repairAt m id rest = m.edited (m.network.fixTrafficSigns id d)) :
    r.DecidesBy .trafficSign .trafficSign fun _ => d :=
  ⟨_, .trafficSign d, fun m id rest => by rw [h, Network.fixTrafficSigns_eq]⟩

theorem ofTrafficLights (d : TrafficLight → Fix TrafficLight)
    (h : ∀ (m : RoadMap) id rest, r.repairAt m id rest = m.edited (m.network.fixTrafficLights id d)) :
    r.DecidesBy .trafficLight .trafficLight fun _ => d :=
  ⟨_, .trafficLight d, fun m id rest => by rw [h, Network.fixTrafficLights_eq]⟩

theorem ofIntersections (d : Network → Intersection → Fix Intersection)
    (h : ∀ (m : RoadMap) id rest, r.repairAt m id rest = m.edited (m.network.fixIntersections id d)) :
    r.DecidesBy .intersection .intersection d :=
  ⟨_, .intersection d, fun m id rest => by rw [h, Network.fixIntersections_eq]⟩

/-- dropping the ids that lead nowhere from one set of a lanelet -/
theorem ofDropFrom (kind : Kind) (get : Lanelet → IdSet) (put : Lanelet → IdSet → Lanelet)
    (h : ∀ (m : RoadMap) id rest, r.repairAt m id rest = m.edited (m.network.dropFrom id kind get put)) :
    r.DecidesBy .lanelet .lanelet (Lanelet.fixReferences kind get put) :=
  .ofLanelets _ h

/-- forgetting a lanelet at one side that does not exist -/
theorem ofDropAdjacency (side : Side)
    (h : ∀ (m : RoadMap) id rest, r.repairAt m id rest = m.edited (m.network.dropAdjacency id side)) :
    r.DecidesBy .lanelet .lanelet (Lanelet.fixNeighbour side) :=
  .ofLanelets _ fun m id rest => by rw [h, Network.dropAdjacency_eq]

end RuleId.DecidesBy

/-! ## What decisions do to an element -/

/-- a change that keeps the id of a lanelet, and all its links that lead somewhere -/
structure Lanelet.Mild (n : Network) (l l' : Lanelet) : Prop where
  id : l'.id = l.id
  predecessors : ∀ o, n.resolves .lanelet o = true → (o ∈ l'.predecessors ↔ o ∈ l.predecessors)
  successors : ∀ o, n.resolves .lanelet o = true → (o ∈ l'.successors ↔ o ∈ l.successors)

/-- a change that keeps the id of an intersection and lets no traffic come in from elsewhere -/
structure Intersection.Mild (i i' : Intersection) : Prop where
  id : i'.id = i.id
  incomings : ∀ g' ∈ i'.incomings, ∃ g ∈ i.incomings, ∀ o ∈ g'.lanelets, o ∈ g.lanelets

theorem Intersection.Mild.refl (i : Intersection) : i.Mild i := ⟨rfl, fun g hg => ⟨g, hg, fun _ ho => ho⟩⟩

theorem Intersection.Mild.trans {i i' i'' : Intersection} (h : i.Mild i') (h' : i'.Mild i'') : i.Mild i'' where
  id := h'.id.trans h.id
  incomings g'' hg'' := by
    obtain ⟨g', hg', ho'⟩ := h'.incomings g'' hg''
    obtain ⟨g, hg, ho⟩ := h.incomings g' hg'
    exact ⟨g, hg, fun o h => ho o (ho' o h)⟩

/-- a change that keeps the kind and the id of an element, and is mild on lanelets and intersections -/
structure Element.Mild (n : Network) (e e' : Element) : Prop where
  kind : e'.kind = e.kind
  id : e'.id = e.id
  lanelet : ∀ l l', e = .lanelet l → e' = .lanelet l' → l.Mild n l'
  intersection : ∀ i i', e = .intersection i → e' = .intersection i' → i.Mild i'

/-- a decision that looks at a network only to see what resolves and what follows incoming lanelets, and that makes mild
changes -/
structure Moderate (fix : Network → Element → Fix Element) : Prop where
  change : ∀ n e e', fix n e = .change e' → e.Mild n e'
  sees : ∀ n n' e, (∀ kind id, n.resolves kind id = n'.resolves kind id) →
    (∀ i, e = .intersection i → ∀ g ∈ i.incomings, n.followers g = n'.followers g) → fix n e = fix n' e

namespace Element.Mild

variable {n : Network}

theorem of_lanelet {l l' : Lanelet} (h : l.Mild n l') : (Element.lanelet l).Mild n (.lanelet l') where
  kind := rfl
  id := h.id
  lanelet k k' hk hk' := by
    cases hk
    cases hk'
    exact h
  intersection _ _ h := nomatch h

theorem of_trafficSign {s s' : TrafficSign} (h : s'.id = s.id) : (Element.trafficSign s).Mild n (.trafficSign s') :=
  ⟨rfl, h, fun _ _ h => (nomatch h), fun _ _ h => (nomatch h)⟩

theorem of_trafficLight {t t' : TrafficLight} (h : t'.id = t.id) : (Element.trafficLight t).Mild n (.trafficLight t') :=
  ⟨rfl, h, fun _ _ h => (nomatch h), fun _ _ h => (nomatch h)⟩

theorem of_intersection {i i' : Intersection} (h : i.Mild i') : (Element.intersection i).Mild n (.intersection i') where
  kind := rfl
  id := h.id
  lanelet _ _ h := nomatch h
  intersection k k' hk hk' := by
    cases hk
    cases hk'
    exact h

end Element.Mild

/-- a decision about one sort of elements -/
theorem Moderate.of_extends {α : Type} {mk : α → Element} {kind : Kind} {d : Network → α → Fix α}
    {f : Network → Element → Fix Element} (h : Fix.Extends mk kind d f)
    (hchange : ∀ n a a', d n a = .change a' → (mk a).Mild n (mk a'))
    (hsees : ∀ n n' a, (∀ kind id, n.resolves kind id = n'.resolves kind id) →
      (∀ i, mk a = .intersection i → ∀ g ∈ i.incomings, n.followers g = n'.followers g) → d n a = d n' a) :
    Moderate f where
  change n e e' hf := by
    obtain ⟨a, a', rfl, rfl, hd⟩ := h.of_change hf
    exact hchange n a a' hd
  sees n n' e hr hg := by
    by_cases he : e.kind = kind
    · obtain ⟨a, rfl⟩ := (h.makes.kind_iff e).1 he
      rw [h.on, h.on, hsees n n' a hr hg]
    · rw [h.other n e he, h.other n' e he]

/-! ## The decisions for the rules -/

namespace Lanelet

@[simp] theorem id_recentred (l : Lanelet) : l.recentred.id = l.id := by unfold recentred; split_ifs <;> rfl

@[simp] theorem predecessors_recentred (l : Lanelet) : l.recentred.predecessors = l.predecessors := by
  unfold recentred; split_ifs <;> rfl

@[simp] theorem successors_recentred (l : Lanelet) : l.recentred.successors = l.successors := by
  unfold recentred; split_ifs <;> rfl

/-- a change that does not touch the links is mild -/
theorem Mild.of_eq {n : Network} {l l' : Lanelet} (hi : l'.id = l.id) (hp : l'.predecessors = l.predecessors)
    (hs : l'.successors = l.successors) : l.Mild n l' :=
  ⟨hi, fun _ _ => by rw [hp], fun _ _ => by rw [hs]⟩

theorem Redrawn.mild {l l' : Lanelet} (h : l.Redrawn l') (n : Network) : l.Mild n l' := by
  obtain ⟨left, right, rfl⟩ := h
  exact .of_eq (by simp) (by simp) (by simp)

end Lanelet

namespace Network

theorem dangling_congr {n n' : Network} (h : ∀ kind id, n.resolves kind id = n'.resolves kind id) (kind : Kind)
    (ids : IdSet) : n.dangling kind ids = n'.dangling kind ids := by
  simp only [dangling, h]

theorem resolving_congr {n n' : Network} (h : ∀ kind id, n.resolves kind id = n'.resolves kind id) (kind : Kind)
    (ids : IdSet) : n.resolving kind ids = n'.resolving kind ids := by
  simp only [resolving, h]

theorem mem_resolving {n : Network} {kind : Kind} {ids : IdSet} {id : ElementId} (h : n.resolves kind id = true) :
    id ∈ n.resolving kind ids ↔ id ∈ ids :=
  mem_resolving_iff.trans (and_iff_left h)

end Network

namespace RuleId

/-- is the rule repaired by a decision about each element with the anchor id? -/
def decides : RuleId → Bool
  | uniqueIdLa | uniqueIdTs | uniqueIdTl | uniqueIdIn | connectionsPredecessor | connectionsSuccessor
  | nonPredecessorAsSuccessor | referencedTrafficSign | referencedTrafficLight => false
  | _ => true

/-- a rule that is repaired by a decision about each element with the anchor id, which makes mild changes only -/
def Decision (r : RuleId) : Prop :=
  ∃ kind fix, Moderate fix ∧ ∀ (m : RoadMap) id rest, r.repairAt m id rest = m.edited (m.network.fixAll kind id fix)

open Network

/-- a decision about one sort of elements -/
theorem Decision.of {r : RuleId} {α : Type} {mk : α → Element} {kind : Kind} {d : Network → α → Fix α}
    (h : r.DecidesBy mk kind d) (hchange : ∀ n a a', d n a = .change a' → (mk a).Mild n (mk a'))
    (hsees : ∀ n n' a, (∀ kind id, n.resolves kind id = n'.resolves kind id) →
      (∀ i, mk a = .intersection i → ∀ g ∈ i.incomings, n.followers g = n'.followers g) → d n a = d n' a) :
    r.Decision := by
  obtain ⟨f, hextends, hrepair⟩ := h
  exact ⟨kind, f, .of_extends hextends hchange hsees, hrepair⟩

/-- dropping the ids that lead nowhere from one set of a lanelet -/
theorem Decision.ofDropFrom {r : RuleId} (kind : Kind) (get : Lanelet → IdSet) (put : Lanelet → IdSet → Lanelet)
    (hr : ∀ (m : RoadMap) id rest, r.repairAt m id rest = m.edited (m.network.dropFrom id kind get put))
    (hput : ∀ (n : Network) (l : Lanelet), l.Mild n (put l (n.resolving kind (get l)))) : r.Decision := by
  refine .of (.ofDropFrom kind get put hr) (fun n l l' h => ?_) fun n n' l hr _ => ?_
  · rw [Lanelet.fixReferences_change h]
    exact .of_lanelet (hput n l)
  · simp only [Lanelet.fixReferences, dangling_congr hr, resolving_congr hr]

theorem decision_border {r : RuleId} (hr : r ∈ [sameVerticesSize, verticesMoreThanOne, polylinesSameDirection,
    leftSelfIntersection, rightSelfIntersection]) : r.Decision := by
  fin_cases hr
  · exact .of (.ofLanelets (fun _ l => l.fixVertexCounts) fun _ _ _ => rfl)
      (fun n l l' h => .of_lanelet ((Lanelet.redrawn_of_fixVertexCounts h).mild n)) fun _ _ _ _ _ => rfl
  · exact .of (.ofLanelets (fun _ l => l.fixDegenerate) fun _ _ _ => rfl)
      (fun n l l' h => absurd h Lanelet.fixDegenerate_ne_change) fun _ _ _ _ _ => rfl
  · exact .of (.ofLanelets (fun _ l => l.fixDirection) fun _ _ _ => rfl)
      (fun n l l' h => .of_lanelet ((Lanelet.redrawn_of_fixDirection h).mild n)) fun _ _ _ _ _ => rfl
  · exact .of (.ofLanelets (fun _ l => l.fixLoop .left) fun _ _ _ => rfl)
      (fun n l l' h => .of_lanelet ((Lanelet.redrawn_of_fixLoop h).mild n)) fun _ _ _ _ _ => rfl
  · exact .of (.ofLanelets (fun _ l => l.fixLoop .right) fun _ _ _ => rfl)
      (fun n l l' h => .of_lanelet ((Lanelet.redrawn_of_fixLoop h).mild n)) fun _ _ _ _ _ => rfl

theorem decision_adjacent {r : RuleId} (hr : r ∈ [existenceLeftAdj, existenceRightAdj]) : r.Decision := by
  have forgetting (side : Side)
      (hr : ∀ (m : RoadMap) id rest, r.repairAt m id rest = m.edited (m.network.dropAdjacency id side)) :
      r.Decision := by
    refine .of (.ofDropAdjacency side hr) (fun n l l' h => ?_) fun n n' l hr _ => ?_
    · rw [Lanelet.fixNeighbour_change h]
      cases side <;> exact .of_lanelet (.of_eq rfl rfl rfl)
    · simp only [Lanelet.fixNeighbour, hr]
  fin_cases hr
  · exact forgetting .left fun _ _ _ => rfl
  · exact forgetting .right fun _ _ _ => rfl

theorem decision_references {r : RuleId} (hr : r ∈ [existencePredecessor, existenceSuccessor, existenceTrafficSigns,
    existenceTrafficLights]) : r.Decision := by
  fin_cases hr
  · exact .ofDropFrom _ _ _ (fun _ _ _ => rfl) fun n l => ⟨rfl, fun o ho => mem_resolving ho, fun o _ => Iff.rfl⟩
  · exact .ofDropFrom _ _ _ (fun _ _ _ => rfl) fun n l => ⟨rfl, fun o _ => Iff.rfl, fun o ho => mem_resolving ho⟩
  · exact .ofDropFrom _ _ _ (fun _ _ _ => rfl) fun n l => .of_eq rfl rfl rfl
  · exact .ofDropFrom _ _ _ (fun _ _ _ => rfl) fun n l => .of_eq rfl rfl rfl

theorem decision_stopLine {r : RuleId} (hr : r ∈ [existenceStopLineTrafficSigns, existenceStopLineTrafficLights,
    includedStopLineTrafficSigns]) : r.Decision := by
  fin_cases hr
  · exact .ofDropFrom _ _ _ (fun _ _ _ => rfl) fun n l => .of_eq rfl rfl rfl
  · exact .ofDropFrom _ _ _ (fun _ _ _ => rfl) fun n l => .of_eq rfl rfl rfl
  · refine .of (.ofLanelets (fun _ l => l.fixStopLineSigns) fun _ _ _ => rfl) (fun n l l' h => ?_)
      fun _ _ _ _ _ => rfl
    rw [Lanelet.fixStopLineSigns_change h]
    exact .of_lanelet (.of_eq rfl rfl rfl)

theorem decision_trafficSign {r : RuleId} (hr : r ∈ [atLeastOneTrafficSignElement, givenAdditionalValue,
    validAdditionalValueSpeedSign]) : r.Decision := by
  fin_cases hr
  · exact .of (.ofTrafficSigns (·.fixEmpty) fun _ _ _ => rfl)
      (fun n s s' h => absurd h TrafficSign.fixEmpty_ne_change) fun _ _ _ _ _ => rfl
  · exact .of (.ofTrafficSigns (·.fixMissingValues) fun _ _ _ => rfl)
      (fun n s s' h => .of_trafficSign (TrafficSign.id_of_fixMissingValues h)) fun _ _ _ _ _ => rfl
  · exact .of (.ofTrafficSigns (·.fixSpeedValues) fun _ _ _ => rfl)
      (fun n s s' h => .of_trafficSign (TrafficSign.id_of_fixSpeedValues h)) fun _ _ _ _ _ => rfl

theorem decision_trafficLight {r : RuleId} (hr : r ∈ [atLeastOneCycleElement, nonZeroDuration, uniqueStateInCycle]) :
    r.Decision := by
  fin_cases hr
  · exact .of (.ofTrafficLights (·.fixEmpty) fun _ _ _ => rfl)
      (fun n t t' h => .of_trafficLight (TrafficLight.id_of_fixEmpty h)) fun _ _ _ _ _ => rfl
  · exact .of (.ofTrafficLights (·.fixDurations) fun _ _ _ => rfl)
      (fun n t t' h => .of_trafficLight (TrafficLight.id_of_fixDurations h)) fun _ _ _ _ _ => rfl
  · exact .of (.ofTrafficLights (·.fixRepeatedPhases) fun _ _ _ => rfl)
      (fun n t t' h => .of_trafficLight (TrafficLight.id_of_fixRepeatedPhases h)) fun _ _ _ _ _ => rfl

theorem decision_intersection {r : RuleId} (hr : r ∈ [atLeastTwoIncomingElements, existenceIncomingLanelets,
    existenceSuccessorLanelets, atLeastOneRoadConnection, existenceCrossings]) : r.Decision := by
  fin_cases hr
  · exact .of (.ofIntersections (fun _ i => i.fixUnderfull) fun _ _ _ => rfl)
      (fun n i i' h => absurd h Intersection.fixUnderfull_ne_change) fun _ _ _ _ _ => rfl
  · refine .of (.ofIntersections Intersection.fixIncomings fun _ _ _ => rfl) (fun n i i' h => ?_)
      fun n n' i hr _ => ?_
    · obtain ⟨groups, rfl, hgroups⟩ := Intersection.fixIncomings_change h
      refine .of_intersection ⟨rfl, fun g' hg' => ?_⟩
      obtain ⟨g, hg, rfl⟩ := hgroups g' hg'
      exact ⟨g, hg, fun o ho => (mem_resolving_iff.1 ho).1⟩
    · simp only [Intersection.fixIncomings, dangling_congr hr, resolving_congr hr]
  · refine .of (.ofIntersections Intersection.fixGroupSuccessors fun _ _ _ => rfl) (fun n i i' h => ?_)
      fun n n' i hr _ => ?_
    · rw [Intersection.fixGroupSuccessors_change h]
      refine .of_intersection ⟨rfl, fun g' hg' => ?_⟩
      obtain ⟨g, hg, rfl⟩ := List.mem_map.1 hg'
      exact ⟨g, hg, fun _ ho => ho⟩
    · have hfun : n.resolves .lanelet = n'.resolves .lanelet := funext (hr .lanelet)
      simp only [Intersection.fixGroupSuccessors, hfun, resolving_congr hr]
  · refine .of (.ofIntersections Intersection.fixConnections fun _ _ _ => rfl) (fun n i i' h => ?_)
      fun n n' i _ hf => ?_
    · obtain ⟨groups, rfl, hgroups⟩ := Intersection.fixConnections_change h
      refine .of_intersection ⟨rfl, fun g' hg' => ?_⟩
      obtain ⟨-, g, hg, rfl | rfl⟩ := hgroups g' hg'
      · exact ⟨g', hg, fun _ ho => ho⟩
      · exact ⟨g, hg, fun _ ho => ho⟩
    · have hgroups : (i.incomings.filterMap fun g => if !g.successors.isEmpty then some g
          else if (n.followers g).isEmpty then none else some { g with straight := n.followers g }) =
          i.incomings.filterMap fun g => if !g.successors.isEmpty then some g
            else if (n'.followers g).isEmpty then none else some { g with straight := n'.followers g } :=
        List.filterMap_congr fun g hg => by rw [hf i rfl g hg]
      simp only [Intersection.fixConnections, hgroups]
  · refine .of (.ofIntersections Intersection.fixCrossings fun _ _ _ => rfl) (fun n i i' h => ?_)
      fun n n' i hr _ => ?_
    · rw [Intersection.fixCrossings_change h]
      exact .of_intersection ⟨rfl, fun g hg => ⟨g, hg, fun _ ho => ho⟩⟩
    · simp only [Intersection.fixCrossings, dangling_congr hr, resolving_congr hr]

/-- the rules that are repaired by decision, by what the decisions are about -/
theorem family_of_decides {r : RuleId} (hr : r.decides = true) :
    r ∈ [sameVerticesSize, verticesMoreThanOne, polylinesSameDirection, leftSelfIntersection,
      rightSelfIntersection] ∨
    r ∈ [existenceLeftAdj, existenceRightAdj] ∨
    r ∈ [existencePredecessor, existenceSuccessor, existenceTrafficSigns, existenceTrafficLights] ∨
    r ∈ [existenceStopLineTrafficSigns, existenceStopLineTrafficLights, includedStopLineTrafficSigns] ∨
    r ∈ [atLeastOneTrafficSignElement, givenAdditionalValue, validAdditionalValueSpeedSign] ∨
    r ∈ [atLeastOneCycleElement, nonZeroDuration, uniqueStateInCycle] ∨
    r ∈ [atLeastTwoIncomingElements, existenceIncomingLanelets, existenceSuccessorLanelets,
      atLeastOneRoadConnection, existenceCrossings] := by
  revert hr
  cases r <;> decide

/-- **Repairs by decision.** Every rule but the unique ids, the mutual links and the references back. -/
theorem decision_of_decides {r : RuleId} (hr : r.decides = true) : r.Decision := by
  rcases family_of_decides hr with h | h | h | h | h | h | h
  · exact decision_border h
  · exact decision_adjacent h
  · exact decision_references h
  · exact decision_stopLine h
  · exact decision_trafficSign h
  · exact decision_trafficLight h
  · exact decision_intersection h

end RuleId

/-! ## Links and references back -/

namespace Network

/-- makes an edit for each lanelet with an id and each lanelet that it notes on one side -/
def complete (n : Network) (links : Lanelet → IdSet) (edit : Network → Nat → Nat → Edited) (id : ElementId) : Edited :=
  n.editEach (n.laneletsWithId id) fun n key =>
    n.editEach ((((n.lanelets.get? key).map (links · |>.toList)).getD []).flatMap n.laneletsWithId) fun n other =>
      edit n key other

/-- notes a lanelet as a successor of another one, unless that one notes the id already -/
def completeForth (id : ElementId) (n : Network) (key other : Nat) : Edited :=
  if (n.lanelets.get? other).any fun p => !p.successors.contains id then ⟨n.link other key, n.canLink other key⟩
  else .unchanged n

/-- notes a lanelet as a predecessor of another one, unless that one notes the id already -/
def completeBack (id : ElementId) (n : Network) (key other : Nat) : Edited :=
  if (n.lanelets.get? other).any fun s => !s.predecessors.contains id then ⟨n.link key other, n.canLink key other⟩
  else .unchanged n

theorem completePredecessors_eq (n : Network) (id : ElementId) :
    n.completePredecessors id = n.complete (·.predecessors) (completeForth id) id := rfl

theorem completeSuccessors_eq (n : Network) (id : ElementId) :
    n.completeSuccessors id = n.complete (·.successors) (completeBack id) id := rfl

/-- an edit that makes a link between two lanelets, or nothing -/
def MakesLinks (edit : Network → Nat → Nat → Edited) : Prop :=
  ∀ n key other, edit n key other = .unchanged n ∨
    ∃ pred succ, edit n key other = ⟨n.link pred succ, n.canLink pred succ⟩

theorem makesLinks_completeForth (id : ElementId) : MakesLinks (completeForth id) := by
  intro n key other
  unfold completeForth
  split_ifs
  · exact Or.inr ⟨other, key, rfl⟩
  · exact Or.inl rfl

theorem makesLinks_completeBack (id : ElementId) : MakesLinks (completeBack id) := by
  intro n key other
  unfold completeBack
  split_ifs
  · exact Or.inr ⟨key, other, rfl⟩
  · exact Or.inl rfl

/-- makes the lanelet nearest to each element with an id note the id, or removes the element if no lanelet is near;
nothing is done as long as some lanelet refers to the id -/
def attach (n : Network) (kind : Kind) (noted : Lanelet → Bool) (note : Lanelet → Lanelet) (id : ElementId) : Edited :=
  if n.lanelets.values.any fun l => ((Element.lanelet l).refs kind).contains id then .unchanged n
  else
    n.editEach (n.keysWithId kind id) fun n key =>
      match ((n.element? ⟨kind, key⟩).bind Element.position?).bind fun p => n.nearestLanelet? p attachDistance with
      | some lanelet =>
        ⟨{ n with lanelets := n.lanelets.modify lanelet note }, (n.lanelets.get? lanelet).any fun l => !noted l⟩
      | none => ⟨n.remove ⟨kind, key⟩, n.contains ⟨kind, key⟩⟩

/-- what is done to one element that no lanelet refers to -/
def attachOne (kind : Kind) (noted : Lanelet → Bool) (note : Lanelet → Lanelet) (n : Network) (key : Nat) : Edited :=
  match ((n.element? ⟨kind, key⟩).bind Element.position?).bind fun p => n.nearestLanelet? p attachDistance with
  | some lanelet =>
    ⟨{ n with lanelets := n.lanelets.modify lanelet note }, (n.lanelets.get? lanelet).any fun l => !noted l⟩
  | none => ⟨n.remove ⟨kind, key⟩, n.contains ⟨kind, key⟩⟩

section Attach

variable {n : Network} {kind : Kind} {noted : Lanelet → Bool} {note : Lanelet → Lanelet} {id : ElementId}

/-- an id that a lanelet refers to is not attached -/
theorem attach_unchanged (h : ∃ l ∈ n.lanelets.values, id ∈ (Element.lanelet l).refs kind) :
    n.attach kind noted note id = .unchanged n := by
  obtain ⟨l, hl, href⟩ := h
  exact if_pos (List.any_eq_true.2 ⟨l, hl, by simpa using href⟩)

/-- elements that no lanelet refers to are attached one after the other -/
theorem attach_eq_editEach (h : ¬ ∃ l ∈ n.lanelets.values, id ∈ (Element.lanelet l).refs kind) :
    n.attach kind noted note id = n.editEach (n.keysWithId kind id) (attachOne kind noted note) := by
  refine if_neg fun hany => h ?_
  obtain ⟨l, hl, href⟩ := List.any_eq_true.1 hany
  exact ⟨l, hl, by simpa using href⟩

end Attach

theorem attachTrafficSigns_eq (n : Network) (id : ElementId) : n.attachTrafficSigns id =
    n.attach .trafficSign (·.trafficSigns.contains id)
      (fun l => { l with trafficSigns := l.trafficSigns.insert id }) id := by
  have position : ∀ (n : Network) key, (n.element? ⟨.trafficSign, key⟩).bind Element.position? =
      (n.trafficSigns.get? key).bind (·.position) := by
    intro n key
    simp only [element?]
    cases n.trafficSigns.get? key <;> rfl
  have there : ∀ (n : Network) key, n.contains ⟨.trafficSign, key⟩ = n.trafficSigns.contains key := by
    intro n key
    simp [Network.contains, Store.contains]
  simp only [attach, position, there]
  rfl

theorem attachTrafficLights_eq (n : Network) (id : ElementId) : n.attachTrafficLights id =
    n.attach .trafficLight (·.trafficLights.contains id)
      (fun l => { l with trafficLights := l.trafficLights.insert id }) id := by
  have position : ∀ (n : Network) key, (n.element? ⟨.trafficLight, key⟩).bind Element.position? =
      (n.trafficLights.get? key).bind (·.position) := by
    intro n key
    simp only [element?]
    cases n.trafficLights.get? key <;> rfl
  have there : ∀ (n : Network) key, n.contains ⟨.trafficLight, key⟩ = n.trafficLights.contains key := by
    intro n key
    simp [Network.contains, Store.contains]
  simp only [attach, position, there]
  rfl

end Network

namespace Lanelet

/-- a change of what a lanelet refers to, without effect on its id, its links and its course -/
structure Noting (note : Lanelet → Lanelet) : Prop where
  id : ∀ l, (note l).id = l.id
  predecessors : ∀ l, (note l).predecessors = l.predecessors
  successors : ∀ l, (note l).successors = l.successors
  distance : ∀ l p limit, (note l).distanceWithin? p limit = l.distanceWithin? p limit

/-- Lanelets come to refer to the id of a sign or a light. Those that note it already stay as they are. -/
structure Notes (kind : Kind) (id : ElementId) (noted : Lanelet → Bool) (note : Lanelet → Lanelet) : Prop where
  noting : Noting note
  kind_ne : kind ≠ .lanelet
  idle : ∀ l, noted l = true → note l = l
  refs : ∀ l k ref, ref ∈ (Element.lanelet (note l)).refs k ↔ (k = kind ∧ ref = id) ∨ ref ∈ (Element.lanelet l).refs k

theorem notes_trafficSign (id : ElementId) : Notes .trafficSign id (·.trafficSigns.contains id)
    fun l => { l with trafficSigns := l.trafficSigns.insert id } where
  noting := ⟨fun _ => rfl, fun _ => rfl, fun _ => rfl, fun _ _ _ => rfl⟩
  kind_ne := nofun
  idle l hl := by rw [Element.insert_of_mem (SortedSet.contains_iff.1 hl)]
  refs l k ref := by
    cases k with
    | trafficSign =>
      change ref ∈ trafficSignRefs _ ↔ _ ∨ ref ∈ l.trafficSignRefs
      rw [mem_trafficSignRefs, mem_trafficSignRefs, SortedSet.mem_insert, or_assoc, and_iff_right rfl]
    | _ => exact (or_iff_right nofun).symm

theorem notes_trafficLight (id : ElementId) : Notes .trafficLight id (·.trafficLights.contains id)
    fun l => { l with trafficLights := l.trafficLights.insert id } where
  noting := ⟨fun _ => rfl, fun _ => rfl, fun _ => rfl, fun _ _ _ => rfl⟩
  kind_ne := nofun
  idle l hl := by rw [Element.insert_of_mem (SortedSet.contains_iff.1 hl)]
  refs l k ref := by
    cases k with
    | trafficLight =>
      change ref ∈ trafficLightRefs _ ↔ _ ∨ ref ∈ l.trafficLightRefs
      rw [mem_trafficLightRefs, mem_trafficLightRefs, SortedSet.mem_insert, or_assoc, and_iff_right rfl]
    | _ => exact (or_iff_right nofun).symm

end Lanelet

/-! ## All forms -/

namespace RuleId

open Network

variable {r : RuleId}

/-- The edits by which rules are repaired that are not about shared ids. -/
inductive Form (r : RuleId) (id : ElementId) (rest : List ElementId) : (Network → Edited) → Prop where
  | decision {kind : Kind} {fix : Network → Element → Fix Element} (decides : r.decides = true)
      (moderate : Moderate fix) : Form r id rest fun n => n.fixAll kind id fix
  | forth : Form r id rest fun n => n.complete (·.predecessors) (completeForth id) id
  | back : Form r id rest fun n => n.complete (·.successors) (completeBack id) id
  /-- the links of a lanelet to another one, if the location names one -/
  | breaking {other : ElementId} (hr : r = nonPredecessorAsSuccessor) (hother : rest.head? = some other) :
      Form r id rest fun n => n.breakTwoWayLinks id other
  | nothing : Form r id rest .unchanged
  | attaching {kind : Kind} {noted : Lanelet → Bool} {note : Lanelet → Lanelet}
      (notes : Lanelet.Notes kind id noted note) : Form r id rest fun n => n.attach kind noted note id

theorem repairAt_connectionsPredecessor (m : RoadMap) (id : ElementId) (rest : List ElementId) :
    connectionsPredecessor.repairAt m id rest =
      m.edited (m.network.complete (·.predecessors) (completeForth id) id) :=
  congrArg m.edited (m.network.completePredecessors_eq id)

theorem repairAt_connectionsSuccessor (m : RoadMap) (id : ElementId) (rest : List ElementId) :
    connectionsSuccessor.repairAt m id rest = m.edited (m.network.complete (·.successors) (completeBack id) id) :=
  congrArg m.edited (m.network.completeSuccessors_eq id)

theorem repairAt_referencedTrafficSign (m : RoadMap) (id : ElementId) (rest : List ElementId) :
    referencedTrafficSign.repairAt m id rest = m.edited (m.network.attach .trafficSign (·.trafficSigns.contains id)
      (fun l => { l with trafficSigns := l.trafficSigns.insert id }) id) :=
  congrArg m.edited (m.network.attachTrafficSigns_eq id)

theorem repairAt_referencedTrafficLight (m : RoadMap) (id : ElementId) (rest : List ElementId) :
    referencedTrafficLight.repairAt m id rest = m.edited (m.network.attach .trafficLight (·.trafficLights.contains id)
      (fun l => { l with trafficLights := l.trafficLights.insert id }) id) :=
  congrArg m.edited (m.network.attachTrafficLights_eq id)

/-- rules of the general topic have shared ids separated -/
theorem repairAt_general (hr : r.topic = .general) (m : RoadMap) (id : ElementId) (rest : List ElementId) :
    r.repairAt m id rest = m.separateIds id := by
  cases r <;> first | rfl | exact absurd hr (by decide)

/-- **All that a repair may do** but hand out ids. The edit does not depend on the network. -/
theorem exists_form (hr : r.topic ≠ .general) (id : ElementId) (rest : List ElementId) :
    ∃ edit, r.Form id rest edit ∧ ∀ m, r.repairAt m id rest = m.edited (edit m.network) := by
  by_cases hd : r.decides = true
  · obtain ⟨kind, fix, moderate, hrepair⟩ := decision_of_decides hd
    exact ⟨_, .decision hd moderate, fun m => hrepair m id rest⟩
  · cases r <;> first | exact absurd rfl hd | exact absurd rfl hr | skip
    case connectionsPredecessor => exact ⟨_, .forth, fun m => repairAt_connectionsPredecessor m id rest⟩
    case connectionsSuccessor => exact ⟨_, .back, fun m => repairAt_connectionsSuccessor m id rest⟩
    case nonPredecessorAsSuccessor =>
      cases rest with
      | nil => exact ⟨_, .nothing, fun _ => rfl⟩
      | cons other rest => exact ⟨_, .breaking rfl rfl, fun _ => rfl⟩
    case referencedTrafficSign =>
      exact ⟨_, .attaching (Lanelet.notes_trafficSign id), fun m => repairAt_referencedTrafficSign m id rest⟩
    case referencedTrafficLight =>
      exact ⟨_, .attaching (Lanelet.notes_trafficLight id), fun m => repairAt_referencedTrafficLight m id rest⟩

end RuleId

end RoadRules
