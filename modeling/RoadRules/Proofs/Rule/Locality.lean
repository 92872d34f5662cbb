/-
Checking a neighbourhood in place of the network.

A fault at elements of which the first has a given id is decided by what surrounds the id: it is there in a copy of the
surroundings just if it is there in the network (`at_extract`). Hence a check of the copy reports the same locations
that start with such an id as a check of the network, in the same order (`verifyRule_extract`), and
`verify_neighbourhood` says so of the neighbourhoods that are taken when the program runs.
-/
import RoadRules.Proofs.Rule.Violations
import RoadRules.Proofs.Network.Rewriting
import RoadRules.Proofs.Network.Surroundings

namespace RoadRules

/-! ## Faults seen in a copy -/

/-- the fault looks only at references that a neighbourhood follows and that go with a removed element -/
def Fault.Followed : Fault → Prop
  | .missing kind refs => ∀ e, ∀ id ∈ refs e, id ∈ e.refs kind
  | .unanswered there back =>
    there = Lanelet.predecessors ∧ back = Lanelet.successors ∨ there = Lanelet.successors ∧ back = Lanelet.predecessors
  | .unreferenced kind refs =>
    kind = .trafficSign ∧ refs = Lanelet.trafficSignRefs ∨ kind = .trafficLight ∧ refs = Lanelet.trafficLightRefs
  | _ => True

theorem Lanelet.touches_iff {l k : Lanelet} :
    l.touches k = true ↔ k.id ∈ l.linkedLanelets ∨ l.id ∈ k.linkedLanelets := by
  simp [touches]

theorem Fault.followed_missingFrom {kind : Kind} {refs : Lanelet → List ElementId}
    (h : ∀ l, ∀ id ∈ refs l, id ∈ (Element.lanelet l).refs kind) : (missingFrom kind refs).Followed := by
  intro e id hid
  cases e with
  | lanelet l => exact h l id hid
  | _ => cases hid

theorem Fault.followed_missingAt {refs : Intersection → List ElementId} (h : ∀ i, ∀ id ∈ refs i, id ∈ i.lanelets) :
    (missingAt refs).Followed := by
  intro e id hid
  cases e with
  | intersection i => exact h i id hid
  | _ => cases hid

theorem RuleId.followed (r : RuleId) : r.fault.Followed := by
  have linked : ∀ (l : Lanelet) id, (id ∈ l.predecessors ∨ id ∈ l.successors ∨
      (∃ a, l.adjacentLeft = some a ∧ a.id = id) ∨ ∃ a, l.adjacentRight = some a ∧ a.id = id) →
      id ∈ (Element.lanelet l).refs .lanelet := fun l id => Lanelet.mem_linkedLanelets.2
  have group : ∀ (i : Intersection) id, (∃ g ∈ i.incomings, id ∈ g.lanelets ∨ id ∈ g.successors) → id ∈ i.lanelets := by
    rintro i id ⟨g, hg, h⟩
    refine List.mem_append.2 (Or.inl (List.mem_flatMap.2 ⟨g, hg, ?_⟩))
    exact List.mem_append.2 h
  cases r
  case existenceLeftAdj =>
    refine Fault.followed_missingFrom fun l id h => linked l id (Or.inr (Or.inr (Or.inl ?_)))
    simpa using h
  case existenceRightAdj =>
    refine Fault.followed_missingFrom fun l id h => linked l id (Or.inr (Or.inr (Or.inr ?_)))
    simpa using h
  case existencePredecessor => exact Fault.followed_missingFrom fun l id h => linked l id (Or.inl h)
  case existenceSuccessor => exact Fault.followed_missingFrom fun l id h => linked l id (Or.inr (Or.inl h))
  case existenceTrafficSigns => exact Fault.followed_missingFrom fun l id h => List.mem_append.2 (Or.inl h)
  case existenceTrafficLights => exact Fault.followed_missingFrom fun l id h => List.mem_append.2 (Or.inl h)
  case existenceStopLineTrafficSigns => exact Fault.followed_missingFrom fun l id h => List.mem_append.2 (Or.inr h)
  case existenceStopLineTrafficLights => exact Fault.followed_missingFrom fun l id h => List.mem_append.2 (Or.inr h)
  case existenceIncomingLanelets =>
    refine Fault.followed_missingAt fun i id h => group i id ?_
    obtain ⟨g, hg, h⟩ := List.mem_flatMap.1 h
    exact ⟨g, hg, Or.inl h⟩
  case existenceSuccessorLanelets =>
    refine Fault.followed_missingAt fun i id h => group i id ?_
    obtain ⟨g, hg, h⟩ := List.mem_flatMap.1 h
    exact ⟨g, hg, Or.inr h⟩
  case existenceCrossings => exact Fault.followed_missingAt fun i id h => List.mem_append.2 (Or.inr h)
  case connectionsPredecessor => exact Or.inl ⟨rfl, rfl⟩
  case connectionsSuccessor => exact Or.inr ⟨rfl, rfl⟩
  case referencedTrafficSign => exact Or.inl ⟨rfl, rfl⟩
  case referencedTrafficLight => exact Or.inr ⟨rfl, rfl⟩
  all_goals trivial

/-- what a lanelet should be answered by is linked with it -/
theorem Fault.Followed.linked {there back : Lanelet → IdSet} (h : (unanswered there back).Followed) {l : Lanelet}
    {id : ElementId} (hid : id ∈ there l) : id ∈ l.linkedLanelets := by
  rcases h with ⟨rfl, -⟩ | ⟨rfl, -⟩
  · exact Lanelet.mem_linkedLanelets.2 (Or.inl hid)
  · exact Lanelet.mem_linkedLanelets.2 (Or.inr (Or.inl hid))

namespace Network

variable {n : Network} {s : Scope} {ids : List ElementId}

/-- what a lanelet with one of the ids is linked with is in the scope -/
theorem Surrounds.has_linked (hs : Surrounds n s ids) {x y : Handle} {l k : Lanelet} {id : ElementId}
    (hid : n.idOf? x = some id) (hm : id ∈ ids) (hl : n.element? x = some (.lanelet l))
    (hk : n.element? y = some (.lanelet k)) (hlink : k.id ∈ l.linkedLanelets) : s.Has y := by
  have hlid : l.id = id := Option.some.inj ((idOf?_of_element? hl).symm.trans hid)
  obtain ⟨i, rfl, hi⟩ := element?_eq_lanelet.1 hl
  obtain ⟨j, rfl, hj⟩ := element?_eq_lanelet.1 hk
  exact hs.links hj hi (hlid.symm ▸ hm) (Lanelet.touches_iff.2 (Or.inr hlink))

/-- a lanelet that refers to a sign or a light with one of the ids is in the scope -/
theorem Surrounds.has_referrer (hs : Surrounds n s ids) {x y : Handle} {l : Lanelet} {id : ElementId}
    {refs : Lanelet → List ElementId} (hf : (Fault.unreferenced x.kind refs).Followed) (hid : n.idOf? x = some id)
    (hm : id ∈ ids) (hl : n.element? y = some (.lanelet l)) (hr : id ∈ refs l) : s.Has y := by
  obtain ⟨j, rfl, hj⟩ := element?_eq_lanelet.1 hl
  obtain ⟨kind, key⟩ := x
  rcases hf with ⟨hkind, rfl⟩ | ⟨hkind, rfl⟩
  · cases hkind
    obtain ⟨t, ht, rfl⟩ := Option.map_eq_some_iff.1 hid
    exact hs.signReferrers ht hm hj hr
  · cases hkind
    obtain ⟨t, ht, rfl⟩ := Option.map_eq_some_iff.1 hid
    exact hs.lightReferrers ht hm hj hr

/-- **A fault is decided by what surrounds its first element.** -/
theorem at_extract (hs : Surrounds n s ids) {f : Fault} (hf : f.Followed) {x : Handle} {rest : List Handle}
    {id : ElementId} (hid : n.idOf? x = some id) (hm : id ∈ ids) :
    f.At (n.extract s) (x :: rest) ↔ f.At n (x :: rest) := by
  have hx : s.Has x := hs.bearers x id hm hid
  cases f with
  | shared kind =>
    simp only [Fault.at_shared]
    constructor
    · rintro ⟨y, hb, hk, i, hy, z, hz, hzid⟩
      exact ⟨y, hb, hk, i, (idOf?_of_extract hy).2, z, hz, (idOf?_of_extract hzid).2⟩
    · rintro ⟨y, hb, hk, i, hy, z, hz, hzid⟩
      cases (List.cons.inj hb).1
      cases hid.symm.trans hy
      exact ⟨x, hb, hk, id, (idOf?_extract_of_has hx).trans hy, z, hz,
        (idOf?_extract_of_has (hs.bearers z id hm hzid)).trans hzid⟩
  | own wrong =>
    simp only [Fault.at_own]
    refine exists₂_congr fun y e => and_congr_right fun hb => ?_
    rw [(List.cons.inj hb).1.symm, element?_extract_of_has hx]
  | missing kind refs =>
    simp only [Fault.at_missing, resolves_extract]
    refine exists₂_congr fun y e => and_congr_right fun hb => ?_
    rw [(List.cons.inj hb).1.symm, element?_extract_of_has hx]
  | unanswered there back =>
    simp only [Fault.at_unanswered]
    constructor
    · rintro ⟨y, l, hb, hl, z, k, hk, hthere, hback⟩
      exact ⟨y, l, hb, (element?_of_extract hl).2, z, k, (element?_of_extract hk).2, hthere, hback⟩
    · rintro ⟨y, l, hb, hl, z, k, hk, hthere, hback⟩
      cases (List.cons.inj hb).1
      have hz : s.Has z := hs.has_linked hid hm hl hk (hf.linked hthere)
      exact ⟨x, l, hb, (element?_extract_of_has hx).trans hl, z, k, (element?_extract_of_has hz).trans hk, hthere,
        hback⟩
  | bothWays =>
    simp only [Fault.at_bothWays]
    constructor
    · rintro ⟨y, z, l, k, hb, hl, hk, hp⟩
      exact ⟨y, z, l, k, hb, (element?_of_extract hl).2, (element?_of_extract hk).2, hp⟩
    · rintro ⟨y, z, l, k, hb, hl, hk, hp⟩
      cases (List.cons.inj hb).1
      have hz : s.Has z := hs.has_linked hid hm hl hk (Lanelet.mem_linkedLanelets.2 (Or.inl hp.1))
      exact ⟨x, z, l, k, hb, (element?_extract_of_has hx).trans hl, (element?_extract_of_has hz).trans hk, hp⟩
  | unreferenced kind refs =>
    simp only [Fault.at_unreferenced]
    refine exists₂_congr fun y i => and_congr_right fun hb => ?_
    cases (List.cons.inj hb).1
    rw [idOf?_extract_of_has hx]
    refine and_congr_right fun hk => and_congr_right fun hi => ?_
    cases hid.symm.trans hi
    subst hk
    constructor
    · -- a lanelet that refers to the id is among the surroundings, so the copy shows it
      intro hno y l hl hr
      have hy : s.Has y := hs.has_referrer hf hid hm hl hr
      exact hno y l ((element?_extract_of_has hy).trans hl) hr
    · intro hno y l hl
      exact hno y l (element?_of_extract hl).2

end Network

/-! ## Checks of a copy -/

theorem filter_eraseDups {α : Type} [BEq α] [LawfulBEq α] (p : α → Bool) :
    ∀ l : List α, l.eraseDups.filter p = (l.filter p).eraseDups
  | [] => rfl
  | a :: rest => by
    have ih := filter_eraseDups p (rest.filter fun b => !b == a)
    rw [List.eraseDups_cons, List.filter_cons, List.filter_cons, ih, List.filter_filter]
    have hcomm : (rest.filter fun b => p b && !b == a) = (rest.filter p).filter fun b => !b == a := by
      rw [List.filter_filter]; simp only [Bool.and_comm]
    split_ifs with hp
    · rw [List.eraseDups_cons, hcomm]
    · -- what was dropped as a repetition of `a` is dropped by `p` as well
      refine congrArg _ (hcomm.trans (List.filter_eq_self.2 fun b hb => ?_))
      have hpb := (List.mem_filter.1 hb).2
      have hne : b ≠ a := by rintro rfl; exact hp hpb
      simpa using hne
termination_by l => l.length
decreasing_by exact Nat.lt_succ_of_le (List.length_filter_le _ _)

theorem choices_filter {α : Type} (p : α → Bool) :
    ∀ ls : List (List α), choices (ls.map (List.filter p)) = (choices ls).filter (List.all · p)
  | [] => rfl
  | l :: ls => by
    have ih := choices_filter p ls
    simp only [List.map_cons, choices, ih]
    induction l with
    | nil => rfl
    | cons x l ihl =>
      rw [List.filter_cons, List.flatMap_cons, List.filter_append, ← ihl, List.filter_map]
      have hcomp : ((List.all · p) ∘ fun rest => x :: rest) = fun rest : List α => p x && rest.all p := rfl
      rw [hcomp]
      split_ifs with hx
      · simp only [List.flatMap_cons, hx, Bool.true_and]
      · simp only [Bool.not_eq_true] at hx
        simp [hx]

namespace Network

theorem domain_extract (n : Network) (s : Scope) (d : Domain) :
    (n.extract s).view.index.domain d = (n.view.index.domain d).filter s.contains := by
  have handles : ∀ kind, (n.extract s).handles kind = (n.handles kind).filter s.contains := by
    intro kind
    cases kind <;> simp only [Network.handles, Network.keys, Store.keys, extract, Store.restrict, List.filter_map,
      List.map_map] <;> rfl
  show (NetworkIndex.build _).domain d = ((NetworkIndex.build n).domain d).filter s.contains
  rw [NetworkIndex.domain_build, NetworkIndex.domain_build]
  cases NetworkIndex.kind? d with
  | some kind => exact handles kind
  | none => simp only [allHandles, List.filter_flatMap, ← handles]

theorem bindings_extract (n : Network) (s : Scope) (e : CatalogEntry) :
    Catalog.bindings (n.extract s).view e = (Catalog.bindings n.view e).filter (List.all · s.contains) := by
  rw [Catalog.bindings, Catalog.bindings, ← choices_filter, List.map_map]
  simp only [Function.comp_def, domain_extract]

variable {n : Network} {s : Scope} {ids : List ElementId}

/-- the locations that start with one of the ids -/
def startsIn (ids : List ElementId) (l : Location) : Bool := l.head?.any ids.contains

/-- a choice at which a rule is broken, with an anchor among the ids, is seen in the copy just as in the network -/
theorem isBroken_extract (hs : Surrounds n s ids) (r : RuleId) {b : List Handle}
    (hb : b ∈ Catalog.bindings n.view r.standardEntry) :
    (b.all s.contains && !Catalog.holdsAt (n.extract s).setting r.standardEntry b &&
      startsIn ids (b.filterMap (n.extract s).idOf?)) =
    (!Catalog.holdsAt n.setting r.standardEntry b && startsIn ids (b.filterMap n.idOf?)) := by
  have same : b.all s.contains = true → b.filterMap (n.extract s).idOf? = b.filterMap n.idOf? := fun hall =>
    List.filterMap_congr fun h hh => idOf?_extract_of_has (Scope.contains_iff.1 (List.all_eq_true.1 hall h hh))
  have anchor : startsIn ids (b.filterMap n.idOf?) = true →
      ∃ x rest id, b = x :: rest ∧ n.idOf? x = some id ∧ id ∈ ids := by
    intro hst
    match b, hb with
    | [], _ => cases hst
    | x :: rest, hb =>
      obtain ⟨id, hid⟩ := Catalog.present_of_bindings hb x List.mem_cons_self
      rw [List.filterMap_cons_some hid] at hst
      exact ⟨x, rest, id, rfl, hid, by simpa [startsIn] using hst⟩
  rw [Bool.eq_iff_iff]
  simp only [Bool.and_eq_true, Bool.not_eq_true']
  constructor
  · rintro ⟨⟨hall, hbroken⟩, hst⟩
    rw [same hall] at hst
    obtain ⟨x, rest, id, rfl, hid, hm⟩ := anchor hst
    have hsub : r.IsBroken (n.extract s) (x :: rest) :=
      ⟨by rw [bindings_extract]; exact List.mem_filter.2 ⟨hb, hall⟩, hbroken⟩
    rw [RuleId.isBroken_iff, at_extract hs r.followed hid hm, ← RuleId.isBroken_iff] at hsub
    exact ⟨hsub.2, hst⟩
  · rintro ⟨hbroken, hst⟩
    obtain ⟨x, rest, id, rfl, hid, hm⟩ := anchor hst
    have hwhole : r.IsBroken n (x :: rest) := ⟨hb, hbroken⟩
    rw [RuleId.isBroken_iff, ← at_extract hs r.followed hid hm, ← RuleId.isBroken_iff] at hwhole
    have hall := (List.mem_filter.1 (bindings_extract n s _ ▸ hwhole.1)).2
    exact ⟨⟨hall, hwhole.2⟩, by rw [same hall]; exact hst⟩

/-- **A check of the surroundings.** For locations that start with one of the ids it reports what a check of the network
reports, in the same order. -/
theorem verifyRule_extract (hs : Surrounds n s ids) (r : RuleId) :
    (standardCatalog.verifyRule (n.extract s).view r).filter (startsIn ids) =
      (standardCatalog.verifyRule n.view r).filter (startsIn ids) := by
  have verified : ∀ m : Network, standardCatalog.verifyRule m.view r =
      (((Catalog.bindings m.view r.standardEntry).filter fun b => !Catalog.holdsAt m.setting r.standardEntry b).map
        fun b => b.filterMap m.idOf?).eraseDups := Catalog.verifyRule_eq (Catalog.entry?_standard r)
  rw [verified, verified, filter_eraseDups, filter_eraseDups, List.filter_map, List.filter_map, List.filter_filter,
    List.filter_filter, bindings_extract, List.filter_filter]
  have hkeep : ((Catalog.bindings n.view r.standardEntry).filter fun b =>
      (startsIn ids ∘ fun b => b.filterMap (n.extract s).idOf?) b &&
        !Catalog.holdsAt (n.extract s).setting r.standardEntry b && b.all s.contains) =
      (Catalog.bindings n.view r.standardEntry).filter fun b =>
        (startsIn ids ∘ fun b => b.filterMap n.idOf?) b && !Catalog.holdsAt n.setting r.standardEntry b := by
    refine List.filter_congr fun b hb => ?_
    have h := isBroken_extract hs r hb
    simp only [Function.comp_apply]
    rw [Bool.and_comm (startsIn ids _) (!Catalog.holdsAt n.setting _ _), ← h]
    ac_rfl
  rw [hkeep]
  refine congrArg _ (List.map_congr_left fun b hb => ?_)
  -- what is kept lies in the scope, where the copy has the same ids
  rw [← hkeep] at hb
  have hall := ((Bool.and_eq_true _ _).mp (List.mem_filter.1 hb).2).2
  exact List.filterMap_congr fun h hh => idOf?_extract_of_has (Scope.contains_iff.1 (List.all_eq_true.1 hall h hh))

/-- what starts with one of the ids, a copy of their surroundings has just if the network has it -/
theorem violates_extract (hs : Surrounds n s ids) {v : Violation} {id : ElementId} (hhead : v.location.head? = some id)
    (hm : id ∈ ids) : (n.extract s).Violates v ↔ n.Violates v := by
  have starts : startsIn ids v.location = true := by
    rw [startsIn, hhead]
    exact List.contains_iff_mem.2 hm
  have same := verifyRule_extract hs v.rule
  constructor
  · intro h
    have hv := List.mem_filter.2 ⟨mem_verifyRule.2 h, starts⟩
    rw [same] at hv
    exact mem_verifyRule.1 (List.mem_filter.1 hv).1
  · intro h
    have hv := List.mem_filter.2 ⟨mem_verifyRule.2 h, starts⟩
    rw [← same] at hv
    exact mem_verifyRule.1 (List.mem_filter.1 hv).1

/-- **Localization is exact.** For any rules, the locations found in the neighbourhood of some ids are the ones found in
the network, as far as they start with one of the ids. -/
theorem verify_neighbourhood : ∃ c, Catalog.standard = .ok c ∧
    ∀ (n : Network) (radius : Nat) (ids : IdSet) (rules : List RuleId) (r : RuleId),
      (((c.verify (n.extract (n.aroundAll radius ids.toList)) rules).at? r).getD []).filter
          (fun l => l.head?.any ids.contains) =
        (((c.verify n rules).at? r).getD []).filter (fun l => l.head?.any ids.contains) := by
  refine ⟨standardCatalog, Catalog.standard_eq, fun n radius ids rules r => ?_⟩
  have hcontains : (fun l : Location => l.head?.any ids.contains) = startsIn ids.toList := by
    funext l
    refine congrArg l.head?.any (funext fun id => ?_)
    exact (List.contains_eq_mem id ids.toList).symm
  rw [hcontains, Violations.at?_verify, Violations.at?_verify]
  split_ifs
  · exact verifyRule_extract (n.surrounds_aroundAll radius ids.toList) r
  · rfl

end Network

end RoadRules
