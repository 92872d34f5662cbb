/-
What the rules say about a network.

- `isBroken_iff`: at a choice of elements the formula of a rule is not true just if its fault is there.
- `mem_verifyRule`: the locations reported for a rule are those of its faults.
- `mem_verify`: the violations found for some rules are the faults of these rules.
-/
import RoadRules.Proofs.Rule.Truth
import RoadRules.Rule.Verify

namespace RoadRules

/-! ## Faults at a choice of elements -/

namespace Fault

variable {n : Network} {b : List Handle}

theorem at_shared {kind : Kind} : (shared kind).At n b ↔
    ∃ x, b = [x] ∧ x.kind = kind ∧ ∃ id, n.idOf? x = some id ∧ ∃ y, y ≠ x ∧ n.idOf? y = some id := by
  match b with
  | [] | _ :: _ :: _ => simp [At]
  | [x] => simp [At]

theorem at_own {wrong : Element → Bool} :
    (own wrong).At n b ↔ ∃ x e, b = [x] ∧ n.element? x = some e ∧ wrong e = true := by
  match b with
  | [] | _ :: _ :: _ => simp [At]
  | [x] => simp [At]

theorem at_missing {kind : Kind} {refs : Element → List ElementId} : (missing kind refs).At n b ↔
    ∃ x e, b = [x] ∧ n.element? x = some e ∧ ∃ ref ∈ refs e, n.resolves kind ref = false := by
  match b with
  | [] | _ :: _ :: _ => simp [At]
  | [x] => simp [At]

theorem at_unanswered {there back : Lanelet → IdSet} : (unanswered there back).At n b ↔
    ∃ x l, b = [x] ∧ n.element? x = some (.lanelet l) ∧
      ∃ y k, n.element? y = some (.lanelet k) ∧ k.id ∈ there l ∧ ¬ l.id ∈ back k := by
  match b with
  | [] | _ :: _ :: _ => simp [At]
  | [x] => simp [At]

theorem at_bothWays : bothWays.At n b ↔
    ∃ x y l k, b = [x, y] ∧ n.element? x = some (.lanelet l) ∧ n.element? y = some (.lanelet k) ∧
      k.id ∈ l.predecessors ∧ k.id ∈ l.successors := by
  match b with
  | [] | [_] | _ :: _ :: _ :: _ => simp [At]
  | [x, y] => simp [At]

theorem at_unreferenced {kind : Kind} {refs : Lanelet → List ElementId} : (unreferenced kind refs).At n b ↔
    ∃ x id, b = [x] ∧ x.kind = kind ∧ n.idOf? x = some id ∧ ∀ y l, n.element? y = some (.lanelet l) → id ∉ refs l := by
  match b with
  | [] | _ :: _ :: _ => simp [At]
  | [x] => simp [At]

section Views

variable {α : Type} (mk : α → Element)

/-- a fault of elements of one sort, which are made by `mk` -/
theorem at_own_of {wrong : Element → Bool} {p : α → Prop} (hw : ∀ e, wrong e = true ↔ ∃ a, e = mk a ∧ ¬ p a) :
    (own wrong).At n b ↔ ∃ x a, b = [x] ∧ n.element? x = some (mk a) ∧ ¬ p a := by
  rw [at_own]
  constructor
  · rintro ⟨x, e, hb, he, hwe⟩
    obtain ⟨a, rfl, ha⟩ := (hw e).1 hwe
    exact ⟨x, a, hb, he, ha⟩
  · rintro ⟨x, a, hb, he, ha⟩
    exact ⟨x, mk a, hb, he, (hw _).2 ⟨a, rfl, ha⟩⟩

theorem at_missing_of {kind : Kind} {refs : Element → List ElementId} {refsOf : α → List ElementId}
    (hr : ∀ e ref, ref ∈ refs e ↔ ∃ a, e = mk a ∧ ref ∈ refsOf a) : (missing kind refs).At n b ↔
      ∃ x a, b = [x] ∧ n.element? x = some (mk a) ∧ ¬ ∀ ref ∈ refsOf a, n.resolves kind ref = true := by
  rw [at_missing]
  constructor
  · rintro ⟨x, e, hb, he, ref, hm, hn⟩
    obtain ⟨a, rfl, ha⟩ := (hr e ref).1 hm
    exact ⟨x, a, hb, he, fun h => absurd (h ref ha) (by simp [hn])⟩
  · rintro ⟨x, a, hb, he, hn⟩
    push Not at hn
    obtain ⟨ref, hm, hn⟩ := hn
    exact ⟨x, mk a, hb, he, ref, (hr _ _).2 ⟨a, rfl, hm⟩, by simpa using hn⟩

end Views

theorem at_ofLanelet {right : Lanelet → Bool} : (ofLanelet right).At n b ↔
    ∃ x l, b = [x] ∧ n.element? x = some (.lanelet l) ∧ ¬ right l = true :=
  at_own_of .lanelet fun e => by cases e <;> simp

theorem at_ofSign {right : TrafficSign → Bool} : (ofSign right).At n b ↔
    ∃ x s, b = [x] ∧ n.element? x = some (.trafficSign s) ∧ ¬ right s = true :=
  at_own_of .trafficSign fun e => by cases e <;> simp

theorem at_ofLight {right : TrafficLight → Bool} : (ofLight right).At n b ↔
    ∃ x t, b = [x] ∧ n.element? x = some (.trafficLight t) ∧ ¬ right t = true :=
  at_own_of .trafficLight fun e => by cases e <;> simp

theorem at_ofIntersection {right : Intersection → Bool} : (ofIntersection right).At n b ↔
    ∃ x i, b = [x] ∧ n.element? x = some (.intersection i) ∧ ¬ right i = true :=
  at_own_of .intersection fun e => by cases e <;> simp

theorem at_missingFrom {kind : Kind} {refs : Lanelet → List ElementId} : (missingFrom kind refs).At n b ↔
    ∃ x l, b = [x] ∧ n.element? x = some (.lanelet l) ∧ ¬ ∀ ref ∈ refs l, n.resolves kind ref = true :=
  at_missing_of .lanelet fun e ref => by cases e <;> simp

theorem at_missingAt {refs : Intersection → List ElementId} : (missingAt refs).At n b ↔
    ∃ x i, b = [x] ∧ n.element? x = some (.intersection i) ∧ ¬ ∀ ref ∈ refs i, n.resolves .lanelet ref = true :=
  at_missing_of .intersection fun e ref => by cases e <;> simp

end Fault

/-! ## Choices at which a rule is broken -/

namespace RuleId

/-- is the formula of the rule not true at the choice? -/
def IsBroken (r : RuleId) (n : Network) (b : List Handle) : Prop :=
  b ∈ Catalog.bindings n.view r.standardEntry ∧ Catalog.holdsAt n.setting r.standardEntry b = false

variable {n : Network} {b : List Handle}

theorem holdsAt_iff (r : RuleId) (hn : r.standardCode.nested b.length = true) :
    Catalog.holdsAt n.setting r.standardEntry b = false ↔
      ¬ n.setting.truth r.standardCode (b.map .element) = .ok true := by
  have heval : n.setting.evaluate r.standardEntry.formula b = n.setting.truth r.standardCode (b.map .element) :=
    Setting.evaluate_eq_truth _ _ _ hn
  rw [Catalog.holdsAt, heval]
  cases n.setting.truth r.standardCode (b.map Value.element) with
  | error e => simp
  | ok v => cases v <;> simp

theorem mem_choices_one {α : Type} {l : List α} {b : List α} : b ∈ choices [l] ↔ ∃ x ∈ l, b = [x] := by
  simp [choices]

theorem mem_choices_two {α : Type} {l m : List α} {b : List α} :
    b ∈ choices [l, m] ↔ ∃ x ∈ l, ∃ y ∈ m, b = [x, y] := by
  simp [choices, eq_comm]

theorem mem_domain {d : Domain} {kind : Kind} (hd : NetworkIndex.kind? d = some kind) {x : Handle} :
    x ∈ n.view.index.domain d ↔ x.kind = kind ∧ ∃ e, n.element? x = some e := by
  show x ∈ (NetworkIndex.build n).domain d ↔ _
  rw [NetworkIndex.domain_build, hd, Network.mem_handles]
  simp [Network.idOf?_eq]

theorem mem_domain_lanelets {x : Handle} :
    x ∈ n.view.index.domain .lanelets ↔ ∃ l, n.element? x = some (.lanelet l) :=
  (mem_domain rfl).trans (Network.exists_lanelet_iff x).symm

theorem mem_domain_trafficSigns {x : Handle} :
    x ∈ n.view.index.domain .trafficSigns ↔ ∃ s, n.element? x = some (.trafficSign s) :=
  (mem_domain rfl).trans (Network.exists_trafficSign_iff x).symm

theorem mem_domain_trafficLights {x : Handle} :
    x ∈ n.view.index.domain .trafficLights ↔ ∃ t, n.element? x = some (.trafficLight t) :=
  (mem_domain rfl).trans (Network.exists_trafficLight_iff x).symm

theorem mem_domain_intersections {x : Handle} :
    x ∈ n.view.index.domain .intersections ↔ ∃ i, n.element? x = some (.intersection i) :=
  (mem_domain rfl).trans (Network.exists_intersection_iff x).symm

/-- a rule with one outer variable, which goes through the elements made by `mk` -/
theorem isBroken_one {α : Type} {r : RuleId} {var : String} {d : Domain} (mk : α → Element) {p : Handle → α → Prop}
    (hb : r.standardBindings = [⟨var, d⟩]) (hn : r.standardCode.nested 1 = true)
    (hd : ∀ {x}, x ∈ n.view.index.domain d ↔ ∃ a, n.element? x = some (mk a))
    (hp : ∀ x a, n.element? x = some (mk a) → (n.setting.truth r.standardCode [.element x] = .ok true ↔ p x a)) :
    r.IsBroken n b ↔ ∃ x a, b = [x] ∧ n.element? x = some (mk a) ∧ ¬ p x a := by
  have hchoices : Catalog.bindings n.view r.standardEntry = choices [n.view.index.domain d] := by
    show choices (r.standardBindings.map _) = _
    rw [hb]; rfl
  rw [IsBroken, hchoices, mem_choices_one]
  constructor
  · rintro ⟨⟨x, hx, rfl⟩, hf⟩
    obtain ⟨a, ha⟩ := hd.1 hx
    rw [holdsAt_iff (b := [x]) r hn] at hf
    exact ⟨x, a, rfl, ha, fun h => hf ((hp x a ha).2 h)⟩
  · rintro ⟨x, a, rfl, ha, hf⟩
    refine ⟨⟨x, hd.2 ⟨a, ha⟩, rfl⟩, ?_⟩
    rw [holdsAt_iff (b := [x]) r hn]
    exact fun h => hf ((hp x a ha).1 h)

theorem isBroken_ofLanelet {r : RuleId} {right : Lanelet → Bool} (hb : r.standardBindings = [⟨"l", .lanelets⟩])
    (hn : r.standardCode.nested 1 = true) (hp : ∀ x l, n.element? x = some (.lanelet l) →
      (n.setting.truth r.standardCode [.element x] = .ok true ↔ right l = true)) :
    r.IsBroken n b ↔ (Fault.ofLanelet right).At n b :=
  (isBroken_one .lanelet hb hn mem_domain_lanelets hp).trans Fault.at_ofLanelet.symm

theorem isBroken_ofSign {r : RuleId} {right : TrafficSign → Bool} (hb : r.standardBindings = [⟨"t", .trafficSigns⟩])
    (hn : r.standardCode.nested 1 = true) (hp : ∀ x t, n.element? x = some (.trafficSign t) →
      (n.setting.truth r.standardCode [.element x] = .ok true ↔ right t = true)) :
    r.IsBroken n b ↔ (Fault.ofSign right).At n b :=
  (isBroken_one .trafficSign hb hn mem_domain_trafficSigns hp).trans Fault.at_ofSign.symm

theorem isBroken_ofLight {r : RuleId} {right : TrafficLight → Bool} (hb : r.standardBindings = [⟨"t", .trafficLights⟩])
    (hn : r.standardCode.nested 1 = true) (hp : ∀ x t, n.element? x = some (.trafficLight t) →
      (n.setting.truth r.standardCode [.element x] = .ok true ↔ right t = true)) :
    r.IsBroken n b ↔ (Fault.ofLight right).At n b :=
  (isBroken_one .trafficLight hb hn mem_domain_trafficLights hp).trans Fault.at_ofLight.symm

theorem isBroken_ofIntersection {r : RuleId} {right : Intersection → Bool}
    (hb : r.standardBindings = [⟨"i", .intersections⟩]) (hn : r.standardCode.nested 1 = true)
    (hp : ∀ x i, n.element? x = some (.intersection i) →
      (n.setting.truth r.standardCode [.element x] = .ok true ↔ right i = true)) :
    r.IsBroken n b ↔ (Fault.ofIntersection right).At n b :=
  (isBroken_one .intersection hb hn mem_domain_intersections hp).trans Fault.at_ofIntersection.symm

theorem isBroken_allOf {r : RuleId} {list predicate : Builtin} {kind : Kind} {refs : Lanelet → List ElementId}
    (hb : r.standardBindings = [⟨"l", .lanelets⟩]) (hc : r.standardCode = .allOf list predicate)
    (hl : ∀ h l, list.read? h (.lanelet l) = some (.ofIds (refs l))) (hp : predicate.asks? = some kind) :
    r.IsBroken n b ↔ (Fault.missingFrom kind refs).At n b := by
  refine Iff.trans (isBroken_one .lanelet hb (by rw [hc]; rfl) mem_domain_lanelets fun x l hx => ?_)
    Fault.at_missingFrom.symm
  rw [hc]
  exact Setting.truth_allOf hx (hl x l) hp

theorem isBroken_ofRefs {r : RuleId} {refs : Intersection → List ElementId}
    (hb : r.standardBindings = [⟨"i", .intersections⟩]) (hn : r.standardCode.nested 1 = true)
    (hp : ∀ x i, n.element? x = some (.intersection i) →
      (n.setting.truth r.standardCode [.element x] = .ok true ↔ ∀ ref ∈ refs i, n.resolves .lanelet ref = true)) :
    r.IsBroken n b ↔ (Fault.missingAt refs).At n b :=
  (isBroken_one .intersection hb hn mem_domain_intersections hp).trans Fault.at_missingAt.symm

theorem isBroken_shared {α : Type} {r : RuleId} {kind : Kind} {var : String} {d : Domain} (mk : α → Element)
    (hb : r.standardBindings = [⟨var, d⟩]) (hc : r.standardCode = .distinct)
    (hd : ∀ {x}, x ∈ n.view.index.domain d ↔ ∃ a, n.element? x = some (mk a))
    (hk : ∀ x, (∃ a, n.element? x = some (mk a)) ↔ x.kind = kind ∧ ∃ e, n.element? x = some e) :
    r.IsBroken n b ↔ (Fault.shared kind).At n b := by
  refine Iff.trans (isBroken_one mk hb (by rw [hc]; rfl) hd (p := fun x a => ∀ y, n.idOf? y = some (mk a).id → y = x)
    fun x a ha => ?_) ?_
  · rw [hc]
    exact Setting.truth_distinct (Network.idOf?_of_element? ha)
  · rw [Fault.at_shared]
    constructor
    · rintro ⟨x, a, hx, ha, hne⟩
      push Not at hne
      obtain ⟨y, hy, hyx⟩ := hne
      exact ⟨x, hx, ((hk x).1 ⟨a, ha⟩).1, _, Network.idOf?_of_element? ha, y, hyx, hy⟩
    · rintro ⟨x, hx, hkind, id, hid, y, hyx, hy⟩
      obtain ⟨e, he, rfl⟩ := Network.exists_element hid
      obtain ⟨a, ha⟩ := (hk x).2 ⟨hkind, e, he⟩
      cases he.symm.trans ha
      exact ⟨x, a, hx, ha, fun h => hyx (h y hy)⟩

theorem isBroken_unanswered {r : RuleId} {there back : Lanelet → IdSet} {sub sub' : Nat}
    (hb : r.standardBindings = [⟨"l", .lanelets⟩])
    (hc : r.standardCode = .answered (.pair sub 0 1) (.pair sub' 1 0))
    (ht : ∀ x y l k, n.element? x = some (.lanelet l) → n.element? y = some (.lanelet k) →
      n.setting.call (.subformula sub) [.element x, .element y] = .ok (.bool ((there l).toList.contains k.id)))
    (hr : ∀ x y l k, n.element? x = some (.lanelet l) → n.element? y = some (.lanelet k) →
      n.setting.call (.subformula sub') [.element x, .element y] = .ok (.bool ((back l).toList.contains k.id))) :
    r.IsBroken n b ↔ (Fault.unanswered there back).At n b := by
  refine Iff.trans (isBroken_one .lanelet hb (by rw [hc]; rfl) mem_domain_lanelets
    (p := fun _ l => ∀ y k, n.element? y = some (.lanelet k) → k.id ∈ there l → l.id ∈ back k) fun x l hl => ?_) ?_
  · rw [hc]
    exact Setting.truth_answered
      (fun y k hk => Setting.truth_predicate [.element x, .element y] rfl (ht x y l k hl hk))
      (fun y k hk => Setting.truth_predicate [.element y, .element x] rfl (hr y x k l hk hl))
  · rw [Fault.at_unanswered]
    push Not
    rfl

theorem isBroken_nonPredecessorAsSuccessor :
    nonPredecessorAsSuccessor.IsBroken n b ↔ Fault.bothWays.At n b := by
  have hchoices : Catalog.bindings n.view nonPredecessorAsSuccessor.standardEntry =
    choices [n.view.index.domain .lanelets, n.view.index.domain .lanelets] := rfl
  have htruth : ∀ x y l k, n.element? x = some (.lanelet l) → n.element? y = some (.lanelet k) →
      (Catalog.holdsAt n.setting nonPredecessorAsSuccessor.standardEntry [x, y] = false ↔
        k.id ∈ l.predecessors ∧ k.id ∈ l.successors) := by
    intro x y l k hl hk
    have hfrom : n.setting.truth (.pair 2 0 1) [.element x, .element y] = .ok (l.predecessors.toList.contains k.id) :=
      Setting.truth_predicate [.element x, .element y] rfl (Setting.call_linksFrom hl hk)
    have hto : n.setting.truth (.pair 1 0 1) [.element x, .element y] = .ok (l.successors.toList.contains k.id) :=
      Setting.truth_predicate [.element x, .element y] rfl (Setting.call_linksTo hl hk)
    have hcode : n.setting.truth nonPredecessorAsSuccessor.standardCode [.element x, .element y] =
        .ok (!(l.predecessors.toList.contains k.id && l.successors.toList.contains k.id)) :=
      Setting.truth_not (Setting.truth_and hfrom hto)
    rw [holdsAt_iff (b := [x, y]) _ rfl, List.map_cons, List.map_cons, List.map_nil, hcode]
    simp [SortedSet.mem_toList]
  rw [IsBroken, hchoices, mem_choices_two, Fault.at_bothWays]
  constructor
  · rintro ⟨⟨x, hx, y, hy, rfl⟩, hf⟩
    obtain ⟨l, hl⟩ := mem_domain_lanelets.1 hx
    obtain ⟨k, hk⟩ := mem_domain_lanelets.1 hy
    exact ⟨x, y, l, k, rfl, hl, hk, (htruth x y l k hl hk).1 hf⟩
  · rintro ⟨x, y, l, k, rfl, hl, hk, hf⟩
    exact ⟨⟨x, mem_domain_lanelets.2 ⟨l, hl⟩, y, mem_domain_lanelets.2 ⟨k, hk⟩, rfl⟩, (htruth x y l k hl hk).2 hf⟩

theorem isBroken_unreferenced {α : Type} {r : RuleId} {kind : Kind} {refs : Lanelet → List ElementId} {sub : Nat}
    {var : String} {d : Domain} (mk : α → Element) (hb : r.standardBindings = [⟨var, d⟩])
    (hc : r.standardCode = .someLanelet sub)
    (hd : ∀ {x}, x ∈ n.view.index.domain d ↔ ∃ a, n.element? x = some (mk a))
    (hk : ∀ x, (∃ a, n.element? x = some (mk a)) ↔ x.kind = kind ∧ ∃ e, n.element? x = some e)
    (hr : ∀ x y l a, n.element? x = some (.lanelet l) → n.element? y = some (mk a) →
      n.setting.call (.subformula sub) [.element x, .element y] = .ok (.bool ((refs l).contains (mk a).id))) :
    r.IsBroken n b ↔ (Fault.unreferenced kind refs).At n b := by
  refine Iff.trans (isBroken_one mk hb (by rw [hc]; rfl) hd
    (p := fun _ a => ∃ y l, n.element? y = some (.lanelet l) ∧ (mk a).id ∈ refs l) fun x a ha => ?_) ?_
  · rw [hc]
    exact Setting.truth_someLanelet fun y l hl => hr y x l a hl ha
  · rw [Fault.at_unreferenced]
    push Not
    constructor
    · rintro ⟨x, a, hx, ha, hno⟩
      exact ⟨x, _, hx, ((hk x).1 ⟨a, ha⟩).1, Network.idOf?_of_element? ha, hno⟩
    · rintro ⟨x, id, hx, hkind, hid, hno⟩
      obtain ⟨e, he, rfl⟩ := Network.exists_element hid
      obtain ⟨a, ha⟩ := (hk x).2 ⟨hkind, e, he⟩
      cases he.symm.trans ha
      exact ⟨x, a, hx, ha, hno⟩

/-- **What a rule says.** Its formula is not true at a choice of elements just if the fault is there. -/
theorem isBroken_iff (r : RuleId) (n : Network) (b : List Handle) : r.IsBroken n b ↔ r.fault.At n b := by
  cases r
  case uniqueIdLa => exact isBroken_shared .lanelet rfl rfl mem_domain_lanelets Network.exists_lanelet_iff
  case uniqueIdTs => exact isBroken_shared .trafficSign rfl rfl mem_domain_trafficSigns Network.exists_trafficSign_iff
  case uniqueIdTl =>
    exact isBroken_shared .trafficLight rfl rfl mem_domain_trafficLights Network.exists_trafficLight_iff
  case uniqueIdIn =>
    exact isBroken_shared .intersection rfl rfl mem_domain_intersections Network.exists_intersection_iff
  case sameVerticesSize => exact isBroken_ofLanelet rfl rfl fun _ _ h => Setting.truth_sameVerticesSize h
  case verticesMoreThanOne => exact isBroken_ofLanelet rfl rfl fun _ _ h => Setting.truth_verticesMoreThanOne h
  case polylinesSameDirection => exact isBroken_ofLanelet rfl rfl fun _ _ h => Setting.truth_polylinesSameDirection h
  case leftSelfIntersection => exact isBroken_ofLanelet rfl rfl fun _ _ h => Setting.truth_leftSelfIntersection h
  case rightSelfIntersection => exact isBroken_ofLanelet rfl rfl fun _ _ h => Setting.truth_rightSelfIntersection h
  case includedStopLineTrafficSigns =>
    exact isBroken_ofLanelet rfl rfl fun _ _ h => Setting.truth_includedStopLineTrafficSigns h
  case existenceLeftAdj | existenceRightAdj | existencePredecessor | existenceSuccessor | existenceTrafficSigns
    | existenceTrafficLights | existenceStopLineTrafficSigns | existenceStopLineTrafficLights =>
    exact isBroken_allOf rfl rfl (fun _ _ => rfl) rfl
  case connectionsPredecessor =>
    exact isBroken_unanswered rfl rfl (fun _ _ _ _ => Setting.call_linksFrom) fun _ _ _ _ => Setting.call_linksTo
  case connectionsSuccessor =>
    exact isBroken_unanswered rfl rfl (fun _ _ _ _ => Setting.call_linksTo) fun _ _ _ _ => Setting.call_linksFrom
  case nonPredecessorAsSuccessor => exact isBroken_nonPredecessorAsSuccessor
  case atLeastOneTrafficSignElement =>
    exact isBroken_ofSign rfl rfl fun _ _ h => Setting.truth_atLeastOneTrafficSignElement h
  case givenAdditionalValue => exact isBroken_ofSign rfl rfl fun _ _ h => Setting.truth_givenAdditionalValue h
  case validAdditionalValueSpeedSign =>
    exact isBroken_ofSign rfl rfl fun _ _ h => Setting.truth_validAdditionalValueSpeedSign h
  case referencedTrafficSign =>
    exact isBroken_unreferenced .trafficSign rfl rfl mem_domain_trafficSigns Network.exists_trafficSign_iff
      fun _ _ _ _ => Setting.call_referencesSign
  case atLeastOneCycleElement => exact isBroken_ofLight rfl rfl fun _ _ h => Setting.truth_atLeastOneCycleElement h
  case nonZeroDuration => exact isBroken_ofLight rfl rfl fun _ _ h => Setting.truth_nonZeroDuration h
  case uniqueStateInCycle => exact isBroken_ofLight rfl rfl fun _ _ h => Setting.truth_uniqueStateInCycle h
  case referencedTrafficLight =>
    exact isBroken_unreferenced .trafficLight rfl rfl mem_domain_trafficLights Network.exists_trafficLight_iff
      fun _ _ _ _ => Setting.call_referencesLight
  case atLeastTwoIncomingElements =>
    exact isBroken_ofIntersection rfl rfl fun _ _ h => Setting.truth_atLeastTwoIncomingElements h
  case atLeastOneRoadConnection =>
    exact isBroken_ofIntersection rfl rfl fun _ _ h => Setting.truth_atLeastOneRoadConnection h
  case existenceIncomingLanelets =>
    exact isBroken_ofRefs rfl rfl fun _ _ h => Setting.truth_allOfGroups h fun _ => rfl
  case existenceSuccessorLanelets =>
    exact isBroken_ofRefs rfl rfl fun _ _ h => Setting.truth_allOfGroups h fun _ => rfl
  case existenceCrossings => exact isBroken_ofRefs rfl rfl fun _ _ h => Setting.truth_allOf h rfl rfl

end RuleId

end RoadRules
