/-
Elements with references to what does not exist.

Whether a reference dangles is asked in two places: `danglingReferrers` goes through the elements and looks at what each
one refers to, and eleven of the rules (`RuleId.existenceRules`) forbid such references, each those of one field.

- `mem_danglingReferrers`: an id is listed just if a reference of an element with the id dangles (`DanglesAt`).
- `exists_existenceRule`: every reference of an element is one that one of the rules looks at.
- `danglingReferrers_reported`: hence an id is listed just if one of the rules is reported for it.
-/
import RoadRules.Proofs.Rule.Locality

namespace RoadRules

namespace Network

/-- a reference of the element under `x`, which has the id, resolves neither here nor outside -/
def DanglesAt (n : Network) (x : Handle) (id : ElementId) (kind : Kind) (ref : ElementId) : Prop :=
  ∃ e, n.element? x = some e ∧ e.id = id ∧ ref ∈ e.refs kind ∧ n.resolves kind ref = false

variable {n : Network}

/-! ## What is listed -/

theorem exists_refs_lanelet {l : Lanelet} {p : Kind → ElementId → Prop} :
    (∃ kind, ∃ ref ∈ (Element.lanelet l).refs kind, p kind ref) ↔ (∃ ref ∈ l.linkedLanelets, p .lanelet ref) ∨
      (∃ ref ∈ l.trafficSignRefs, p .trafficSign ref) ∨ ∃ ref ∈ l.trafficLightRefs, p .trafficLight ref := by
  constructor
  · rintro ⟨kind, ref, href, h⟩
    cases kind with
    | lanelet => exact Or.inl ⟨ref, href, h⟩
    | trafficSign => exact Or.inr (Or.inl ⟨ref, href, h⟩)
    | trafficLight => exact Or.inr (Or.inr ⟨ref, href, h⟩)
    | intersection => cases href
  · rintro (⟨ref, href, h⟩ | ⟨ref, href, h⟩ | ⟨ref, href, h⟩)
    · exact ⟨.lanelet, ref, href, h⟩
    · exact ⟨.trafficSign, ref, href, h⟩
    · exact ⟨.trafficLight, ref, href, h⟩

theorem dangles_iff {l : Lanelet} : n.dangles l = true ↔
    ∃ kind, ∃ ref ∈ (Element.lanelet l).refs kind, n.resolves kind ref = false := by
  simp only [dangles, Bool.or_eq_true, List.any_eq_true, Bool.not_eq_true', exists_refs_lanelet, or_assoc]

theorem mem_danglingReferrers {id : ElementId} :
    id ∈ n.danglingReferrers ↔ ∃ x kind ref, n.DanglesAt x id kind ref := by
  rw [danglingReferrers, SortedSet.mem_ofList, List.mem_append]
  simp only [List.mem_map, List.mem_filter, Store.mem_values, dangles_iff, List.any_eq_true, Bool.not_eq_true']
  constructor
  · rintro (⟨l, ⟨⟨k, hl⟩, kind, ref, href, hno⟩, hid⟩ | ⟨i, ⟨⟨k, hi⟩, hno⟩, hid⟩)
    · exact ⟨_, kind, ref, _, element?_eq_lanelet.2 ⟨k, rfl, hl⟩, hid, href, hno⟩
    · obtain ⟨ref, href, hno⟩ := hno
      exact ⟨_, .lanelet, ref, _, element?_eq_intersection.2 ⟨k, rfl, hi⟩, hid, href, hno⟩
  · rintro ⟨x, kind, ref, e, he, hid, href, hno⟩
    cases e with
    | lanelet l =>
      obtain ⟨k, -, hl⟩ := element?_eq_lanelet.1 he
      exact Or.inl ⟨l, ⟨⟨k, hl⟩, kind, ref, href, hno⟩, hid⟩
    | intersection i =>
      obtain ⟨k, -, hi⟩ := element?_eq_intersection.1 he
      cases kind with
      | lanelet => exact Or.inr ⟨i, ⟨⟨k, hi⟩, ref, href, hno⟩, hid⟩
      | _ => cases href
    | trafficSign s => cases href
    | trafficLight t => cases href

end Network

/-! ## What the rules forbid -/

namespace RuleId

/-- the rules that forbid references to what does not exist -/
def existenceRules : List RuleId :=
  [existenceLeftAdj, existenceRightAdj, existencePredecessor, existenceSuccessor, existenceTrafficSigns,
    existenceTrafficLights, existenceStopLineTrafficSigns, existenceStopLineTrafficLights, existenceIncomingLanelets,
    existenceSuccessorLanelets, existenceCrossings]

/-- the rule looks at the reference of the element -/
def LooksAt (r : RuleId) (e : Element) (kind : Kind) (ref : ElementId) : Prop :=
  ∃ refs, r.fault = .missing kind refs ∧ ref ∈ refs e

theorem exists_missing {r : RuleId} (h : r ∈ existenceRules) : ∃ kind refs, r.fault = .missing kind refs := by
  fin_cases h <;> exact ⟨_, _, rfl⟩

/-- every reference of a lanelet is one that a rule looks at -/
theorem exists_existenceRule_lanelet {l : Lanelet} {kind : Kind} {ref : ElementId}
    (h : ref ∈ (Element.lanelet l).refs kind) : ∃ r ∈ existenceRules, r.LooksAt (.lanelet l) kind ref := by
  cases kind with
  | lanelet =>
    rcases Lanelet.mem_linkedLanelets.1 h with h | h | h | h
    · exact ⟨existencePredecessor, by decide, _, rfl, h⟩
    · exact ⟨existenceSuccessor, by decide, _, rfl, h⟩
    · exact ⟨existenceLeftAdj, by decide, _, rfl, by simpa using h⟩
    · exact ⟨existenceRightAdj, by decide, _, rfl, by simpa using h⟩
  | trafficSign =>
    rcases List.mem_append.1 h with h | h
    · exact ⟨existenceTrafficSigns, by decide, _, rfl, h⟩
    · exact ⟨existenceStopLineTrafficSigns, by decide, _, rfl, h⟩
  | trafficLight =>
    rcases List.mem_append.1 h with h | h
    · exact ⟨existenceTrafficLights, by decide, _, rfl, h⟩
    · exact ⟨existenceStopLineTrafficLights, by decide, _, rfl, h⟩
  | intersection => cases h

/-- every reference of an intersection is one that a rule looks at -/
theorem exists_existenceRule_intersection {i : Intersection} {kind : Kind} {ref : ElementId}
    (h : ref ∈ (Element.intersection i).refs kind) : ∃ r ∈ existenceRules, r.LooksAt (.intersection i) kind ref := by
  cases kind with
  | lanelet =>
    rcases List.mem_append.1 h with h | h
    · obtain ⟨g, hg, h⟩ := List.mem_flatMap.1 h
      rcases List.mem_append.1 h with h | h
      · exact ⟨existenceIncomingLanelets, by decide, _, rfl, List.mem_flatMap.2 ⟨g, hg, h⟩⟩
      · exact ⟨existenceSuccessorLanelets, by decide, _, rfl, List.mem_flatMap.2 ⟨g, hg, h⟩⟩
    · exact ⟨existenceCrossings, by decide, _, rfl, h⟩
  | _ => cases h

/-- **Nothing is overlooked.** Every reference of an element is one that a rule looks at. -/
theorem exists_existenceRule {e : Element} {kind : Kind} {ref : ElementId} (h : ref ∈ e.refs kind) :
    ∃ r ∈ existenceRules, r.LooksAt e kind ref := by
  cases e with
  | lanelet l => exact exists_existenceRule_lanelet h
  | intersection i => exact exists_existenceRule_intersection h
  | trafficSign s => cases h
  | trafficLight t => cases h

/-- what a rule looks at is a reference of the element -/
theorem mem_refs_of_looksAt {r : RuleId} {e : Element} {kind : Kind} {ref : ElementId} (h : r.LooksAt e kind ref) :
    ref ∈ e.refs kind := by
  obtain ⟨refs, hf, href⟩ := h
  have followed := r.followed
  rw [hf] at followed
  exact followed e ref href

end RuleId

namespace Network

variable {n : Network} {id : ElementId}

/-- a violation of one of the rules at an id is a dangling reference that the rule looks at -/
theorem violates_existence {r : RuleId} (hr : r ∈ RuleId.existenceRules) : n.Violates ⟨r, [id]⟩ ↔
    ∃ x e kind ref, n.element? x = some e ∧ e.id = id ∧ r.LooksAt e kind ref ∧ n.resolves kind ref = false := by
  obtain ⟨kind, refs, hf⟩ := RuleId.exists_missing hr
  constructor
  · rintro ⟨b, hat, hloc⟩
    rw [hf] at hat
    obtain ⟨x, e, rfl, he, ref, href, hno⟩ := Fault.at_missing.1 hat
    rw [List.filterMap_cons_some (idOf?_of_element? he)] at hloc
    exact ⟨x, e, kind, ref, he, (List.cons.inj hloc).1, ⟨refs, hf, href⟩, hno⟩
  · rintro ⟨x, e, k, ref, he, rfl, ⟨refs', hf', href⟩, hno⟩
    refine ⟨[x], ?_, by rw [List.filterMap_cons_some (idOf?_of_element? he)]; rfl⟩
    rw [hf']
    exact Fault.at_missing.2 ⟨x, e, rfl, he, ref, href, hno⟩

/-- **Dangling references.** An id is listed among those of elements with dangling references just if one of the rules
that forbid such references is reported for it. -/
theorem danglingReferrers_reported (n : Network) (id : ElementId) : ∃ c, Catalog.standard = .ok c ∧
    (id ∈ n.danglingReferrers ↔
      ∃ r ∈ RuleId.existenceRules, (⟨r, [id]⟩ : Violation) ∈ c.verify n RuleId.existenceRules) := by
  refine ⟨standardCatalog, Catalog.standard_eq, ?_⟩
  rw [mem_danglingReferrers]
  constructor
  · rintro ⟨x, kind, ref, e, he, hid, href, hno⟩
    obtain ⟨r, hr, hlooks⟩ := RuleId.exists_existenceRule href
    exact ⟨r, hr, Violations.mem_verify.2 ⟨hr, (violates_existence hr).2 ⟨x, e, kind, ref, he, hid, hlooks, hno⟩⟩⟩
  · rintro ⟨r, hr, h⟩
    obtain ⟨x, e, kind, ref, he, hid, hlooks, hno⟩ := (violates_existence hr).1 (Violations.mem_verify.1 h).2
    exact ⟨x, kind, ref, e, he, hid, RuleId.mem_refs_of_looksAt hlooks, hno⟩

end Network

end RoadRules
