/-
The rules of the full rule set never fail to evaluate.

All but two of them are well-typed (`RuleId.wellTyped_standardCode`). The two look at positions in lists, and do so with
reason:

- `exists_truth_polylinesSameDirection`: the ends of borders are compared behind the question whether there are any;
- `exists_truth_uniqueStateInCycle`: a phase is looked for in the list that it was taken from, and in its reverse.

`standard_evaluates`: hence no rule is ever reported because it has no truth value.
-/
import RoadRules.Network.Document
import RoadRules.Proofs.Rule.Typing
import RoadRules.Proofs.Rule.Violations

namespace RoadRules

/-! ## The table of subformulas -/

/-- the types of the arguments that the subformulas take -/
def standardSignatures : List (List Ty) :=
  [[.element none, .element none],
    [.element (some .lanelet), .element (some .lanelet)],
    [.element (some .lanelet), .element (some .lanelet)],
    [.element (some .lanelet)],
    [.element (some .lanelet), .element (some .trafficSign)],
    [.element (some .lanelet), .element (some .trafficLight)]]

theorem Network.Numeric.typed_setting {n : Network} (hn : n.Numeric) : n.setting.Typed n standardSignatures := by
  have htable : CompiledSubformula.wellTypedTable [] (standardSubformulaCode.zip standardSignatures) = true := by decide
  exact Setting.Typed.load hn htable

namespace RuleId

/-! ## Rules that are well-typed -/

/-- the types of the outer variables of a rule -/
def standardTypes (r : RuleId) : List Ty := r.standardBindings.map fun b => .element (NetworkIndex.kind? b.domain)

theorem wellTyped_standardCode (r : RuleId) (hends : r ≠ polylinesSameDirection) (hplaces : r ≠ uniqueStateInCycle) :
    r.standardCode.wellTyped standardSignatures r.standardTypes = true := by
  cases r <;> first | decide | contradiction

/-! ## Rules that look at positions -/

variable {n : Network} {h : Handle}

/-- the ends that are compared are finite -/
theorem exists_truth_polylinesSameDirection (hn : n.Numeric) {l : Lanelet} (hl : n.element? h = some (.lanelet l)) :
    ∃ t, n.setting.truth polylinesSameDirection.standardCode [.element h] = .ok t := by
  rcases Setting.truth_borderEnds hl with ⟨-, htruth⟩ | ⟨-, a, b, z, ha, hb, hz, htruth⟩
  · exact ⟨true, htruth⟩
  · obtain ⟨k, -, hk⟩ := Network.element?_eq_lanelet.1 hl
    have finite := hn.borders l (Store.mem_values.2 ⟨k, hk⟩)
    have hleft : a.isFinite = true := finite a (List.mem_append_left _ (List.mem_of_getElem? ha))
    have hright : b.isFinite = true := finite b (List.mem_append_right _ (List.mem_of_getElem? hb))
    have hend : z.isFinite = true :=
      finite z (List.mem_append_right _ (List.mem_reverse.1 (List.mem_of_getElem? hz)))
    rw [htruth]
    exact Formula.Comparison.exists_holds (n := n) (t := .float) (u := .float) rfl
      ⟨_, rfl, Vec2.isNaN_distance hleft hright⟩ ⟨_, rfl, Vec2.isNaN_distance hleft hend⟩

/-- what is in a list has a first place in it -/
theorem firstPlace_of_mem {items : List Value} {v : Value} (hv : v ∈ items) (hself : v.looseEq v = true) :
    ∃ i, TrafficLight.firstPlace items v = .ok (.int i) := by
  rw [TrafficLight.firstPlace]
  cases hplace : items.findIdx? (·.looseEq v) with
  | some i => exact ⟨_, rfl⟩
  | none => exact absurd hself (by simpa using List.findIdx?_eq_none_iff.1 hplace v hv)

/-- a sum or difference of numbers is a number, though perhaps a double -/
theorem exists_arithmetic (function : String) (ints : Int → Int → Int) (floats : Float → Float → Float) {v w : Value}
    (hv : ∃ x, v.asNumber function = .ok x) (hw : ∃ y, w.asNumber function = .ok y) :
    ∃ r, Builtin.arithmetic function ints floats v w = .ok r ∧ ∃ z, r.asNumber function = .ok z := by
  obtain ⟨x, hx⟩ := hv
  obtain ⟨y, hy⟩ := hw
  unfold Builtin.arithmetic
  simp only [hx, hy, bind, Except.bind, pure, Except.pure]
  split
  · split_ifs
    · exact ⟨_, rfl, _, rfl⟩
    · exact ⟨_, rfl, _, rfl⟩
  · exact ⟨_, rfl, _, rfl⟩

/-- a phase is in the list that it was taken from, and in its reverse -/
theorem exists_truth_uniqueStateInCycle {t : TrafficLight} (ht : n.element? h = some (.trafficLight t)) :
    ∃ b, n.setting.truth uniqueStateInCycle.standardCode [.element h] = .ok b := by
  have hphases := Setting.items_read n.view_setting (b := .phases) ht rfl []
  simp only [standardCode, Setting.truth, hphases, bind, Except.bind]
  refine Setting.exists_firstDecisive _ fun p hp => ?_
  have hself : p.looseEq p = true := by
    obtain ⟨c, -, rfl⟩ := List.mem_map.1 hp
    simp [Value.looseEq]
  obtain ⟨first, hfirst⟩ := firstPlace_of_mem hp hself
  obtain ⟨behind, hbehind⟩ := firstPlace_of_mem (List.mem_reverse.2 hp) hself
  have number (i : Int64) : ∃ x, (Value.int i).asNumber Builtin.sub.name = .ok x := ⟨_, rfl⟩
  obtain ⟨last, hlast, hnumber⟩ := exists_arithmetic Builtin.sub.name (· - ·) (· - ·)
    (number (itemCount (t.cycle.map fun c => Value.str c.phase.name))) (number 1)
  obtain ⟨difference, hdifference, -⟩ := exists_arithmetic Builtin.sub.name (· - ·) (· - ·) hnumber (number behind)
  refine ⟨(Value.int first).looseEq difference, (Setting.truth_places ht p).trans ?_⟩
  simp only [hfirst, hbehind, hlast, hdifference, bind, Except.bind, pure, Except.pure]

/-! ## All rules -/

/-- the elements chosen for the outer variables have their types -/
theorem holds_standardTypes {r : RuleId} {b : List Handle} (hb : b ∈ Catalog.bindings n.view r.standardEntry) :
    List.Forall₂ (Ty.Holds n) r.standardTypes (b.map .element) := by
  rw [Catalog.bindings, mem_choices, List.forall₂_map_right_iff] at hb
  rw [standardTypes, List.forall₂_map_left_iff, List.forall₂_map_right_iff]
  exact hb.flip.imp fun _ _ => Ty.holds_of_domain

theorem nested_standardCode (r : RuleId) : r.standardCode.nested r.standardBindings.length = true := by
  cases r <;> decide

/-- a rule has a truth value at each choice of elements for its outer variables -/
theorem exists_truth (hn : n.Numeric) (r : RuleId) {b : List Handle}
    (hb : b ∈ Catalog.bindings n.view r.standardEntry) :
    ∃ t, n.setting.truth r.standardCode (b.map .element) = .ok t := by
  have htypes := holds_standardTypes hb
  by_cases hends : r = polylinesSameDirection
  · subst hends
    obtain ⟨x, hx, rfl⟩ := mem_choices_one.1 hb
    obtain ⟨l, hl⟩ := mem_domain_lanelets.1 hx
    exact exists_truth_polylinesSameDirection hn hl
  by_cases hplaces : r = uniqueStateInCycle
  · subst hplaces
    obtain ⟨x, hx, rfl⟩ := mem_choices_one.1 hb
    obtain ⟨t, ht⟩ := mem_domain_trafficLights.1 hx
    exact exists_truth_uniqueStateInCycle ht
  exact hn.typed_setting.exists_truth hn _ (wellTyped_standardCode r hends hplaces) htypes

end RuleId

namespace Catalog

theorem exists_evaluate {n : Network} (hn : n.Numeric) (r : RuleId) {b : List Handle}
    (hb : b ∈ bindings n.view r.standardEntry) : ∃ t, standardCatalog.evaluate r n b = .ok t := by
  obtain ⟨t, ht⟩ := RuleId.exists_truth hn r hb
  have hlen : b.length = r.standardBindings.length := by
    have := (RuleId.holds_standardTypes hb).length_eq
    simpa [RuleId.standardTypes] using this.symm
  have heval : standardCatalog.evaluate r n b = n.setting.evaluate r.standardEntry.formula b := by
    simp only [evaluate, entry?_standard]
    rfl
  exact ⟨t, heval.trans ((Setting.evaluate_eq_truth _ _ _ (hlen ▸ RuleId.nested_standardCode r)).trans ht)⟩

/-- **No rule fails to evaluate.** In a network whose borders have finite coordinates and whose signs bear numbers only,
every rule of the full rule set has a truth value at each choice of elements for its outer variables. So whatever a
check reports, it reports because the rule is false there, and never because of an error. -/
theorem standard_evaluates {n : Network} (hn : n.Numeric) :
    ∃ c, standard = .ok c ∧ ∀ r, ∃ e, c.entry? r = some e ∧
      (∀ b ∈ bindings n.view e, ∃ t, c.evaluate r n b = .ok t) ∧
      ∀ rules l, (⟨r, l⟩ : Violation) ∈ c.verify n rules →
        ∃ b ∈ bindings n.view e, b.filterMap n.idOf? = l ∧ c.evaluate r n b = .ok false := by
  refine ⟨standardCatalog, standard_eq, fun r => ⟨_, entry?_standard r, fun b => exists_evaluate hn r, ?_⟩⟩
  intro rules l hl
  obtain ⟨ls, hentry, hl⟩ := Violations.mem_iff.1 hl
  obtain ⟨-, rfl, -⟩ := Violations.entries_ofList.1 hentry
  change l ∈ standardCatalog.verifyRule n.view r at hl
  rw [verifyRule_eq (entry?_standard r), List.mem_eraseDups] at hl
  obtain ⟨b, hb, rfl⟩ := List.mem_map.1 hl
  obtain ⟨hb, hfails⟩ := List.mem_filter.1 hb
  obtain ⟨t, ht⟩ := exists_evaluate hn r hb
  rw [holdsAt_eq (entry?_standard r), ht] at hfails
  refine ⟨b, hb, rfl, ?_⟩
  cases t with
  | false => exact ht
  | true => simp at hfails

/-- a lanelet with a speed limit and a light of two phases, at an intersection -/
def signposted : RoadMap := RoadMap.ofDocument
  { lanelets := [
      { id := 1, left := [⟨0.0, 4.0⟩, ⟨10.0, 4.0⟩], right := [⟨0.0, 0.0⟩, ⟨10.0, 0.0⟩],
        trafficSigns := .ofList [2], trafficLights := .ofList [3] }]
    trafficSigns := [{ id := 2, plates := [⟨"274", [13.9]⟩] }]
    trafficLights := [{ id := 3, cycle := [⟨.red, 30⟩, ⟨.green, 30⟩] }]
    intersections := [{ id := 4, incomings := [{ lanelets := .ofList [1] }] }] }

theorem standard_evaluates_signposted : ∃ n, n = signposted.network ∧ n.Numeric ∧
    (standardCatalog.verify n RuleId.values).toList =
      [⟨.atLeastTwoIncomingElements, [4]⟩, ⟨.atLeastOneRoadConnection, [4]⟩] ∧
    ∃ c, standard = .ok c ∧ ∀ r, ∃ e, c.entry? r = some e ∧
      (∀ b ∈ bindings n.view e, ∃ t, c.evaluate r n b = .ok t) ∧
      ∀ rules l, (⟨r, l⟩ : Violation) ∈ c.verify n rules →
        ∃ b ∈ bindings n.view e, b.filterMap n.idOf? = l ∧ c.evaluate r n b = .ok false := by
  have hn : signposted.network.Numeric := ⟨by decide, by decide⟩
  exact ⟨_, rfl, hn, by decide +kernel, standard_evaluates hn⟩

end Catalog

end RoadRules
