/-
The groups of some rules, and the walk through them.

- `RuleGroup.flatMap_ofRules`: one group after the other gives every rule that is asked for, once and in catalog order.
- `RuleGroup.topics_ofRules`, `RuleGroup.rules_of_mem_ofRules`: groups have different topics, in order, and the rules of
  a group have its topic.
- `Schedule.hasNext_iff`, `Schedule.next_cases`: what one step of a walk can do. There is a group to come just if the
  next step gives one.
- `Schedule.foldl_ofRules`, `Schedule.foldl_reset`: a loop that takes the next group until there is none sees exactly
  the groups, in their order, and sees them again after the walk was set back, wherever it had come to.
-/
import Mathlib.Data.List.Basic
import Mathlib.Logic.Function.Iterate
import RoadRules.Rule.Schedule

namespace RoadRules

/-! ## Groups -/

namespace RuleGroup

variable {rules : List RuleId}

/-- the rules of a group have its topic, and were asked for -/
theorem rules_of_mem_ofRules {g : RuleGroup} (hg : g ∈ ofRules rules) :
    ∀ r ∈ g.rules, r.topic = g.topic ∧ r ∈ rules := by
  obtain ⟨t, -, rfl⟩ := List.mem_map.1 (List.mem_filter.1 hg).1
  intro r hr
  simpa [RuleId.mem_values] using hr

/-- no group is empty -/
theorem rules_ne_nil {g : RuleGroup} (hg : g ∈ ofRules rules) : g.rules ≠ [] := by
  intro hempty
  have hne := (List.mem_filter.1 hg).2
  rw [hempty] at hne
  cases hne

/-- topics come in their order, each at most once -/
theorem topics_ofRules (rules : List RuleId) : ((ofRules rules).map (·.topic)).Sublist Topic.values := by
  have all : (Topic.values.map fun t =>
      (⟨t, RuleId.values.filter fun r => r.topic == t && rules.contains r⟩ : RuleGroup)).map (·.topic) =
        Topic.values := by
    rw [List.map_map]
    exact List.map_id _
  exact all ▸ List.filter_sublist.map _

theorem nodup_topics_ofRules (rules : List RuleId) : ((ofRules rules).map (·.topic)).Nodup := by
  have distinct : Topic.values.Nodup := by decide
  exact distinct.sublist (topics_ofRules rules)

/-- groups that are left out have no rules to give -/
theorem flatMap_nonempty (gs : List RuleGroup) :
    (gs.filter fun g => !g.rules.isEmpty).flatMap (·.rules) = gs.flatMap (·.rules) := by
  induction gs with
  | nil => rfl
  | cons g gs ih =>
    cases hempty : g.rules.isEmpty with
    | true =>
      rw [List.filter_cons_of_neg (by simp [hempty]), List.flatMap_cons, List.isEmpty_iff.1 hempty, ih, List.nil_append]
    | false => rw [List.filter_cons_of_pos (by simp [hempty]), List.flatMap_cons, List.flatMap_cons, ih]

/-- **All rules that are asked for** come up, each once and in catalog order: the catalog is ordered by topic. -/
theorem flatMap_ofRules (rules : List RuleId) :
    (ofRules rules).flatMap (·.rules) = RuleId.values.filter rules.contains := by
  have byTopic : (Topic.values.flatMap fun t => RuleId.values.filter (·.topic == t)) = RuleId.values := by decide
  calc (ofRules rules).flatMap (·.rules)
      = Topic.values.flatMap fun t => RuleId.values.filter fun r => r.topic == t && rules.contains r := by
        rw [ofRules, flatMap_nonempty, List.flatMap_map]
    _ = Topic.values.flatMap fun t => (RuleId.values.filter (·.topic == t)).filter rules.contains := by
        refine List.flatMap_congr fun t _ => ?_
        rw [List.filter_filter]
        exact List.filter_congr fun r _ => Bool.and_comm _ _
    _ = (Topic.values.flatMap fun t => RuleId.values.filter (·.topic == t)).filter rules.contains :=
        List.filter_flatMap.symm
    _ = RuleId.values.filter rules.contains := by rw [byTopic]

end RuleGroup

/-! ## The walk -/

namespace Schedule

variable {s : Schedule}

/-- a walk that has groups to come gives the first of them and moves behind it; one that has none stays where it is -/
theorem next_cases (s : Schedule) :
    (∃ g rest, s.groups.drop s.cursor = g :: rest ∧ s.next = (some g, { s with cursor := s.cursor + 1 })) ∨
      (s.groups.drop s.cursor = [] ∧ s.next = (none, s)) := by
  cases hget : s.groups[s.cursor]? with
  | none =>
    have hend : s.groups.length ≤ s.cursor := List.getElem?_eq_none_iff.1 hget
    exact Or.inr ⟨List.drop_eq_nil_of_le hend, by simp [next, hget]⟩
  | some g =>
    obtain ⟨hlt, hg⟩ := List.getElem?_eq_some_iff.1 hget
    refine Or.inl ⟨g, s.groups.drop (s.cursor + 1), ?_, by simp [next, hget]⟩
    rw [List.drop_eq_getElem_cons hlt, hg]

theorem hasNext_iff : s.hasNext = true ↔ ∃ g, s.next.1 = some g := by
  have hcursor : s.hasNext = true ↔ s.groups.drop s.cursor ≠ [] := by simp [hasNext]
  rw [hcursor]
  rcases s.next_cases with ⟨g, rest, hdrop, hnext⟩ | ⟨hdrop, hnext⟩
  · rw [hdrop, hnext]
    exact iff_of_true (List.cons_ne_nil _ _) ⟨g, rfl⟩
  · rw [hdrop, hnext]
    exact iff_of_false (fun h => h rfl) fun ⟨g, hg⟩ => nomatch hg

/-- a step never changes the groups -/
theorem groups_next (s : Schedule) : s.next.2.groups = s.groups := by
  rcases s.next_cases with ⟨g, rest, -, hnext⟩ | ⟨-, hnext⟩ <;> rw [hnext]

/-- a loop that takes the next group until there is none -/
def foldl {α : Type} (f : α → RuleGroup → α) (init : α) (s : Schedule) : α :=
  match _h : s.next with
  | (some g, rest) => rest.foldl f (f init g)
  | (none, _) => init
termination_by s.groups.length - s.cursor
decreasing_by
  rcases s.next_cases with ⟨g', rest', hdrop, hnext⟩ | ⟨-, hnext⟩
  · have hahead : (s.groups.drop s.cursor).length = rest'.length + 1 := by rw [hdrop, List.length_cons]
    rw [List.length_drop] at hahead
    cases hnext.symm.trans _h
    dsimp only
    omega
  · cases hnext.symm.trans _h

/-- **The loop** sees what is ahead of the cursor. -/
theorem foldl_eq {α : Type} (f : α → RuleGroup → α) (init : α) (s : Schedule) :
    s.foldl f init = (s.groups.drop s.cursor).foldl f init := by
  fun_induction foldl f init s with
  | case1 init s g rest hnext ih =>
    rcases s.next_cases with ⟨g', ahead, hdrop, hnext'⟩ | ⟨-, hnext'⟩
    · cases hnext'.symm.trans hnext
      have behind : s.groups.drop (s.cursor + 1) = ahead := by rw [← List.tail_drop, hdrop, List.tail_cons]
      rw [ih, hdrop, List.foldl_cons, behind]
    · cases hnext'.symm.trans hnext
  | case2 init s rest hnext =>
    rcases s.next_cases with ⟨g, ahead, -, hnext'⟩ | ⟨hdrop, -⟩
    · cases hnext'.symm.trans hnext
    · rw [hdrop, List.foldl_nil]

/-- **From the start** the loop sees all groups. -/
theorem foldl_ofRules {α : Type} (f : α → RuleGroup → α) (init : α) (rules : List RuleId) :
    (ofRules rules).foldl f init = (RuleGroup.ofRules rules).foldl f init := by
  rw [foldl_eq]
  rfl

/-- **After a reset** the loop sees all groups again, however many steps were made. -/
theorem foldl_reset {α : Type} (f : α → RuleGroup → α) (init : α) (rules : List RuleId) (steps : ℕ) :
    ((fun s : Schedule => s.next.2)^[steps] (ofRules rules)).reset.foldl f init =
      (RuleGroup.ofRules rules).foldl f init := by
  have same : ((fun s : Schedule => s.next.2)^[steps] (ofRules rules)).groups = RuleGroup.ofRules rules := by
    induction steps with
    | zero => rfl
    | succ steps ih => rw [Function.iterate_succ_apply', groups_next, ih]
  rw [foldl_eq]
  simp only [reset, same, List.drop_zero]

end Schedule

end RoadRules
