/-
Violations as sets.

What a check finds is a list of locations for each rule; what matters of it is which violations are in it.

- `Network.Violates`: a network has a violation if the fault of the rule is there, at elements with the ids of the
  location.
- `mem_verify`: a check of some rules finds the violations of these rules that the network has.
- `contains_iff`, `mem_filter`, `mem_owned`: the operations on violations in these terms.
-/
import RoadRules.Proofs.Rule.Enumeration
import RoadRules.Proofs.Rule.Meaning
import RoadRules.Run.Closure

namespace RoadRules

/-- does the network have the violation? -/
def Network.Violates (n : Network) (v : Violation) : Prop :=
  ∃ b, v.rule.fault.At n b ∧ b.filterMap n.idOf? = v.location

namespace Violations

instance : Membership Violation Violations := ⟨fun vs v => v ∈ vs.toList⟩

theorem mem_toList {vs : Violations} {v : Violation} : v ∈ vs.toList ↔ v ∈ vs := Iff.rfl

theorem mem_iff {vs : Violations} {v : Violation} : v ∈ vs ↔ ∃ ls, (v.rule, ls) ∈ vs.entries ∧ v.location ∈ ls := by
  rw [← mem_toList]
  simp only [toList, List.mem_flatMap, List.mem_map]
  constructor
  · rintro ⟨⟨r, ls⟩, he, l, hl, rfl⟩; exact ⟨ls, he, hl⟩
  · rintro ⟨ls, he, hl⟩; exact ⟨(v.rule, ls), he, v.location, hl, rfl⟩

/-- no rule has two entries -/
def Distinct (vs : Violations) : Prop := (vs.entries.map (·.1)).Nodup

theorem not_mem_of_isEmpty {vs : Violations} (h : vs.isEmpty = true) (v : Violation) : ¬ v ∈ vs := by
  rw [mem_iff]
  rintro ⟨ls, he, -⟩
  rw [List.isEmpty_iff.1 h] at he
  cases he

theorem contains_iff {vs : Violations} (hd : vs.Distinct) {v : Violation} : vs.contains v = true ↔ v ∈ vs := by
  rw [contains, at?, mem_iff]
  constructor
  · intro h
    cases hf : vs.entries.lookup v.rule with
    | none => rw [hf] at h; cases h
    | some ls =>
      rw [hf] at h
      exact ⟨ls, (lookup_eq_some_iff hd).1 hf, by simpa using h⟩
  · rintro ⟨ls, he, hl⟩
    rw [(lookup_eq_some_iff hd).2 he]
    simpa using hl

theorem mem_filter {vs : Violations} {p : Violation → Bool} {v : Violation} :
    v ∈ vs.filter p ↔ v ∈ vs ∧ p v = true := by
  simp only [mem_iff, filter, List.mem_filter, List.mem_map, Prod.mk.injEq]
  constructor
  · rintro ⟨ls, ⟨⟨⟨r, ks⟩, he, rfl, rfl⟩, -⟩, hl⟩
    obtain ⟨hk, hp⟩ := List.mem_filter.1 hl
    exact ⟨⟨ks, he, hk⟩, hp⟩
  · rintro ⟨⟨ls, he, hl⟩, hp⟩
    have hm : v.location ∈ ls.filter fun l => p ⟨v.rule, l⟩ := List.mem_filter.2 ⟨hl, hp⟩
    exact ⟨_, ⟨⟨(v.rule, ls), he, rfl, rfl⟩, by simpa using List.ne_nil_of_mem hm⟩, hm⟩

theorem distinct_filter {vs : Violations} (hd : vs.Distinct) (p : Violation → Bool) : (vs.filter p).Distinct := by
  have hsub : ((vs.filter p).entries.map (·.1)).Sublist ((vs.entries.map fun e =>
      (e.1, e.2.filter fun l => p ⟨e.1, l⟩)).map (·.1)) := List.filter_sublist.map _
  refine List.Nodup.sublist hsub ?_
  rw [List.map_map]
  exact hd

theorem distinct_single (v : Violation) : (single v).Distinct := List.nodup_singleton _

theorem distinct_empty : empty.Distinct := List.nodup_nil

theorem mem_single {v w : Violation} : w ∈ single v ↔ w = v := by
  simp only [mem_iff, single, List.mem_singleton, Prod.mk.injEq]
  constructor
  · rintro ⟨ls, ⟨hr, rfl⟩, hl⟩
    cases w; cases v
    simp only [List.mem_singleton] at hr hl
    rw [hr, hl]
  · rintro rfl
    exact ⟨_, ⟨rfl, rfl⟩, List.mem_singleton.2 rfl⟩

theorem mem_ids {vs : Violations} {id : ElementId} : id ∈ vs.ids ↔ ∃ v ∈ vs, id ∈ v.location := by
  simp only [ids, SortedSet.mem_ofList, List.mem_flatMap, mem_toList]

/-! ## What a check finds -/

theorem entries_ofList {f : RuleId → List Location} {rules : List RuleId} {r : RuleId} {ls : List Location} :
    (r, ls) ∈ (ofList ((rules.map fun r => (r, f r)).filter fun e => !e.2.isEmpty)).entries ↔
      r ∈ rules ∧ ls = f r ∧ f r ≠ [] := by
  simp only [entries_ofList_eq, List.mem_map, List.mem_filter, decide_eq_true_eq, Prod.mk.injEq]
  constructor
  · rintro ⟨r, ⟨-, hr, hne⟩, rfl, rfl⟩; exact ⟨hr, rfl, hne⟩
  · rintro ⟨hr, rfl, hne⟩; exact ⟨r, ⟨r.mem_values, hr, hne⟩, rfl, rfl⟩

theorem distinct_ofList (l : List (RuleId × List Location)) : (ofList l).Distinct := by
  have hv : RuleId.values.Nodup := by decide
  have hsub : ∀ rs : List RuleId, ((rs.filterMap fun r => l.reverse.find? (·.1 == r)).map (·.1)).Sublist rs := by
    intro rs
    induction rs with
    | nil => exact List.Sublist.refl _
    | cons r rs ih =>
      rw [List.filterMap_cons]
      split
      · exact ih.cons r
      · next e he =>
        have : e.1 = r := by simpa using List.find?_some he
        rw [List.map_cons, this]
        exact ih.cons_cons r
  exact List.Nodup.sublist (hsub _) hv

end Violations

open Violations in
/-- **Locations.** A rule is reported where the network has its fault. -/
theorem mem_verifyRule {n : Network} {r : RuleId} {l : Location} :
    l ∈ standardCatalog.verifyRule n.view r ↔ n.Violates ⟨r, l⟩ := by
  simp only [Catalog.verifyRule_eq (Catalog.entry?_standard r), List.mem_eraseDups, List.mem_map, List.mem_filter,
    Network.Violates, ← RuleId.isBroken_iff, RuleId.IsBroken, Bool.not_eq_true']
  rfl

namespace Violations

/-- **Violations.** A check finds the violations of its rules that the network has. -/
theorem mem_verify {n : Network} {rules : List RuleId} {v : Violation} :
    v ∈ standardCatalog.verify n rules ↔ v.rule ∈ rules ∧ n.Violates v := by
  rw [mem_iff]
  constructor
  · rintro ⟨ls, he, hl⟩
    obtain ⟨hr, rfl, -⟩ := entries_ofList.1 he
    exact ⟨hr, mem_verifyRule.1 hl⟩
  · rintro ⟨hr, hv⟩
    have hl : v.location ∈ standardCatalog.verifyRule n.view v.rule := mem_verifyRule.2 hv
    exact ⟨_, entries_ofList.2 ⟨hr, rfl, List.ne_nil_of_mem hl⟩, hl⟩

/-- what is found for a rule, if the rule is checked at all -/
theorem at?_verify (n : Network) (rules : List RuleId) (r : RuleId) :
    ((standardCatalog.verify n rules).at? r).getD [] =
      if r ∈ rules then standardCatalog.verifyRule n.view r else [] := by
  cases hf : (standardCatalog.verify n rules).at? r with
  | some ls =>
    obtain ⟨hr, rfl, -⟩ := entries_ofList.1 ((lookup_eq_some_iff (distinct_ofList _)).1 hf)
    rw [if_pos hr]; rfl
  | none =>
    split_ifs with hr
    · by_contra hne
      have he := entries_ofList.2 ⟨hr, rfl, Ne.symm hne⟩
      exact absurd (hf.symm.trans ((lookup_eq_some_iff (distinct_ofList _)).2 he)) (by simp)
    · rfl

theorem distinct_verify (c : Catalog) (n : Network) (rules : List RuleId) : (c.verify n rules).Distinct :=
  distinct_ofList _

/-- a check finds nothing if the network has no violation of its rules -/
theorem verify_isEmpty {n : Network} {rules : List RuleId} :
    (standardCatalog.verify n rules).isEmpty = true ↔ ∀ v, v.rule ∈ rules → ¬ n.Violates v := by
  constructor
  · intro h v hr hv
    exact not_mem_of_isEmpty h v (mem_verify.2 ⟨hr, hv⟩)
  · intro h
    rw [isEmpty, List.isEmpty_iff, List.eq_nil_iff_forall_not_mem]
    rintro ⟨r, ls⟩ he
    obtain ⟨hr, -, hne⟩ := entries_ofList.1 he
    obtain ⟨l, hl⟩ := List.exists_mem_of_ne_nil _ hne
    exact h ⟨r, l⟩ hr (mem_verifyRule.1 hl)

/-- what a round leaves pending: what is found after it, if it was pending before or is new -/
theorem mem_owned {after pending before : Violations} (hp : pending.Distinct) (hb : before.Distinct) {v : Violation} :
    v ∈ Plan.owned after pending before ↔ v ∈ after ∧ (v ∈ pending ∨ ¬ v ∈ before) := by
  rw [Plan.owned, mem_filter, Bool.or_eq_true, Bool.not_eq_true', ← Bool.not_eq_true, contains_iff hp, contains_iff hb]

end Violations

end RoadRules
