/-
What a check goes through, and what it reports of it.

- `lexicographic_choices`: the choices of one item from each list are all tuples of items, listed in the lexicographic
  order of the positions of the items, each position once.
- `verifyRule_eq`: the walk over the choices reports the ids at those where the formula is not true; locations that are
  the same are reported once, where they come first.
- `entries_ofList_eq`: a check has an entry for each requested rule that is broken somewhere.
- `verify_eq_failing`: the three together, for any catalog.
-/
import Mathlib.Tactic
import RoadRules.Proofs.Network.Lookup
import RoadRules.Proofs.Network.Index
import RoadRules.Rule.Verify

namespace RoadRules

variable {α : Type}

/-! ## All choices -/

/-- a choice has an item from each list -/
theorem mem_choices {lists : List (List α)} {b : List α} : b ∈ choices lists ↔ List.Forall₂ (· ∈ ·) b lists := by
  induction lists generalizing b with
  | nil => simp [choices]
  | cons l lists ih =>
    simp only [choices, List.mem_flatMap, List.mem_map, List.forall₂_cons_right_iff, ih]
    constructor
    · rintro ⟨x, hx, rest, hrest, rfl⟩; exact ⟨x, rest, hx, hrest, rfl⟩
    · rintro ⟨x, rest, hx, hrest, rfl⟩; exact ⟨x, hx, rest, hrest, rfl⟩

/-- if every list goes up, so do the choices -/
theorem choices_increasing {lists : List (List Nat)} (h : ∀ l ∈ lists, l.Pairwise (· < ·)) :
    (choices lists).Pairwise (· < ·) := by
  induction lists with
  | nil => exact List.pairwise_singleton _ _
  | cons l lists ih =>
    have hrest : (choices lists).Pairwise (· < ·) := ih fun m hm => h m (List.mem_cons_of_mem _ hm)
    rw [choices, List.pairwise_flatMap]
    constructor
    · intro x _
      exact List.pairwise_map.2 (hrest.imp fun hlt => List.cons_lt_cons_iff.2 (.inr ⟨rfl, hlt⟩))
    · refine (h l List.mem_cons_self).imp fun hxy b hb d hd => ?_
      obtain ⟨b, -, rfl⟩ := List.mem_map.1 hb
      obtain ⟨d, -, rfl⟩ := List.mem_map.1 hd
      exact List.cons_lt_cons_iff.2 (.inl hxy)

/-- the items at some positions, one in each list -/
def itemsAt? (lists : List (List α)) (positions : List Nat) : List (Option α) :=
  List.zipWith (fun l i => l[i]?) lists positions

/-- Are the tuples the full product of the lists, in lexicographic order with the last item varying fastest? -/
def Lexicographic (lists tuples : List (List α)) : Prop :=
  ∃ positions : List (List Nat),
    (∀ p, p ∈ positions ↔ List.Forall₂ (fun i l => i < l.length) p lists) ∧ positions.Pairwise (· < ·) ∧
      tuples.map (List.map some) = positions.map (itemsAt? lists)

theorem choices_itemsAt? (lists : List (List α)) :
    (choices lists).map (List.map some) =
      (choices (lists.map fun l => List.range l.length)).map (itemsAt? lists) := by
  induction lists with
  | nil => rfl
  | cons l lists ih =>
    have hitems : l.map some = (List.range l.length).map fun i => l[i]? := by
      refine List.ext_getElem (by simp) fun i h _ => ?_
      simp only [List.length_map] at h
      simp [List.getElem?_eq_getElem h]
    have hleft : (choices (l :: lists)).map (List.map some) =
        (l.map some).flatMap fun y => ((choices lists).map (List.map some)).map (y :: ·) := by
      simp only [choices, List.map_flatMap, List.flatMap_map, List.map_map]
      rfl
    rw [hleft, hitems, ih, List.map_cons, choices, List.flatMap_map, List.map_flatMap]
    simp only [List.map_map]
    rfl

/-- **Choices.** They are the full product of the lists, in lexicographic order. -/
theorem lexicographic_choices (lists : List (List α)) : Lexicographic lists (choices lists) := by
  refine ⟨choices (lists.map fun l => List.range l.length), fun p => ?_, ?_, choices_itemsAt? lists⟩
  · rw [mem_choices, List.forall₂_map_right_iff]
    simp only [List.mem_range]
  · refine choices_increasing fun l hl => ?_
    obtain ⟨m, -, rfl⟩ := List.mem_map.1 hl
    exact List.pairwise_lt_range

/-- with an empty list there is no choice -/
theorem choices_eq_nil {lists : List (List α)} (h : [] ∈ lists) : choices lists = [] := by
  refine List.eq_nil_iff_forall_not_mem.2 fun b hb => ?_
  rw [mem_choices] at hb
  induction hb with
  | nil => cases h
  | @cons x l b lists hx _ ih =>
    rcases List.mem_cons.1 h with rfl | h
    · cases hx
    · exact ih h

/-! ## Elements chosen for the outer variables -/

/-- the elements of a domain are in the network -/
theorem present_of_domain {n : Network} {d : Domain} {h : Handle} (hh : h ∈ n.view.index.domain d) :
    ∃ id, n.idOf? h = some id := by
  change h ∈ (NetworkIndex.build n).domain d at hh
  rw [NetworkIndex.domain_build] at hh
  cases hk : NetworkIndex.kind? d with
  | some kind => rw [hk] at hh; exact (Network.mem_handles.1 hh).2
  | none => rw [hk] at hh; exact Network.mem_allHandles.1 hh

namespace Catalog

theorem present_of_bindings {n : Network} {e : CatalogEntry} {b : List Handle} (hb : b ∈ bindings n.view e) :
    ∀ h ∈ b, ∃ id, n.idOf? h = some id := by
  rw [bindings, mem_choices] at hb
  intro h hh
  obtain ⟨i, hi, rfl⟩ := List.mem_iff_getElem.1 hh
  obtain ⟨hlen, hall⟩ := List.forall₂_iff_get.1 hb
  have hmem := hall i hi (hlen ▸ hi)
  simp only [List.get_eq_getElem, List.getElem_map] at hmem
  exact present_of_domain hmem

/-- a choice has an id for each variable -/
theorem ids_of_bindings {n : Network} {e : CatalogEntry} {b : List Handle} (hb : b ∈ bindings n.view e) :
    (b.filterMap n.idOf?).map some = b.map n.idOf? := by
  have hall := present_of_bindings hb
  clear hb
  induction b with
  | nil => rfl
  | cons h b ih =>
    obtain ⟨id, hid⟩ := hall h List.mem_cons_self
    rw [List.filterMap_cons_some hid, List.map_cons, List.map_cons, hid,
      ih fun k hk => hall k (List.mem_cons_of_mem _ hk)]

/-! ## What is reported -/

theorem foldl_noteLocation {β : Type} (p : β → Bool) (f : β → Location) (bs : List β) (found : List Location) :
    bs.foldl (fun found b => if p b then found else noteLocation found (f b)) found =
      List.eraseDupsBy.loop (· == ·) ((bs.filter fun b => !p b).map f) found.reverse := by
  induction bs generalizing found with
  | nil => simp [List.eraseDupsBy.loop]
  | cons b bs ih =>
    rw [List.foldl_cons, ih]
    cases hp : p b with
    | true => simp [hp]
    | false =>
      have hany : found.reverse.any (f b == ·) = found.contains (f b) := by
        rw [List.any_reverse, List.contains_eq_any_beq]
      rw [List.filter_cons_of_pos (by simp [hp]), List.map_cons, List.eraseDupsBy.loop, hany, noteLocation]
      cases found.contains (f b) <;> simp

/-- **Locations.** The ids at the choices where the formula is not true, each location once. -/
theorem verifyRule_eq {c : Catalog} {r : RuleId} {e : CatalogEntry} (he : c.entry? r = some e) (n : Network) :
    c.verifyRule n.view r =
      (((bindings n.view e).filter fun b => !holdsAt (c.setting n.view) e b).map fun b =>
        b.filterMap n.idOf?).eraseDups := by
  simp only [verifyRule, he, visitChoices_eq]
  exact foldl_noteLocation _ _ _ []

theorem holdsAt_eq {c : Catalog} {r : RuleId} {e : CatalogEntry} (he : c.entry? r = some e) (n : Network)
    (b : List Handle) : holdsAt (c.setting n.view) e b = decide (c.evaluate r n b = .ok true) := by
  simp only [holdsAt, evaluate, he]
  cases (c.setting n.view).evaluate e.formula b with
  | ok value => cases value <;> rfl
  | error _ => rfl

end Catalog

namespace Violations

/-- the entry that counts for a rule -/
theorem find?_entries (f : RuleId → List Location) (rules : List RuleId) (r : RuleId) :
    ((rules.map fun r => (r, f r)).filter fun e => !e.2.isEmpty).reverse.find? (·.1 == r) =
      if r ∈ rules ∧ f r ≠ [] then some (r, f r) else none := by
  have hmem : ∀ e, e ∈ ((rules.map fun r => (r, f r)).filter fun e => !e.2.isEmpty).reverse ↔
      e.1 ∈ rules ∧ e.2 = f e.1 ∧ f e.1 ≠ [] := by
    rintro ⟨q, ls⟩
    simp only [List.mem_reverse, List.mem_filter, List.mem_map, Prod.mk.injEq, Bool.not_eq_true',
      List.isEmpty_eq_false_iff]
    constructor
    · rintro ⟨⟨q, hq, rfl, rfl⟩, hne⟩; exact ⟨hq, rfl, hne⟩
    · rintro ⟨hq, rfl, hne⟩; exact ⟨⟨q, hq, rfl, rfl⟩, hne⟩
  split_ifs with h
  · obtain ⟨e, he⟩ : ∃ e, (((rules.map fun r => (r, f r)).filter fun e => !e.2.isEmpty).reverse.find? (·.1 == r)) =
        some e := by
      rw [← Option.isSome_iff_exists, List.find?_isSome]
      exact ⟨(r, f r), (hmem _).2 ⟨h.1, rfl, h.2⟩, beq_self_eq_true r⟩
    have hr : e.1 = r := by simpa using List.find?_some he
    obtain ⟨-, hls, -⟩ := (hmem e).1 (List.mem_of_find?_eq_some he)
    rw [he, ← hr, ← hls]
  · refine List.find?_eq_none.2 fun e he hr => h ?_
    obtain rfl : e.1 = r := by simpa using hr
    obtain ⟨hq, -, hne⟩ := (hmem e).1 he
    exact ⟨hq, hne⟩

/-- one entry for each of the rules that has locations, in the order of the rules -/
theorem entries_ofList_eq (f : RuleId → List Location) (rules : List RuleId) :
    (ofList ((rules.map fun r => (r, f r)).filter fun e => !e.2.isEmpty)).entries =
      (RuleId.values.filter fun r => r ∈ rules ∧ f r ≠ []).map fun r => (r, f r) := by
  simp only [ofList, find?_entries]
  rw [← List.filterMap_eq_map, ← List.filterMap_eq_filter, List.filterMap_filterMap]
  refine List.filterMap_congr fun r _ => ?_
  by_cases h : r ∈ rules ∧ f r ≠ [] <;> simp [h, Option.guard]

end Violations

/-- **Exactly the failing choices.** The choices of elements for the outer variables of a rule are the full product of
the domains, in lexicographic order with the last variable varying fastest. Reported are the ids, one for each variable,
at those choices where the rule does not evaluate to true; each location is reported once, where it comes first. Without
an element for some variable nothing is reported, nor for a rule that the catalog lacks. A check has one entry for each
requested rule with a location. -/
theorem Catalog.verify_eq_failing (c : Catalog) (n : Network) :
    (∀ r, match c.entry? r with
      | none => c.verifyRule n.view r = []
      | some e => ∃ tuples, Lexicographic (e.formula.bindings.map fun b => n.view.index.domain b.domain) tuples ∧
          (∀ t ∈ tuples, (t.filterMap n.idOf?).map some = t.map n.idOf?) ∧
          c.verifyRule n.view r =
            ((tuples.filter fun t => c.evaluate r n t ≠ .ok true).map fun t => t.filterMap n.idOf?).eraseDups ∧
          ((∃ b ∈ e.formula.bindings, n.view.index.domain b.domain = []) → c.verifyRule n.view r = [])) ∧
    ∀ rules, (c.verify n rules).entries =
      (RuleId.values.filter fun r => r ∈ rules ∧ c.verifyRule n.view r ≠ []).map fun r =>
        (r, c.verifyRule n.view r) := by
  refine ⟨fun r => ?_, fun rules => Violations.entries_ofList_eq _ rules⟩
  cases he : c.entry? r with
  | none => simp only [verifyRule, he]
  | some e =>
    refine ⟨bindings n.view e, lexicographic_choices _, fun t ht => ids_of_bindings ht, ?_, ?_⟩
    · simp only [verifyRule_eq he, holdsAt_eq he, decide_not]
    · rintro ⟨b, hb, hempty⟩
      have hnone : bindings n.view e = [] := choices_eq_nil (List.mem_map.2 ⟨b, hb, hempty⟩)
      rw [verifyRule_eq he, hnone]
      rfl

end RoadRules
