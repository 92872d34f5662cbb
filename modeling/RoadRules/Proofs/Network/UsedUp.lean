/-
Ids when the counter has none left.

When the counter has come to its end, a fresh id is searched for: the ids in use are gone through in ascending order, and
the first number that is missing is taken.

- `Taken`: the id is in use, here or outside.
- `smallestUnusedId?_eq_some_iff`, `smallestUnusedId?_eq_none_iff`: the search comes to the least id that is not taken,
  and to none only if all are.
- `smallestUnusedId?_eq_gapFrom?`: it may count up in ids. The one step that could leave their range is the one behind
  the largest id, and then all ids are taken.
- `fallsBack_of_used_up`: so this is what fresh ids are from then on. An element that comes to one has it for itself.
-/
import RoadRules.Proofs.Network.FreshIds
import RoadRules.Proofs.Network.Rewriting

namespace RoadRules

namespace Network

variable {n : Network} {id : ElementId}

/-! ## Ids in use -/

/-- does an element bear the id, of whatever kind, or is it external as one of some kind? -/
def Taken (n : Network) (id : ElementId) : Prop :=
  (∃ h, n.idOf? h = some id) ∨ ∃ kind, id ∈ n.external.ofKind kind

theorem taken_iff : n.Taken id ↔ ∃ kind, n.resolves kind id = true := by
  simp only [Taken, resolves_iff, ExternalIds.contains, SortedSet.contains_iff]
  constructor
  · rintro (⟨h, hid⟩ | ⟨kind, hid⟩)
    · exact ⟨h.kind, Or.inr ⟨h.key, hid⟩⟩
    · exact ⟨kind, Or.inl hid⟩
  · rintro ⟨kind, hid | ⟨k, hid⟩⟩
    · exact Or.inr ⟨kind, hid⟩
    · exact Or.inl ⟨_, hid⟩

theorem not_taken_of_unused (h : n.smallestUnusedId? = some id) : ¬ n.Taken id := by
  intro ht
  obtain ⟨kind, hid⟩ := taken_iff.1 ht
  rw [not_resolves_of_unused h kind] at hid
  cases hid

theorem isLeast_of_unused (h : n.smallestUnusedId? = some id) : IsLeast {i | ¬ n.Taken i} id := by
  refine ⟨not_taken_of_unused h, fun other hother => ?_⟩
  by_contra hlt
  exact hother (taken_iff.2 (resolves_of_lt_unused h (UInt32.not_le.1 hlt)))

/-- **The search fails only if all ids are taken.** -/
theorem smallestUnusedId?_eq_none_iff : n.smallestUnusedId? = none ↔ ∀ id, n.Taken id := by
  constructor
  · exact fun h id => taken_iff.2 (resolves_of_all_used h id)
  · intro h
    cases hs : n.smallestUnusedId? with
    | none => rfl
    | some id => exact absurd (h id) (not_taken_of_unused hs)

/-- **The search comes to the least id that is not taken.** -/
theorem smallestUnusedId?_eq_some_iff : n.smallestUnusedId? = some id ↔ IsLeast {i | ¬ n.Taken i} id := by
  refine ⟨isLeast_of_unused, fun h => ?_⟩
  cases hs : n.smallestUnusedId? with
  | none => exact absurd (smallestUnusedId?_eq_none_iff.1 hs id) h.1
  | some other =>
    have hother := isLeast_of_unused hs
    rw [UInt32.le_antisymm (hother.2 h.1) (h.2 hother.1)]

/-! ## Counting in ids -/

/-- the id after this one, unless it is the largest -/
def idAfter? (id : ElementId) : Option ElementId := if id.toNat + 1 < idLimit then some (id + 1) else none

theorem toNat_idAfter? {next : ElementId} (h : idAfter? id = some next) : next.toNat = id.toNat + 1 := by
  unfold idAfter? at h
  split_ifs at h with hlt
  cases h
  rw [UInt32.toNat_add]
  exact Nat.mod_eq_of_lt hlt

/-- the first id from `candidate` on that is not in an ascending list; none if there is no id to go on with -/
def gapFrom? (candidate : ElementId) : List ElementId → Option ElementId
  | [] => some candidate
  | id :: rest => if id = candidate then (idAfter? candidate).bind fun next => gapFrom? next rest else some candidate

/-- **Counting in ids comes to what counting in numbers comes to,** as far as that is an id. -/
theorem gapFrom?_eq (candidate : ElementId) (l : List ElementId) : gapFrom? candidate l =
    if firstGap candidate.toNat l < idLimit then some (UInt32.ofNat (firstGap candidate.toNat l)) else none := by
  induction l generalizing candidate with
  | nil => simp [gapFrom?, firstGap, idLimit, candidate.toNat_lt_size]
  | cons a l ih =>
    unfold gapFrom? firstGap
    by_cases ha : a = candidate
    · rw [if_pos ha, if_pos (congrArg UInt32.toNat ha)]
      cases hnext : idAfter? candidate with
      | some next => rw [Option.bind_some, ih, toNat_idAfter? hnext]
      | none =>
        -- the list goes on to the largest id, and the gap is beyond it
        have hlast : idLimit ≤ candidate.toNat + 1 := by
          unfold idAfter? at hnext
          split_ifs at hnext with h
          exact Nat.not_lt.1 h
        have hgap := le_firstGap (candidate.toNat + 1) l
        rw [if_neg (by omega)]
        rfl
    · have hne : ¬ a.toNat = candidate.toNat := fun h => ha (UInt32.toNat_inj.1 h)
      have hlt : candidate.toNat < idLimit := candidate.toNat_lt_size
      rw [if_neg ha, if_neg hne, if_pos hlt, UInt32.ofNat_toNat]

theorem smallestUnusedId?_eq_gapFrom? (n : Network) : n.smallestUnusedId? = gapFrom? 0 n.usedIds.toList := by
  rw [smallestUnusedId?_eq, gapFrom?_eq]
  rfl

end Network

/-! ## Fresh ids -/

namespace RoadMap

/-- without an id from the counter the network is searched, and the map stays as it is -/
theorem freshId?_of_end {m : RoadMap} (h : m.ids.watermark = idLimit) :
    m.freshId? = m.network.smallestUnusedId?.map fun id => (id, m) := by
  rw [freshId?, IdAllocator.draw?_eq_none_iff.2 h]

/-- what fresh ids are when the counter has none left -/
structure FallsBack (m : RoadMap) : Prop where
  /-- the least id that is not taken, and nothing else changes -/
  least : ∀ id m', m.freshId? = some (id, m') ↔ IsLeast {i | ¬ m.network.Taken i} id ∧ m' = m
  /-- there is one, unless all ids are taken -/
  none_iff : m.freshId? = none ↔ ∀ id, m.network.Taken id
  /-- the search stays in the range of ids -/
  inRange : m.network.smallestUnusedId? = Network.gapFrom? 0 m.network.usedIds.toList
  /-- an element comes to another id unless all are taken -/
  reassigned : ∀ h, (m.reassignId? h).isSome = true ↔ m.network.contains h = true ∧ ∃ id, ¬ m.network.Taken id
  /-- it alone bears that id then, and no element outside does; the others have theirs as before -/
  alone : ∀ h id m', m.reassignId? h = some (id, m') → IsLeast {i | ¬ m.network.Taken i} id ∧
    (∀ x, m'.network.idOf? x = if x = h then some id else m.network.idOf? x) ∧
    (∀ x, m'.network.idOf? x = some id ↔ x = h) ∧ ∀ kind, ¬ id ∈ m'.network.external.ofKind kind

/-- **Ids when the counter has none left.** For every network, with whatever elements and external ids: a fresh id is
then the least of all ids that no element bears, here or outside. -/
theorem fallsBack_of_used_up {m : RoadMap} (h : m.ids.watermark = 2 ^ 32) : m.FallsBack := by
  have hfresh := freshId?_of_end h
  have least : ∀ id m', m.freshId? = some (id, m') ↔ IsLeast {i | ¬ m.network.Taken i} id ∧ m' = m := by
    intro id m'
    rw [hfresh, ← Network.smallestUnusedId?_eq_some_iff]
    cases m.network.smallestUnusedId? <;> simp [eq_comm]
  have none_iff : m.freshId? = none ↔ ∀ id, m.network.Taken id := by
    rw [hfresh, Option.map_eq_none_iff, Network.smallestUnusedId?_eq_none_iff]
  refine ⟨least, none_iff, Network.smallestUnusedId?_eq_gapFrom? _, fun x => ?_, ?_⟩
  · rw [reassignId?, ← not_forall, ← none_iff, ← ne_eq, ← Option.isSome_iff_ne_none]
    by_cases hx : m.network.contains x = true
    · rw [if_pos hx, Option.isSome_map]
      simp [hx]
    · simp [hx]
  · intro x id m' hr
    obtain ⟨⟨old, hold⟩, drawn, hdrawn, rfl⟩ := exists_of_reassignId? hr
    obtain ⟨hleast, rfl⟩ := (least id drawn).1 hdrawn
    have hids := Network.idOf?_setId hold id
    have hnew : ∀ y, drawn.network.idOf? y ≠ some id := fun y hy => hleast.1 (Or.inl ⟨y, hy⟩)
    refine ⟨hleast, hids, fun y => ?_, fun kind hkind => ?_⟩
    · rw [hids]
      split_ifs with hy
      · simp [hy]
      · simp [hy, hnew y]
    · rw [(drawn.network.rewrites_setId x id).external] at hkind
      exact hleast.1 (Or.inr ⟨kind, hkind⟩)

/-- An element bears the largest id, so that the counter has none left. Of the ids from 0 on, some are borne by elements
and some are external; the least that is free goes to the second lanelet. -/
theorem fallsBack_of_used_up_gap : ∃ m : RoadMap,
    m.network.allIds = [0, 1, 4294967295, 1] ∧ m.network.external = { trafficLights := .ofList [3, 2] } ∧
    m.ids.watermark = 2 ^ 32 ∧ m.freshId? = some (4, m) ∧
    (m.reassignId? ⟨.lanelet, 1⟩).map (·.2.network.allIds) = some [0, 4, 4294967295, 1] ∧ m.FallsBack := by
  let d : Document := { lanelets := [{ id := 0 }, { id := 1 }, { id := 4294967295 }], trafficSigns := [{ id := 1 }] }
  let m := RoadMap.ofDocument d
  let m := { m with network := { m.network with external := { trafficLights := .ofList [3, 2] } } }
  refine ⟨m, by decide +kernel, by decide +kernel, by decide +kernel, by decide +kernel, by decide +kernel, ?_⟩
  exact fallsBack_of_used_up (by decide +kernel)

end RoadMap

end RoadRules
