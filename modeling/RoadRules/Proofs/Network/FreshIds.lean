/-
Ids that no element bears.

- `draw?_eq_some_iff`, `draw?_eq_none_iff`: the counter gives out the number it has come to, until the ids end.
- `smallestUnusedId?_congr`: the smallest unused id depends only on what resolves.
- `not_resolves_of_unused`, `resolves_of_lt_unused`: the smallest unused id resolves nothing, every smaller one does.
- `freshId?_cases`: a map draws the number its counter has come to, or at the end of the range the smallest unused id.
- `freshId?_congr`: which id a map draws depends only on its counter and on what resolves.
- `Counted`: all ids of a map count as used. Then no element bears an id that is drawn (`freshId?_spec`).
-/
import RoadRules.Network.Document
import RoadRules.Proofs.Network.Lookup

namespace RoadRules

theorem IdAllocator.draw?_eq_some_iff {a b : IdAllocator} {id : ElementId} :
    a.draw? = some (id, b) ↔ id.toNat = a.watermark ∧ b.watermark = a.watermark + 1 := by
  obtain ⟨w, hw⟩ := a
  obtain ⟨v, hv⟩ := b
  unfold draw?
  dsimp only
  split_ifs with h
  · simp only [Option.some.injEq, Prod.mk.injEq, IdAllocator.mk.injEq]
    constructor
    · rintro ⟨rfl, rfl⟩; exact ⟨UInt32.toNat_ofNat_of_lt h, rfl⟩
    · rintro ⟨hid, rfl⟩; exact ⟨UInt32.toNat_inj.1 ((UInt32.toNat_ofNat_of_lt h).trans hid.symm), rfl⟩
  · have hlt := id.toNat_lt_size
    simp only [false_iff, not_and]
    unfold idLimit at h
    omega

/-- nothing is drawn just at the end of the ids -/
theorem IdAllocator.draw?_eq_none_iff {a : IdAllocator} : a.draw? = none ↔ a.watermark = idLimit := by
  have hle := a.watermark_le
  unfold draw?
  split_ifs with h
  · simp only [false_iff]
    omega
  · simp only [true_iff]
    omega

namespace Network

/-- the first gap does not lie below the candidate -/
theorem le_firstGap (candidate : Nat) (l : List ElementId) : candidate ≤ firstGap candidate l := by
  induction l generalizing candidate with
  | nil => exact Nat.le_refl candidate
  | cons a l ih =>
    unfold firstGap
    split_ifs
    · exact Nat.le_trans (Nat.le_succ candidate) (ih (candidate + 1))
    · exact Nat.le_refl candidate

/-- the first gap is not in the list, if no member lies below the candidate -/
theorem firstGap_not_mem {l : List ElementId} (hl : l.Pairwise (· < ·)) {candidate : Nat}
    (hc : ∀ id ∈ l, candidate ≤ id.toNat) : ∀ id ∈ l, id.toNat ≠ firstGap candidate l := by
  induction l generalizing candidate with
  | nil => intro id h; cases h
  | cons a l ih =>
    obtain ⟨first, others⟩ := List.pairwise_cons.1 hl
    intro id hid
    have ha := hc a List.mem_cons_self
    unfold firstGap
    split_ifs with he
    · rcases List.mem_cons.1 hid with rfl | hid
      · have := le_firstGap (candidate + 1) l; omega
      · exact ih others (fun b hb => by have := UInt32.lt_iff_toNat_lt.1 (first b hb); omega) id hid
    · rcases List.mem_cons.1 hid with rfl | hid
      · exact he
      · have := UInt32.lt_iff_toNat_lt.1 (first id hid); omega

/-- every number below the first gap is in the list, from the candidate on -/
theorem exists_of_lt_firstGap {l : List ElementId} {candidate i : Nat} (hc : candidate ≤ i)
    (hi : i < firstGap candidate l) : ∃ id ∈ l, id.toNat = i := by
  induction l generalizing candidate with
  | nil =>
    unfold firstGap at hi
    omega
  | cons a l ih =>
    unfold firstGap at hi
    split_ifs at hi with ha
    · rcases Nat.eq_or_lt_of_le hc with rfl | hlt
      · exact ⟨a, List.mem_cons_self, ha⟩
      · obtain ⟨id, hid, heq⟩ := ih hlt hi
        exact ⟨id, List.mem_cons_of_mem _ hid, heq⟩
    · omega

/-- ids of elements, here or outside -/
def usedIds (n : Network) : IdSet :=
  (Kind.values.foldl (fun used kind => used.union (n.external.ofKind kind)) (∅ : IdSet)).insertAll n.allIds

theorem mem_usedIds {n : Network} {id : ElementId} : id ∈ n.usedIds ↔ ∃ kind, n.resolves kind id = true := by
  simp only [usedIds, SortedSet.mem_insertAll, resolves_iff, mem_allIds, ExternalIds.contains, SortedSet.contains_iff]
  have outside : id ∈ Kind.values.foldl (fun used kind => used.union (n.external.ofKind kind)) (∅ : IdSet) ↔
      ∃ kind, id ∈ n.external.ofKind kind := by
    have hno : ¬ id ∈ (∅ : IdSet) := SortedSet.not_mem_empty id
    simp only [Kind.values, List.foldl_cons, List.foldl_nil, SortedSet.mem_union, hno, false_or]
    constructor
    · rintro (((h | h) | h) | h) <;> exact ⟨_, h⟩
    · rintro ⟨kind, h⟩; cases kind <;> simp [h]
  rw [outside]
  constructor
  · rintro (⟨kind, h⟩ | ⟨h, hid⟩)
    · exact ⟨kind, Or.inl h⟩
    · exact ⟨h.kind, Or.inr ⟨h.key, hid⟩⟩
  · rintro ⟨kind, h | ⟨k, h⟩⟩
    · exact Or.inl ⟨kind, h⟩
    · exact Or.inr ⟨_, h⟩

theorem smallestUnusedId?_eq (n : Network) : n.smallestUnusedId? =
    if firstGap 0 n.usedIds.toList < idLimit then some (UInt32.ofNat (firstGap 0 n.usedIds.toList)) else none := rfl

/-- **The smallest unused id depends only on what resolves.** -/
theorem smallestUnusedId?_congr {n m : Network} (h : ∀ kind id, n.resolves kind id = m.resolves kind id) :
    n.smallestUnusedId? = m.smallestUnusedId? := by
  have used : n.usedIds = m.usedIds := SortedSet.ext fun id => by simp only [mem_usedIds, h]
  rw [smallestUnusedId?_eq, smallestUnusedId?_eq, used]

/-- **Nothing resolves the smallest unused id.** -/
theorem not_resolves_of_unused {n : Network} {id : ElementId} (h : n.smallestUnusedId? = some id) (kind : Kind) :
    n.resolves kind id = false := by
  rw [smallestUnusedId?_eq] at h
  split_ifs at h with hlt
  cases h
  by_contra hr
  have hm := mem_usedIds.2 ⟨kind, Bool.not_eq_false _ ▸ hr⟩
  exact firstGap_not_mem n.usedIds.sorted (fun _ _ => Nat.zero_le _) _ hm (UInt32.toNat_ofNat_of_lt hlt)

/-- Every id below the smallest unused one resolves in some kind. -/
theorem resolves_of_lt_unused {n : Network} {id smaller : ElementId} (h : n.smallestUnusedId? = some id)
    (hlt : smaller < id) : ∃ kind, n.resolves kind smaller = true := by
  rw [smallestUnusedId?_eq] at h
  split_ifs at h with hlimit
  cases h
  have hgap : smaller.toNat < firstGap 0 n.usedIds.toList :=
    Nat.lt_of_lt_of_eq (UInt32.lt_iff_toNat_lt.1 hlt) (UInt32.toNat_ofNat_of_lt hlimit)
  obtain ⟨used, hused, heq⟩ := exists_of_lt_firstGap (Nat.zero_le _) hgap
  exact mem_usedIds.1 (UInt32.toNat_inj.1 heq ▸ hused)

/-- If no id is unused, every id resolves in some kind. -/
theorem resolves_of_all_used {n : Network} (h : n.smallestUnusedId? = none) (id : ElementId) :
    ∃ kind, n.resolves kind id = true := by
  rw [smallestUnusedId?_eq] at h
  split_ifs at h with hlimit
  have hgap : id.toNat < firstGap 0 n.usedIds.toList := Nat.lt_of_lt_of_le id.toNat_lt_size (Nat.not_lt.1 hlimit)
  obtain ⟨used, hused, heq⟩ := exists_of_lt_firstGap (Nat.zero_le _) hgap
  exact mem_usedIds.1 (UInt32.toNat_inj.1 heq ▸ hused)

end Network

namespace RoadMap

/-- **Drawing.** The counter gives the number it has come to, or it has come to the end of the ids. -/
theorem freshId?_cases {m m' : RoadMap} {id : ElementId} (h : m.freshId? = some (id, m')) :
    m'.network = m.network ∧ (id.toNat = m.ids.watermark ∧ m'.ids.watermark = m.ids.watermark + 1 ∨
      m.ids.watermark = idLimit ∧ m'.ids = m.ids ∧ m.network.smallestUnusedId? = some id) := by
  unfold freshId? at h
  split at h
  · next i ids hdraw =>
    cases h
    exact ⟨rfl, Or.inl (IdAllocator.draw?_eq_some_iff.1 hdraw)⟩
  · next hdraw =>
    obtain ⟨i, hunused, heq⟩ := Option.map_eq_some_iff.1 h
    cases heq
    exact ⟨rfl, Or.inr ⟨IdAllocator.draw?_eq_none_iff.1 hdraw, rfl, hunused⟩⟩

/-- an element that comes to another id was there, and the id was drawn for it -/
theorem exists_of_reassignId? {m m' : RoadMap} {h : Handle} {id : ElementId}
    (hr : m.reassignId? h = some (id, m')) :
    (∃ old, m.network.idOf? h = some old) ∧
      ∃ drawn, m.freshId? = some (id, drawn) ∧ m' = ⟨drawn.network.setId h id, drawn.ids⟩ := by
  unfold reassignId? at hr
  split_ifs at hr with hpresent
  obtain ⟨⟨i, drawn⟩, hdraw, heq⟩ := Option.map_eq_some_iff.1 hr
  cases heq
  exact ⟨Option.isSome_iff_exists.1 hpresent, drawn, hdraw, rfl⟩

/-- nothing can be drawn when the counter has come to its end and all ids are in use -/
theorem freshId?_eq_none {m : RoadMap} (h : m.freshId? = none) :
    m.ids.watermark = idLimit ∧ m.network.smallestUnusedId? = none := by
  unfold freshId? at h
  split at h
  · cases h
  · next hdraw => exact ⟨IdAllocator.draw?_eq_none_iff.1 hdraw, Option.map_eq_none_iff.1 h⟩

/-- maps with one counter and the same unused ids draw the same id -/
theorem freshId?_congr {a b : RoadMap} (hi : a.ids = b.ids)
    (hu : a.network.smallestUnusedId? = b.network.smallestUnusedId?) : (a.freshId? = none ∧ b.freshId? = none) ∨
      ∃ id ids, a.freshId? = some (id, ⟨a.network, ids⟩) ∧ b.freshId? = some (id, ⟨b.network, ids⟩) := by
  unfold freshId?
  rw [← hi, ← hu]
  cases a.ids.draw? with
  | some d => exact Or.inr ⟨d.1, d.2, rfl, rfl⟩
  | none =>
    cases a.network.smallestUnusedId? with
    | none => exact Or.inl ⟨rfl, rfl⟩
    | some id => exact Or.inr ⟨id, a.ids, rfl, by rw [hi]; rfl⟩

end RoadMap

/-! ## Counting ids -/

/-- do all ids of the map count as used? -/
def RoadMap.Counted (m : RoadMap) : Prop := ∀ x id, m.network.idOf? x = some id → id.toNat < m.ids.watermark

namespace IdAllocator

theorem watermark_observe (a : IdAllocator) (id : ElementId) :
    a.watermark ≤ (a.observe id).watermark ∧ id.toNat < (a.observe id).watermark := by
  simp only [observe]
  omega

theorem watermark_observeAll_le_iff (a : IdAllocator) (ids : List ElementId) (bound : Nat) :
    (a.observeAll ids).watermark ≤ bound ↔ a.watermark ≤ bound ∧ ∀ id ∈ ids, id.toNat < bound := by
  unfold observeAll
  induction ids generalizing a with
  | nil => simp
  | cons id ids ih =>
    rw [List.foldl_cons, ih, List.forall_mem_cons, ← and_assoc]
    refine and_congr_left fun _ => ?_
    simp only [observe]
    omega

theorem watermark_observeAll (a : IdAllocator) (ids : List ElementId) :
    a.watermark ≤ (a.observeAll ids).watermark ∧ ∀ id ∈ ids, id.toNat < (a.observeAll ids).watermark :=
  (a.watermark_observeAll_le_iff ids _).1 (Nat.le_refl _)

end IdAllocator

namespace RoadMap

theorem counted_add {m : RoadMap} (hm : m.Counted) (e : Element) : (m.add e).Counted := by
  intro x id hid
  obtain ⟨hle, hid'⟩ := m.ids.watermark_observe e.id
  rcases Network.idOf?_add hid with rfl | hid
  · exact hid'
  · exact Nat.lt_of_lt_of_le (hm x id hid) hle

/-- a document is read in by additions to an empty map -/
theorem ofDocument_induction {P : RoadMap → Prop} (hempty : P .empty) (hadd : ∀ m e, P m → P (m.add e))
    (d : Document) : P (ofDocument d) :=
  List.foldlRecOn d.elements add hempty fun m hm e _ => hadd m e hm

/-- in the network of a document all ids count as used -/
theorem counted_ofDocument (d : Document) : (ofDocument d).Counted := by
  refine ofDocument_induction (P := Counted) (fun x id hid => ?_) (fun m e hm => counted_add hm e) d
  obtain ⟨kind, k⟩ := x
  cases kind <;> cases hid

/-- after a merge all ids count as used -/
theorem counted_merge (m : RoadMap) (s : Scope) (c : Network) : (m.merge s c).Counted := fun x _ hid =>
  (IdAllocator.watermark_observeAll _ _).2 _ (Network.mem_allIds.2 ⟨x, hid⟩)

/-- a fresh id is borne by no element, and then counts as used -/
theorem freshId?_spec {m : RoadMap} (hm : m.Counted) {fresh : ElementId} {m' : RoadMap}
    (h : m.freshId? = some (fresh, m')) : m'.network = m.network ∧ m.ids.watermark ≤ m'.ids.watermark ∧
      fresh.toNat < m'.ids.watermark ∧ ∀ x, m.network.idOf? x ≠ some fresh := by
  obtain ⟨hnetwork, ⟨hid, hmark⟩ | ⟨hend, hids, hunused⟩⟩ := freshId?_cases h
  · refine ⟨hnetwork, by omega, by omega, fun x hx => ?_⟩
    have := hm x _ hx
    omega
  · have hlt : fresh.toNat < idLimit := fresh.toNat_lt_size
    refine ⟨hnetwork, by rw [hids], by rw [hids]; omega, fun x hx => ?_⟩
    have hresolves : m.network.resolves x.kind fresh = true := Network.resolves_iff.2 (Or.inr ⟨x.key, hx⟩)
    rw [Network.not_resolves_of_unused hunused] at hresolves
    cases hresolves

end RoadMap

end RoadRules
