/-
The blocks that a network is cut into.

- `exists_block`: every element is in a block.
- `blocks_disjoint`: a lanelet, a sign or a light is in one block only.
- `has_of_bearer`: a block holds all elements of a kind that share an id.
- `in_one_block_iff`: an element is in one block only just if all elements of its kind with its id belong to one place.
  An intersection may be in several ones, as blocks hold ids but intersections find their places one by one.
-/
import RoadRules.Network.Document
import RoadRules.Network.Partition
import RoadRules.Proofs.Network.Scoped

namespace RoadRules

/-! ## Groups of lanelets -/

namespace Partition

/-- what is taken out of the queue is free -/
theorem mem_of_dropWhile {free : IdSet} {queue rest : List ElementId} {id : ElementId}
    (h : (queue.dropWhile fun id => !free.contains id) = id :: rest) : id ∈ free := by
  have hhead := List.head?_dropWhile_not (fun id => !free.contains id) queue
  rw [h] at hhead
  exact SortedSet.contains_iff.1 (by simpa using hhead)

theorem dropWhile_of_mem {free : IdSet} {start : ElementId} (hs : start ∈ free) :
    ([start].dropWhile fun id => !free.contains id) = [start] := by
  rw [List.dropWhile_cons_of_neg (by simp [SortedSet.contains_iff.2 hs])]

/-- what a growing block takes from the ids that are free -/
structure Grown (free block : IdSet) (block' free' : IdSet) : Prop where
  all : ∀ id, id ∈ block' ∨ id ∈ free' ↔ id ∈ block ∨ id ∈ free
  apart : (∀ id ∈ block, id ∉ free) → ∀ id ∈ block', id ∉ free'
  keeps : ∀ id ∈ block, id ∈ block'

theorem grown_grow (neighbours : ElementId → List ElementId) (room : Nat) (queue : List ElementId)
    (free block : IdSet) : Grown free block (grow neighbours room queue free block).1
      (grow neighbours room queue free block).2 := by
  have stop : Grown free block block free := ⟨fun _ => Iff.rfl, id, fun _ => id⟩
  induction room generalizing queue free block with
  | zero => exact stop
  | succ room ih =>
    rw [grow]
    cases hqueue : queue.dropWhile fun id => !free.contains id with
    | nil => exact stop
    | cons start rest =>
      have hfree : start ∈ free := mem_of_dropWhile hqueue
      have hg := ih (rest ++ (neighbours start).filter (free.erase start).contains) (free.erase start)
        (block.insert start) ⟨fun _ => Iff.rfl, id, fun _ => id⟩
      refine ⟨fun id => ?_, fun h => ?_, fun id hid => ?_⟩
      · rw [hg.all, SortedSet.mem_insert, SortedSet.mem_erase]
        by_cases h : id = start
        · simp [h, hfree]
        · simp [h]
      · refine hg.apart fun id hid hmem => ?_
        obtain ⟨hmem, hne⟩ := SortedSet.mem_erase.1 hmem
        exact h id ((SortedSet.mem_insert.1 hid).resolve_left hne) hmem
      · exact hg.keeps id (SortedSet.mem_insert.2 (Or.inr hid))

/-- a block cut out of what is free, around the id that it starts from -/
structure CutOut (start : ElementId) (free block left : IdSet) : Prop where
  all : ∀ id, id ∈ block ∨ id ∈ left ↔ id ∈ free
  apart : ∀ id ∈ block, id ∉ left
  start : start ∈ block

theorem cutOut_grow (neighbours : ElementId → List ElementId) {room : Nat} (hroom : 0 < room) {start : ElementId}
    {free : IdSet} (hs : start ∈ free) : CutOut start free (grow neighbours room [start] free ∅).1
      (grow neighbours room [start] free ∅).2 := by
  have hg := grown_grow neighbours room [start] free ∅
  refine ⟨fun id => (hg.all id).trans (or_iff_right (SortedSet.not_mem_empty id)),
    hg.apart fun id h => absurd h (SortedSet.not_mem_empty id), ?_⟩
  obtain ⟨room, rfl⟩ := Nat.exists_eq_succ_of_ne_zero (Nat.ne_of_gt hroom)
  rw [grow, dropWhile_of_mem hs]
  exact (grown_grow neighbours room _ _ _).keeps start (SortedSet.mem_insert.2 (Or.inl rfl))

/-- what the first id to start from does: nothing if it is taken, and else it is left alone or grows a block -/
theorem split_cons (neighbours : ElementId → List ElementId) {size : Nat} (hsize : 0 < size) (start : ElementId)
    (rest : List ElementId) (free : IdSet) :
    (start ∉ free ∧ split neighbours size (start :: rest) free = split neighbours size rest free) ∨
    (start ∈ free ∧ neighbours start = [] ∧ split neighbours size (start :: rest) free =
      ((split neighbours size rest (free.erase start)).1, start :: (split neighbours size rest (free.erase start)).2)) ∨
    (start ∈ free ∧ neighbours start ≠ [] ∧ ∃ block left, grow neighbours size [start] free ∅ = (block, left) ∧
      CutOut start free block left ∧ split neighbours size (start :: rest) free =
        (block :: (split neighbours size rest left).1, (split neighbours size rest left).2)) := by
  by_cases hs : start ∈ free
  · have hfree : (!free.contains start) = false := by rw [SortedSet.contains_iff.2 hs]; rfl
    by_cases hlone : neighbours start = []
    · refine Or.inr (Or.inl ⟨hs, hlone, ?_⟩)
      simp [split, hfree, hlone]
    · refine Or.inr (Or.inr ⟨hs, hlone, _, _, rfl, cutOut_grow neighbours hsize hs, ?_⟩)
      simp [split, hfree, hlone]
  · have hfree : (!free.contains start) = true := by
      rw [Bool.not_eq_true', Bool.eq_false_iff]
      exact mt SortedSet.contains_iff.1 hs
    exact Or.inl ⟨hs, by rw [split, if_pos hfree]⟩

/-- groups that share no id, of ids that were free, with all those to start from -/
structure Covers (starts : List ElementId) (free : IdSet) (groups : List IdSet) (lone : List ElementId) : Prop where
  group : ∀ g ∈ groups, ∀ id ∈ g, id ∈ free
  rest : ∀ id ∈ lone, id ∈ free
  disjoint : groups.Pairwise fun g g' => ∀ id ∈ g, id ∉ g'
  apart : ∀ g ∈ groups, ∀ id ∈ g, id ∉ lone
  all : ∀ id ∈ starts, id ∈ free → (∃ g ∈ groups, id ∈ g) ∨ id ∈ lone

namespace Covers

variable {start : ElementId} {starts lone : List ElementId} {free block left : IdSet} {groups : List IdSet}

/-- an id that is taken need not be started from -/
theorem taken (h : Covers starts free groups lone) (hs : start ∉ free) : Covers (start :: starts) free groups lone where
  group := h.group
  rest := h.rest
  disjoint := h.disjoint
  apart := h.apart
  all id hid hf := h.all id ((List.mem_cons.1 hid).resolve_left fun heq => hs (heq ▸ hf)) hf

/-- one more id left alone -/
theorem alone (h : Covers starts (free.erase start) groups lone) (hs : start ∈ free) :
    Covers (start :: starts) free groups (start :: lone) where
  group g hg id hid := (SortedSet.mem_erase.1 (h.group g hg id hid)).1
  rest := List.forall_mem_cons.2 ⟨hs, fun id hid => (SortedSet.mem_erase.1 (h.rest id hid)).1⟩
  disjoint := h.disjoint
  apart g hg id hid hmem := by
    rcases List.mem_cons.1 hmem with rfl | hmem
    · exact (SortedSet.mem_erase.1 (h.group g hg id hid)).2 rfl
    · exact h.apart g hg id hid hmem
  all id hid hf := by
    by_cases heq : id = start
    · exact Or.inr (heq ▸ List.mem_cons_self)
    · have hid := (List.mem_cons.1 hid).resolve_left heq
      exact (h.all id hid (SortedSet.mem_erase.2 ⟨hf, heq⟩)).imp_right (List.mem_cons_of_mem _)

/-- one more group, cut out of what was free -/
theorem cut (h : Covers starts left groups lone) (hc : CutOut start free block left) :
    Covers (start :: starts) free (block :: groups) lone where
  group := List.forall_mem_cons.2
    ⟨fun id hid => (hc.all id).1 (Or.inl hid), fun g hg id hid => (hc.all id).1 (Or.inr (h.group g hg id hid))⟩
  rest id hid := (hc.all id).1 (Or.inr (h.rest id hid))
  disjoint := List.pairwise_cons.2 ⟨fun g hg id hid hmem => hc.apart id hid (h.group g hg id hmem), h.disjoint⟩
  apart := List.forall_mem_cons.2 ⟨fun id hid hmem => hc.apart id hid (h.rest id hmem), h.apart⟩
  all id hid hf := by
    rcases (hc.all id).2 hf with hb | hl
    · exact Or.inl ⟨block, List.mem_cons_self, hb⟩
    · have hid := (List.mem_cons.1 hid).resolve_left fun heq => hc.apart start hc.start (heq ▸ hl)
      exact (h.all id hid hl).imp_left fun ⟨g, hg, hm⟩ => ⟨g, List.mem_cons_of_mem _ hg, hm⟩

end Covers

theorem covers_split (neighbours : ElementId → List ElementId) {size : Nat} (hsize : 0 < size)
    (starts : List ElementId) (free : IdSet) :
    Covers starts free (split neighbours size starts free).1 (split neighbours size starts free).2 := by
  induction starts generalizing free with
  | nil => exact ⟨by simp [split], by simp [split], List.Pairwise.nil, by simp [split], by simp⟩
  | cons start rest ih =>
    rcases split_cons neighbours hsize start rest free with
      ⟨hs, heq⟩ | ⟨hs, -, heq⟩ | ⟨-, -, block, left, -, hc, heq⟩
    · rw [heq]
      exact (ih free).taken hs
    · rw [heq]
      exact (ih (free.erase start)).alone hs
    · rw [heq]
      exact (ih left).cut hc

end Partition

/-! ## Blocks -/

theorem Block.not_mem_of_isEmpty {b : Block} (h : b.isEmpty = true) (kind : Kind) (id : ElementId) :
    id ∉ b.ofKind kind := by
  intro hid
  have hsize : (b.ofKind kind).size = 0 := by
    simp only [isEmpty, size, Kind.values, List.foldl_cons, List.foldl_nil, beq_iff_eq] at h
    cases kind <;> omega
  have hmem : id ∈ (b.ofKind kind).toList := hid
  rw [List.length_eq_zero_iff.1 hsize] at hmem
  exact List.not_mem_nil hmem

theorem pairwise_zipIdx {α : Type} {R : α → α → Prop} {l : List α} (h : l.Pairwise R) (start : Nat) :
    (l.zipIdx start).Pairwise fun a b => a.2 < b.2 ∧ R a.1 b.1 := by
  induction l generalizing start with
  | nil => exact List.Pairwise.nil
  | cons a l ih =>
    obtain ⟨ha, hl⟩ := List.pairwise_cons.1 h
    rw [List.zipIdx_cons, List.pairwise_cons]
    refine ⟨fun b hb => ⟨?_, ha b.1 (List.fst_mem_of_mem_zipIdx hb)⟩, ih hl (start + 1)⟩
    exact List.le_snd_of_mem_zipIdx hb

namespace Network

variable {n : Network} {size : Nat}

theorem covers_groups (n : Network) (size : Nat) :
    Partition.Covers (n.ids .lanelet) (.ofList (n.ids .lanelet)) (n.groups size).1 (n.groups size).2 := by
  have h := Partition.covers_split n.linkedIds (Nat.lt_of_lt_of_le Nat.one_pos (Nat.le_max_right size 1))
    (SortedSet.ofList (n.ids .lanelet)).toList (.ofList (n.ids .lanelet))
  exact ⟨h.group, h.rest, h.disjoint, h.apart, fun id _ hf => h.all id hf hf⟩

/-- Do all elements of the kind with this id belong to one place? Lanelets, signs and lights find theirs by the id, but
an intersection by its incoming lanelets. -/
def Whole (n : Network) (groups : List IdSet) (kind : Kind) (id : ElementId) : Prop :=
  kind = .intersection → ∀ i ∈ n.intersections.values, ∀ j ∈ n.intersections.values, i.id = id → j.id = id →
    i.home? groups = j.home? groups

theorem whole_of_ne {groups : List IdSet} {kind : Kind} (h : kind ≠ .intersection) (id : ElementId) :
    n.Whole groups kind id := fun hk => absurd hk h

/-- a group, or the lone ids, with what belongs to another position -/
theorem blockAt_disjoint (groups : List IdSet) {g g' : IdSet} {home home' : Option Nat} (hne : home ≠ home')
    (hg : ∀ id ∈ g, id ∉ g') {kind : Kind} {id : ElementId} (hw : n.Whole groups kind id)
    (hid : id ∈ (n.blockAt groups g home).ofKind kind) : id ∉ (n.blockAt groups g' home').ofKind kind := by
  cases kind with
  | lanelet => exact hg id hid
  | intersection =>
    intro hid'
    simp only [Block.ofKind, blockAt, SortedSet.mem_ofList, List.mem_map, List.mem_filter, beq_iff_eq] at hid hid'
    obtain ⟨i, ⟨hi, hhome⟩, hiid⟩ := hid
    obtain ⟨j, ⟨hj, hhome'⟩, hjid⟩ := hid'
    exact hne (hhome.symm.trans ((hw rfl i hi j hj hiid hjid).trans hhome'))
  | trafficSign =>
    intro hid'
    simp only [Block.ofKind, blockAt, SortedSet.mem_ofList, List.mem_filter, beq_iff_eq] at hid hid'
    exact hne (hid.2.symm.trans hid'.2)
  | trafficLight =>
    intro hid'
    simp only [Block.ofKind, blockAt, SortedSet.mem_ofList, List.mem_filter, beq_iff_eq] at hid hid'
    exact hne (hid.2.symm.trans hid'.2)

/-- **Blocks are disjoint**, but for ids whose intersections belong to different places. -/
theorem parts_disjoint (n : Network) (size : Nat) : (n.partition size).parts.Pairwise fun b b' =>
    ∀ kind id, n.Whole (n.groups size).1 kind id → id ∈ b.ofKind kind → id ∉ b'.ofKind kind := by
  have hc := covers_groups n size
  unfold Partition.parts
  refine List.pairwise_append.2 ⟨?_, ?_, ?_⟩
  · refine List.pairwise_map.2 ((pairwise_zipIdx hc.disjoint 0).imp fun {a b} hab kind id hw => ?_)
    exact blockAt_disjoint _ (fun h => absurd (Option.some.inj h) (Nat.ne_of_lt hab.1)) hab.2 hw
  · split_ifs
    · exact List.Pairwise.nil
    · exact List.pairwise_singleton _ _
  · intro b hb b' hb' kind id hw
    obtain ⟨⟨g, i⟩, hg, rfl⟩ := List.mem_map.1 hb
    split_ifs at hb' with hempty
    · cases hb'
    · obtain rfl := List.mem_singleton.1 hb'
      refine blockAt_disjoint _ (by simp) (fun id hid hmem => ?_) hw
      exact hc.apart g (List.fst_mem_of_mem_zipIdx hg) id hid (SortedSet.mem_ofList.1 hmem)

/-- What belongs to the position of a group is in the block there, and what belongs to none is in the one behind all
these. -/
theorem exists_part (home : Option Nat) (hhome : ∀ i, home = some i → i < (n.groups size).1.length) :
    ∃ g, ∀ kind, ∀ id ∈ (n.blockAt (n.groups size).1 g home).ofKind kind,
      ∃ b, (n.partition size).parts[home.getD (n.groups size).1.length]? = some b ∧ id ∈ b.ofKind kind := by
  have hlength : (n.partition size).blocks.length = (n.groups size).1.length := by simp [partition]
  cases home with
  | some i =>
    have hi := hhome i rfl
    refine ⟨(n.groups size).1.get ⟨i, hi⟩, fun kind id hid => ⟨_, ?_, hid⟩⟩
    rw [Partition.parts, Option.getD_some, List.getElem?_append_left (hlength ▸ hi)]
    simp [partition, List.getElem?_eq_getElem hi]
  | none =>
    refine ⟨.ofList (n.groups size).2, fun kind id hid => ⟨_, ?_, hid⟩⟩
    rw [Partition.parts, Option.getD_none, ← hlength, List.getElem?_append_right (Nat.le_refl _), Nat.sub_self]
    split_ifs with hempty
    · exact absurd hid (Block.not_mem_of_isEmpty hempty kind id)
    · rfl

theorem home?_lt {groups : List IdSet} {i : Intersection} {k : Nat} (h : i.home? groups = some k) :
    k < groups.length := by
  obtain ⟨id, -, hid⟩ := List.exists_of_findSome?_eq_some h
  exact (List.findIdx?_eq_some_iff_findIdx_eq.1 hid).1

/-- the block at the place of an intersection has its id -/
theorem exists_part_of_intersection (size : Nat) {i : Intersection} (hi : i ∈ n.intersections.values) :
    ∃ b, (n.partition size).parts[(i.home? (n.groups size).1).getD (n.groups size).1.length]? = some b ∧
      i.id ∈ b.ofKind .intersection := by
  obtain ⟨g, hg⟩ := exists_part (i.home? (n.groups size).1) fun k => home?_lt
  refine hg .intersection i.id (SortedSet.mem_ofList.2 (List.mem_map.2 ⟨i, List.mem_filter.2 ⟨hi, ?_⟩, rfl⟩))
  exact beq_self_eq_true _

/-- **Blocks are everything.** The id of every element is in a block. -/
theorem exists_part_of_id (size : Nat) {x : Handle} {id : ElementId} (hx : n.idOf? x = some id) :
    ∃ b ∈ (n.partition size).parts, id ∈ b.ofKind x.kind := by
  have bound : ∀ {p : IdSet → Bool} {i : Nat}, (n.groups size).1.findIdx? p = some i → i < (n.groups size).1.length :=
    fun h => (List.findIdx?_eq_some_iff_findIdx_eq.1 h).1
  have hmem : id ∈ n.ids x.kind := mem_ids.2 ⟨x.key, hx⟩
  have ofPosition : ∀ {kind : Kind} {p : Nat}, (∃ b, (n.partition size).parts[p]? = some b ∧ id ∈ b.ofKind kind) →
      ∃ b ∈ (n.partition size).parts, id ∈ b.ofKind kind :=
    fun ⟨b, hb, hid⟩ => ⟨b, List.mem_of_getElem? hb, hid⟩
  obtain ⟨kind, k⟩ := x
  cases kind with
  | lanelet =>
    have hc := covers_groups n size
    rcases hc.all id hmem (SortedSet.mem_ofList.2 hmem) with ⟨g, hg, hid⟩ | hid
    · obtain ⟨i, hi⟩ := List.mem_iff_getElem?.1 hg
      refine ⟨n.blockAt (n.groups size).1 g (some i), List.mem_append_left _ ?_, hid⟩
      exact List.mem_map.2 ⟨(g, i), List.mem_zipIdx_iff_getElem?.2 hi, rfl⟩
    · have hcatch : id ∈ (n.blockAt (n.groups size).1 (.ofList (n.groups size).2) none).ofKind .lanelet :=
        SortedSet.mem_ofList.2 hid
      refine ⟨_, List.mem_append_right _ ?_, hcatch⟩
      split_ifs with hempty
      · exact absurd hcatch (Block.not_mem_of_isEmpty hempty _ id)
      · exact List.mem_singleton.2 rfl
  | trafficSign =>
    obtain ⟨g, hg⟩ := exists_part (n.signHome? (n.groups size).1 id) fun i h => bound h
    exact ofPosition (hg .trafficSign id <| SortedSet.mem_ofList.2 (List.mem_filter.2 ⟨hmem, beq_self_eq_true _⟩))
  | trafficLight =>
    obtain ⟨g, hg⟩ := exists_part (n.lightHome? (n.groups size).1 id) fun i h => bound h
    exact ofPosition (hg .trafficLight id <| SortedSet.mem_ofList.2 (List.mem_filter.2 ⟨hmem, beq_self_eq_true _⟩))
  | intersection =>
    obtain ⟨i, hi, rfl⟩ := Option.map_eq_some_iff.1 hx
    exact ofPosition (exists_part_of_intersection size (Store.mem_values.2 ⟨k, hi⟩))

/-! ## Scopes of blocks -/

/-- the elements of each block -/
def blockScopes (n : Network) (size : Nat) : List Scope := (n.partition size).parts.map n.blockScope

theorem has_blockScope {b : Block} {x : Handle} :
    (n.blockScope b).Has x ↔ ∃ id ∈ b.ofKind x.kind, n.idOf? x = some id := by
  obtain ⟨kind, k⟩ := x
  have keys : ∀ ids : IdSet, k ∈ (SortedSet.ofList (ids.toList.flatMap (n.keysWithId kind)) : SortedSet Nat) ↔
      ∃ id ∈ ids, n.idOf? ⟨kind, k⟩ = some id := fun ids => by
    simp [SortedSet.mem_ofList, mem_keysWithId, SortedSet.mem_toList]
  cases kind <;> exact keys _

theorem exists_block (size : Nat) {x : Handle} {id : ElementId} (hx : n.idOf? x = some id) :
    ∃ s ∈ n.blockScopes size, s.Has x := by
  obtain ⟨b, hb, hid⟩ := exists_part_of_id size hx
  exact ⟨_, List.mem_map.2 ⟨b, hb, rfl⟩, has_blockScope.2 ⟨id, hid, hx⟩⟩

theorem blocks_disjoint (n : Network) (size : Nat) : (n.blockScopes size).Pairwise fun s t =>
    ∀ x : Handle, x.kind ≠ .intersection → s.Has x → ¬ t.Has x := by
  refine List.pairwise_map.2 ((parts_disjoint n size).imp fun {b b'} h x hk hs ht => ?_)
  obtain ⟨id, hid, hx⟩ := has_blockScope.1 hs
  obtain ⟨id', hid', hx'⟩ := has_blockScope.1 ht
  cases hx.symm.trans hx'
  exact h x.kind id (whole_of_ne hk id) hid hid'

theorem has_of_bearer {s : Scope} (hs : s ∈ n.blockScopes size) {x y : Handle} (hk : y.kind = x.kind) (hx : s.Has x)
    {id : ElementId} (hid : n.idOf? x = some id) (hid' : n.idOf? y = some id) : s.Has y := by
  obtain ⟨b, -, rfl⟩ := List.mem_map.1 hs
  obtain ⟨i, hi, hxi⟩ := has_blockScope.1 hx
  cases hid.symm.trans hxi
  exact has_blockScope.2 ⟨id, hk ▸ hi, hid'⟩

/-! ## One block for each element -/

theorem countP_le_one_iff {α : Type} {p : α → Bool} {l : List α} :
    l.countP p ≤ 1 ↔ l.Pairwise fun a b => p a = true → ¬ p b = true := by
  induction l with
  | nil => simp
  | cons a l ih =>
    rw [List.pairwise_cons]
    by_cases ha : p a = true
    · rw [List.countP_cons_of_pos ha]
      constructor
      · intro h
        have hnone : ∀ b ∈ l, ¬ p b = true := List.countP_eq_zero.1 (Nat.le_zero.1 (Nat.le_of_succ_le_succ h))
        exact ⟨fun b hb _ => hnone b hb, List.pairwise_of_forall_mem_list fun b _ c hc _ => hnone c hc⟩
      · exact fun h => Nat.succ_le_succ (Nat.le_zero.2 (List.countP_eq_zero.2 fun b hb => h.1 b hb ha))
    · rw [List.countP_cons_of_neg ha, ih]
      exact (and_iff_right fun b _ h => absurd h ha).symm

theorem eq_of_countP_le_one {α : Type} {p : α → Bool} {l : List α} (h : l.countP p ≤ 1) {i j : Nat} {a b : α}
    (hi : l[i]? = some a) (ha : p a = true) (hj : l[j]? = some b) (hb : p b = true) : i = j := by
  have hpairs := List.pairwise_iff_getElem.1 (countP_le_one_iff.1 h)
  obtain ⟨hil, rfl⟩ := List.getElem?_eq_some_iff.1 hi
  obtain ⟨hjl, rfl⟩ := List.getElem?_eq_some_iff.1 hj
  rcases Nat.lt_trichotomy i j with hlt | heq | hlt
  · exact absurd hb (hpairs i j hil hjl hlt ha)
  · exact heq
  · exact absurd ha (hpairs j i hjl hil hlt hb)

theorem eq_of_getD_eq {a b : Option Nat} {l : Nat} (ha : ∀ k, a = some k → k < l) (hb : ∀ k, b = some k → k < l)
    (h : a.getD l = b.getD l) : a = b := by
  cases a with
  | none =>
    cases b with
    | none => rfl
    | some k => exact absurd h (Nat.ne_of_gt (hb k rfl))
  | some k =>
    cases b with
    | none => exact absurd h (Nat.ne_of_lt (ha k rfl))
    | some k' => exact congrArg some h

/-- an id that is in one block only belongs to one place, for the blocks at the places of its intersections have it -/
theorem whole_of_countP_le_one {x : Handle} {id : ElementId} (hx : n.idOf? x = some id)
    (h : (n.blockScopes size).countP (·.contains x) ≤ 1) : n.Whole (n.groups size).1 x.kind id := by
  have scopeAt : ∀ {p : Nat} {b : Block}, (n.partition size).parts[p]? = some b → id ∈ b.ofKind x.kind →
      ∃ s, (n.blockScopes size)[p]? = some s ∧ s.contains x = true := by
    intro p b hb hid
    refine ⟨n.blockScope b, ?_, Scope.contains_iff.2 (has_blockScope.2 ⟨id, hid, hx⟩)⟩
    rw [blockScopes, List.getElem?_map, hb, Option.map_some]
  intro hk i hi j hj hid hjd
  obtain ⟨b, hb, hib⟩ := exists_part_of_intersection size hi
  obtain ⟨c, hc, hjc⟩ := exists_part_of_intersection size hj
  obtain ⟨s, hs, hxs⟩ := scopeAt hb (hk ▸ hid ▸ hib)
  obtain ⟨t, ht, hxt⟩ := scopeAt hc (hk ▸ hjd ▸ hjc)
  exact eq_of_getD_eq (fun k => home?_lt) (fun k => home?_lt) (eq_of_countP_le_one h hs hxs ht hxt)

theorem countP_le_one_of_whole {x : Handle} {id : ElementId} (hx : n.idOf? x = some id)
    (hw : n.Whole (n.groups size).1 x.kind id) : (n.blockScopes size).countP (·.contains x) ≤ 1 := by
  refine countP_le_one_iff.2 (List.pairwise_map.2 ((parts_disjoint n size).imp fun {b c} h hb hc => ?_))
  obtain ⟨i, hi, hxi⟩ := has_blockScope.1 (Scope.contains_iff.1 hb)
  obtain ⟨j, hj, hxj⟩ := has_blockScope.1 (Scope.contains_iff.1 hc)
  cases hx.symm.trans hxi
  cases hx.symm.trans hxj
  exact h x.kind id hw hi hj

theorem countP_blockScopes_eq_zero {x : Handle} :
    (n.blockScopes size).countP (·.contains x) = 0 ↔ n.idOf? x = none := by
  rw [List.countP_eq_zero]
  constructor
  · intro h
    cases hx : n.idOf? x with
    | none => rfl
    | some id =>
      obtain ⟨s, hs, hxs⟩ := exists_block size hx
      exact absurd (Scope.contains_iff.2 hxs) (h s hs)
  · intro hx s hs hc
    obtain ⟨b, -, rfl⟩ := List.mem_map.1 hs
    obtain ⟨id, -, hid⟩ := has_blockScope.1 (Scope.contains_iff.1 hc)
    cases hx.symm.trans hid

/-- **Block scopes cut the network up**, but for intersections that share an id and belong to different places: every
element is in a scope, and in one only just if all elements of its kind with its id belong to one place. -/
theorem in_one_block_iff (n : Network) (size : Nat) (x : Handle) :
    ((n.blockScopes size).countP (·.contains x) = 0 ↔ n.idOf? x = none) ∧
      ((n.blockScopes size).countP (·.contains x) = 1 ↔
        ∃ id, n.idOf? x = some id ∧ n.Whole (n.groups size).1 x.kind id) := by
  refine ⟨countP_blockScopes_eq_zero, fun hone => ?_, ?_⟩
  · have hne : n.idOf? x ≠ none := fun h => by rw [countP_blockScopes_eq_zero.2 h] at hone; cases hone
    obtain ⟨id, hx⟩ := Option.ne_none_iff_exists'.1 hne
    exact ⟨id, hx, whole_of_countP_le_one hx (Nat.le_of_eq hone)⟩
  · rintro ⟨id, hx, hw⟩
    have hpos : (n.blockScopes size).countP (·.contains x) ≠ 0 := fun h => by
      rw [countP_blockScopes_eq_zero.1 h] at hx
      cases hx
    exact Nat.le_antisymm (countP_le_one_of_whole hx hw) (Nat.pos_of_ne_zero hpos)

/-- Two pairs of linked lanelets with an intersection each, and one id for both of these: each of the two blocks has
both intersections. -/
theorem in_two_blocks_shared_id : ∃ m, m = RoadMap.ofDocument
      { lanelets := [{ id := 1, successors := .ofList [2] }, { id := 2, predecessors := .ofList [1] },
          { id := 3, successors := .ofList [4] }, { id := 4, predecessors := .ofList [3] }]
        intersections := [{ id := 9, incomings := [{ lanelets := .ofList [1] }] },
          { id := 9, incomings := [{ lanelets := .ofList [3] }] }] } ∧
    m.network.idOf? ⟨.intersection, 4⟩ = some 9 ∧
    (m.network.blockScopes 2).countP (·.contains ⟨.intersection, 4⟩) = 2 ∧
    (m.network.blockScopes 2).map (·.handles) =
      [[⟨.lanelet, 0⟩, ⟨.lanelet, 1⟩, ⟨.intersection, 4⟩, ⟨.intersection, 5⟩],
        [⟨.lanelet, 2⟩, ⟨.lanelet, 3⟩, ⟨.intersection, 4⟩, ⟨.intersection, 5⟩]] :=
  ⟨_, rfl, by decide +kernel⟩

end Network

end RoadRules
