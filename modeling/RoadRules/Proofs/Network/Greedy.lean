/-
The blocks of a partition as a greedy decomposition of the graph of lanelets.

- `laneGraph`: the lanelet ids present, with an edge where a lanelet of the one id is linked to the other one.
- `Growth`: what holds of a block while it grows. `Growth.step`: one more id out of the queue keeps it.
  `Growth.done_grow`: so a block is connected when it is done, and is full or has no free neighbour.
- `Pieces`: what holds of the groups that ids are split into. `pieces_split`: it does, by induction on the ids to start
  from.
- `partition_greedy`: the lanelets of the blocks are groups of at most so many ids each, connected, by ascending least
  id, and one that is not full has no link to a later one. The catch-all has the ids without a link.

The queue is dropped when a block is full, and an id may be queued more than once. So nothing is said of the order
within a block: only that a queued id has a neighbour in the block, and that free neighbours of the block are queued.
-/
import Mathlib.Combinatorics.SimpleGraph.Connectivity.Subgraph
import RoadRules.Proofs.Network.Blocks

namespace RoadRules

theorem SortedSet.size_insert {α : Type} [LT α] [DecidableLT α] [StrictOrder α] {s : SortedSet α} {a : α}
    (h : ¬ a ∈ s) : (s.insert a).size = s.size + 1 := by
  have hinto : ∀ l : List α, ¬ a ∈ l → (insertInto a l).length = l.length + 1 := by
    intro l
    induction l with
    | nil => intro _; rfl
    | cons b rest ih =>
      intro hl
      obtain ⟨hab, hrest⟩ := not_or.1 (mt List.mem_cons.2 hl)
      unfold insertInto
      split_ifs with hlt hgt
      · rfl
      · exact congrArg (· + 1) (ih hrest)
      · exact absurd (StrictOrder.connected hlt hgt) hab
  exact hinto s.toList h

/-- the first value of a set of ids is its least one -/
theorem exists_isLeast {s : IdSet} (h : ∃ id, id ∈ s) : ∃ least, IsLeast {id | id ∈ s} least := by
  obtain ⟨id, hid⟩ := h
  obtain ⟨l, sorted⟩ := s
  cases l with
  | nil => exact absurd hid List.not_mem_nil
  | cons least rest =>
    refine ⟨least, List.mem_cons_self, fun other hother => ?_⟩
    rcases List.mem_cons.1 hother with rfl | hrest
    · exact UInt32.le_refl _
    · exact UInt32.le_of_lt ((List.pairwise_cons.1 sorted).1 other hrest)

/-- a neighbour of a connected set of vertices can join it -/
theorem connected_insert {graph : SimpleGraph ElementId} {s : IdSet} {a b : ElementId}
    (h : (graph.induce {id | id ∈ s}).Connected) (ha : a ∈ s) (hab : graph.Adj a b) :
    (graph.induce {id | id ∈ s.insert b}).Connected := by
  have hunion : {id | id ∈ s.insert b} = {id | id ∈ s} ∪ {a, b} := by
    ext id
    simp only [Set.mem_ofPred_eq, SortedSet.mem_insert, Set.mem_union, Set.mem_insert_iff, Set.mem_singleton_iff]
    constructor
    · rintro (rfl | hid)
      · exact Or.inr (Or.inr rfl)
      · exact Or.inl hid
    · rintro (hid | rfl | rfl)
      · exact Or.inr hid
      · exact Or.inr ha
      · exact Or.inl rfl
  rw [hunion]
  exact SimpleGraph.induce_union_connected h.preconnected
    (SimpleGraph.induce_pair_connected_of_adj hab).preconnected ⟨a, ha, Or.inl rfl⟩

namespace Partition

variable {graph : SimpleGraph ElementId} {neighbours : ElementId → List ElementId} {size : Nat}

/-! ## A growing block -/

/-- a block with room for more ids, and the ids queued for it -/
structure Growth (graph : SimpleGraph ElementId) (size room : Nat) (queue : List ElementId) (free block : IdSet) :
    Prop where
  room : block.size + room = size
  apart : ∀ id ∈ block, id ∉ free
  connected : (graph.induce {id | id ∈ block}).Connected
  linked : ∀ id ∈ block, ∃ other, graph.Adj id other
  behind : ∀ id ∈ queue, ∃ member ∈ block, graph.Adj member id
  queued : ∀ member ∈ block, ∀ id ∈ free, graph.Adj member id → id ∈ queue

/-- a free id that comes out of the queue joins the block, and its free neighbours queue up -/
theorem Growth.step {room : Nat} {taken queue : List ElementId} {id : ElementId} {free block : IdSet}
    (h : Growth graph size (room + 1) (taken ++ id :: queue) free block) (htaken : ∀ other ∈ taken, other ∉ free)
    (hid : id ∈ free) (hn : ∀ other, other ∈ neighbours id ↔ graph.Adj id other) :
    Growth graph size room (queue ++ (neighbours id).filter (free.erase id).contains) (free.erase id)
      (block.insert id) := by
  obtain ⟨member, hmember, hadj⟩ := h.behind id (List.mem_append_right _ List.mem_cons_self)
  have hfresh : id ∉ block := fun hb => h.apart id hb hid
  refine ⟨?_, ?_, connected_insert h.connected hmember hadj, ?_, ?_, ?_⟩
  · rw [SortedSet.size_insert hfresh, ← h.room]
    omega
  · intro other hother hfree
    obtain ⟨hfree, hne⟩ := SortedSet.mem_erase.1 hfree
    exact h.apart other ((SortedSet.mem_insert.1 hother).resolve_left hne) hfree
  · intro other hother
    rcases SortedSet.mem_insert.1 hother with rfl | hother
    · exact ⟨member, hadj.symm⟩
    · exact h.linked other hother
  · intro other hother
    rcases List.mem_append.1 hother with hqueue | hnew
    · obtain ⟨m, hm, hmo⟩ := h.behind other (List.mem_append_right _ (List.mem_cons_of_mem _ hqueue))
      exact ⟨m, SortedSet.mem_insert.2 (Or.inr hm), hmo⟩
    · exact ⟨id, SortedSet.mem_insert.2 (Or.inl rfl), (hn other).1 (List.mem_filter.1 hnew).1⟩
  · intro m hm other hother hmo
    rcases SortedSet.mem_insert.1 hm with rfl | hm
    · exact List.mem_append_right _ (List.mem_filter.2 ⟨(hn other).2 hmo, SortedSet.contains_iff.2 hother⟩)
    · -- a free neighbour of an older member was queued, and what was taken out of the queue is not free
      obtain ⟨hfree, hne⟩ := SortedSet.mem_erase.1 hother
      rcases List.mem_append.1 (h.queued m hm other hfree hmo) with hold | hrest
      · exact absurd hfree (htaken other hold)
      · exact List.mem_append_left _ ((List.mem_cons.1 hrest).resolve_left hne)

/-- a block that is done: connected, within its size, and without a free neighbour unless it is full -/
structure Done (graph : SimpleGraph ElementId) (size : Nat) (block free : IdSet) : Prop where
  bounded : block.size ≤ size
  connected : (graph.induce {id | id ∈ block}).Connected
  linked : ∀ id ∈ block, ∃ other, graph.Adj id other
  closed : block.size < size → ∀ member ∈ block, ∀ id ∈ free, ¬ graph.Adj member id

theorem Growth.done {room : Nat} {queue : List ElementId} {free block : IdSet}
    (h : Growth graph size room queue free block) (hend : room = 0 ∨ ∀ id ∈ queue, id ∉ free) :
    Done graph size block free := by
  refine ⟨by have := h.room; omega, h.connected, h.linked, fun hlt member hmember id hid hadj => ?_⟩
  rcases hend with hfull | hempty
  · exact absurd h.room (by omega)
  · exact hempty id (h.queued member hmember id hid hadj) hid

theorem Growth.done_grow {room : Nat} {queue : List ElementId} {free block : IdSet}
    (h : Growth graph size room queue free block)
    (hn : ∀ id ∈ free, ∀ other, other ∈ neighbours id ↔ graph.Adj id other) :
    Done graph size (grow neighbours room queue free block).1 (grow neighbours room queue free block).2 := by
  induction room generalizing queue free block with
  | zero => exact h.done (Or.inl rfl)
  | succ room ih =>
    rw [grow]
    have hsplit := List.takeWhile_append_dropWhile (p := fun id => !free.contains id) (l := queue)
    have htaken : ∀ id ∈ queue.takeWhile fun id => !free.contains id, id ∉ free := fun id hid hfree => by
      have hnot := List.all_eq_true.1 List.all_takeWhile id hid
      rw [SortedSet.contains_iff.2 hfree] at hnot
      cases hnot
    cases hqueue : queue.dropWhile fun id => !free.contains id with
    | nil =>
      rw [hqueue, List.append_nil] at hsplit
      exact h.done (Or.inr fun id hid => htaken id (hsplit.symm ▸ hid))
    | cons id rest =>
      have hid : id ∈ free := mem_of_dropWhile hqueue
      rw [← hsplit, hqueue] at h
      exact ih (h.step htaken hid (hn id hid)) fun other hother => hn other (SortedSet.mem_erase.1 hother).1

/-- the block that grows from a free id with a neighbour -/
theorem done_grow (hsize : 0 < size) {start : ElementId} {free : IdSet} (hs : start ∈ free)
    (hn : ∀ id ∈ free, ∀ other, other ∈ neighbours id ↔ graph.Adj id other) (hne : neighbours start ≠ []) :
    Done graph size (grow neighbours size [start] free ∅).1 (grow neighbours size [start] free ∅).2 := by
  obtain ⟨room, rfl⟩ := Nat.exists_eq_succ_of_ne_zero (Nat.ne_of_gt hsize)
  have hmem : ∀ id, id ∈ (∅ : IdSet).insert start ↔ id = start := fun id =>
    SortedSet.mem_insert.trans (or_iff_left (SortedSet.not_mem_empty id))
  rw [grow, dropWhile_of_mem hs]
  refine Growth.done_grow ⟨Nat.add_comm _ _, ?_, ?_, ?_, ?_, ?_⟩ fun id hid => hn id (SortedSet.mem_erase.1 hid).1
  · intro id hid hfree
    exact (SortedSet.mem_erase.1 hfree).2 ((hmem id).1 hid)
  · have hsingle : {id | id ∈ (∅ : IdSet).insert start} = {start} := Set.ext hmem
    rw [hsingle, SimpleGraph.induce_singleton_eq_top]
    exact SimpleGraph.connected_top
  · intro id hid
    obtain ⟨other, hother⟩ := List.exists_mem_of_ne_nil _ hne
    exact ⟨other, (hmem id).1 hid ▸ (hn start hs other).1 hother⟩
  · intro id hid
    exact ⟨start, (hmem start).2 rfl, (hn start hs id).1 (List.mem_filter.1 hid).1⟩
  · intro member hmember id hid hadj
    obtain rfl := (hmem member).1 hmember
    exact List.mem_filter.2 ⟨(hn _ hs id).2 hadj, SortedSet.contains_iff.2 hid⟩

/-! ## Groups grown one after the other -/

/-- groups of ids, each of which is done before the next one, and ids without a neighbour -/
structure Pieces (graph : SimpleGraph ElementId) (size : Nat) (groups : List IdSet) (lone : List ElementId) : Prop where
  bounded : ∀ g ∈ groups, g.size ≤ size
  connected : ∀ g ∈ groups, (graph.induce {id | id ∈ g}).Connected
  linked : ∀ g ∈ groups, ∀ id ∈ g, ∃ other, graph.Adj id other
  lone : ∀ id ∈ lone, ∀ other, ¬ graph.Adj id other
  ascending : groups.Pairwise fun g g' =>
    ∃ least least', IsLeast {id | id ∈ g} least ∧ IsLeast {id | id ∈ g'} least' ∧ least < least'
  closed : groups.Pairwise fun g g' => g.size < size → ∀ id ∈ g, ∀ other ∈ g', ¬ graph.Adj id other

namespace Pieces

variable {start : ElementId} {lone : List ElementId} {free block left : IdSet} {groups : List IdSet}

/-- one more id without a neighbour -/
theorem alone (h : Pieces graph size groups lone) (hs : ∀ other, ¬ graph.Adj start other) :
    Pieces graph size groups (start :: lone) where
  bounded := h.bounded
  connected := h.connected
  linked := h.linked
  lone := List.forall_mem_cons.2 ⟨hs, h.lone⟩
  ascending := h.ascending
  closed := h.closed

/-- one more group in front, if its least id is below what is left for the others -/
theorem cut (h : Pieces graph size groups lone) (hd : Done graph size block left)
    (hleft : ∀ g ∈ groups, ∀ id ∈ g, id ∈ left) (hleast : IsLeast {id | id ∈ block} start)
    (hbelow : ∀ id ∈ left, start < id) : Pieces graph size (block :: groups) lone where
  bounded := List.forall_mem_cons.2 ⟨hd.bounded, h.bounded⟩
  connected := List.forall_mem_cons.2 ⟨hd.connected, h.connected⟩
  linked := List.forall_mem_cons.2 ⟨hd.linked, h.linked⟩
  lone := h.lone
  ascending := by
    refine List.pairwise_cons.2 ⟨fun g hg => ?_, h.ascending⟩
    obtain ⟨⟨id, hid⟩⟩ := (h.connected g hg).nonempty
    obtain ⟨least, hmin⟩ := exists_isLeast ⟨id, hid⟩
    exact ⟨start, least, hleast, hmin, hbelow least (hleft g hg least hmin.1)⟩
  closed := List.pairwise_cons.2
    ⟨fun g hg hlt id hid other hother => hd.closed hlt id hid other (hleft g hg other hother), h.closed⟩

end Pieces

/-- The ids to start from ascend, and all that is free is still to come, so that a group starts from its least id. -/
theorem pieces_split (hsize : 0 < size) (starts : List ElementId) (hsorted : starts.Pairwise (· < ·)) (free : IdSet)
    (hstarts : ∀ id ∈ free, id ∈ starts)
    (hn : ∀ id ∈ free, ∀ other, other ∈ neighbours id ↔ graph.Adj id other) :
    Pieces graph size (split neighbours size starts free).1 (split neighbours size starts free).2 := by
  induction starts generalizing free with
  | nil => exact ⟨by simp [split], by simp [split], by simp [split], by simp [split], .nil, .nil⟩
  | cons start rest ih =>
    obtain ⟨hfirst, hrest⟩ := List.pairwise_cons.1 hsorted
    -- what is free but for the id started from is to come after it
    have later : ∀ {left : IdSet}, (∀ id ∈ left, id ∈ free) → start ∉ left → ∀ id ∈ left, id ∈ rest :=
      fun hsub hout id hid => (List.mem_cons.1 (hstarts id (hsub id hid))).resolve_left fun h => hout (h ▸ hid)
    rcases split_cons neighbours hsize start rest free with
      ⟨hs, heq⟩ | ⟨hs, hlone, heq⟩ | ⟨hs, hne, block, left, hgrow, hc, heq⟩
    · rw [heq]
      exact ih hrest free (later (fun _ => id) hs) hn
    · have hsub : ∀ id ∈ free.erase start, id ∈ free := fun id h => (SortedSet.mem_erase.1 h).1
      have hp := ih hrest (free.erase start) (later hsub fun h => (SortedSet.mem_erase.1 h).2 rfl)
        fun id hid => hn id (hsub id hid)
      rw [heq]
      refine hp.alone fun other hadj => ?_
      have hother := (hn start hs other).2 hadj
      rw [hlone] at hother
      exact List.not_mem_nil hother
    · have hd := done_grow hsize hs hn hne
      rw [hgrow] at hd
      have hsub : ∀ id ∈ left, id ∈ free := fun id hid => (hc.all id).1 (Or.inr hid)
      have hlater := later hsub (hc.apart start hc.start)
      have hp := ih hrest left hlater fun id hid => hn id (hsub id hid)
      rw [heq]
      refine hp.cut hd (covers_split neighbours hsize rest left).group ⟨hc.start, fun id hid => ?_⟩
        fun id hid => hfirst id (hlater id hid)
      rcases List.mem_cons.1 (hstarts id ((hc.all id).1 (Or.inl hid))) with rfl | hid
      · exact UInt32.le_refl _
      · exact UInt32.le_of_lt (hfirst id hid)

end Partition

namespace Network

/-! ## The graph of lanelets -/

/-- Is a lanelet with the one id linked to the other one, or does it lie beside it? -/
def LinksTo (n : Network) (id other : ElementId) : Prop :=
  ∃ l ∈ n.lanelets.values, l.id = id ∧ other ∈ l.linkedLanelets

/-- the lanelet ids that are present, two of which are neighbours if one links to the other -/
def laneGraph (n : Network) : SimpleGraph ElementId where
  Adj a b := a ≠ b ∧ a ∈ n.ids .lanelet ∧ b ∈ n.ids .lanelet ∧ (n.LinksTo a b ∨ n.LinksTo b a)
  symm := ⟨fun _ _ ⟨hne, ha, hb, h⟩ => ⟨hne.symm, hb, ha, h.symm⟩⟩
  loopless := ⟨fun _ h => h.1 rfl⟩

theorem mem_linkedIds {n : Network} {id other : ElementId} (hid : id ∈ n.ids .lanelet) :
    other ∈ n.linkedIds id ↔ n.laneGraph.Adj id other := by
  simp only [linkedIds, SortedSet.mem_toList, SortedSet.mem_erase, SortedSet.mem_inter, SortedSet.mem_ofList,
    List.mem_flatMap]
  constructor
  · rintro ⟨⟨hother, l, hl, hmem⟩, hne⟩
    refine ⟨Ne.symm hne, hid, hother, ?_⟩
    split_ifs at hmem with heq hlinks
    · exact Or.inl ⟨l, hl, heq, hmem⟩
    · exact Or.inr ⟨l, hl, (List.mem_singleton.1 hmem).symm, List.contains_iff_mem.1 hlinks⟩
    · exact absurd hmem List.not_mem_nil
  · rintro ⟨hne, -, hother, ⟨l, hl, rfl, hmem⟩ | ⟨l, hl, rfl, hmem⟩⟩
    · exact ⟨⟨hother, l, hl, by rwa [if_pos rfl]⟩, hne.symm⟩
    · refine ⟨⟨hother, l, hl, ?_⟩, hne.symm⟩
      rw [if_neg hne.symm, if_pos (List.contains_iff_mem.2 hmem)]
      exact List.mem_singleton.2 rfl

/-! ## The decomposition -/

/-- groups of lanelet ids that were grown greedily along the links, and the ids left alone -/
structure Greedy (n : Network) (size : Nat) (groups : List IdSet) (lone : IdSet) : Prop where
  disjoint : groups.Pairwise fun g g' => ∀ id ∈ g, id ∉ g'
  apart : ∀ g ∈ groups, ∀ id ∈ g, id ∉ lone
  cover : ∀ id, id ∈ n.ids .lanelet ↔ (∃ g ∈ groups, id ∈ g) ∨ id ∈ lone
  lone : ∀ id, id ∈ lone ↔ id ∈ n.ids .lanelet ∧ ∀ other, ¬ n.laneGraph.Adj id other
  nonempty : ∀ g ∈ groups, ∃ id, id ∈ g
  bounded : ∀ g ∈ groups, g.size ≤ size
  connected : ∀ g ∈ groups, (n.laneGraph.induce {id | id ∈ g}).Connected
  /-- the least ids of the groups ascend -/
  ascending : groups.Pairwise fun g g' =>
    ∃ least least', IsLeast {id | id ∈ g} least ∧ IsLeast {id | id ∈ g'} least' ∧ least < least'
  /-- no link leads from a group with room left to a later one -/
  closed : groups.Pairwise fun g g' => g.size < size → ∀ id ∈ g, ∀ other ∈ g', ¬ n.laneGraph.Adj id other

theorem pieces_groups (n : Network) (size : Nat) :
    Partition.Pieces n.laneGraph (max size 1) (n.groups size).1 (n.groups size).2 := by
  refine Partition.pieces_split (Nat.lt_of_lt_of_le Nat.one_pos (Nat.le_max_right size 1)) _
    (SortedSet.ofList (n.ids .lanelet)).sorted _ (fun _ => id) fun id hid _ => ?_
  exact mem_linkedIds (SortedSet.mem_ofList.1 hid)

theorem greedy_groups (n : Network) (size : Nat) :
    n.Greedy (max size 1) (n.groups size).1 (.ofList (n.groups size).2) := by
  have hc := covers_groups n size
  have hp := pieces_groups n size
  have hcover : ∀ id, id ∈ n.ids .lanelet ↔ (∃ g ∈ (n.groups size).1, id ∈ g) ∨ id ∈ (n.groups size).2 := by
    refine fun id => ⟨fun hid => hc.all id hid (SortedSet.mem_ofList.2 hid), ?_⟩
    rintro (⟨g, hg, hid⟩ | hid)
    · exact SortedSet.mem_ofList.1 (hc.group g hg id hid)
    · exact SortedSet.mem_ofList.1 (hc.rest id hid)
  refine ⟨hc.disjoint, ?_, ?_, ?_, ?_, hp.bounded, hp.connected, hp.ascending, hp.closed⟩
  · exact fun g hg id hid hmem => hc.apart g hg id hid (SortedSet.mem_ofList.1 hmem)
  · exact fun id => by rw [SortedSet.mem_ofList, hcover]
  · refine fun id => SortedSet.mem_ofList.trans ⟨fun hid => ⟨(hcover id).2 (Or.inr hid), hp.lone id hid⟩, ?_⟩
    rintro ⟨hid, hnone⟩
    refine ((hcover id).1 hid).resolve_left fun ⟨g, hg, hmem⟩ => ?_
    obtain ⟨other, hadj⟩ := hp.linked g hg id hmem
    exact hnone other hadj
  · intro g hg
    obtain ⟨⟨id, hid⟩⟩ := (hp.connected g hg).nonempty
    exact ⟨id, hid⟩

theorem lanelets_blocks (n : Network) (size : Nat) :
    (n.partition size).blocks.map (·.lanelets) = (n.groups size).1 := by
  rw [partition, List.map_map]
  exact List.zipIdx_map_fst 0 _

/-- **Blocks are a greedy connected decomposition.** The lanelet ids of the blocks and of the catch-all are apart from
each other and are all that there are; the catch-all has those without a link to another one present; a block has at
least one id and at most as many as asked for (and if none is asked for, one), and is connected; the least ids of the
blocks ascend; and no link leads from a block with room left to a later one. -/
theorem partition_greedy (n : Network) (size : Nat) :
    n.Greedy (max size 1) ((n.partition size).blocks.map (·.lanelets)) (n.partition size).catchAll.lanelets := by
  rw [lanelets_blocks]
  exact greedy_groups n size

end Network

end RoadRules
