/-
Edited copies of separate parts, written back in any order.

All copies of a network start with the same next key, so elements that different copies have gained bear equal keys.
A merge gives them keys of their own, and later merges leave these alone, since their scopes have elements of the
network only.

- `Fits`: scopes of the network's elements, none in two of them. What is left to be merged still fits after each merge
  (`Fits.tail`), and in any order (`Fits.perm`).
- `element?_mergeAll_outside_scopes`, `element?_mergeAll_in_scope`, `element?_mergeAll_new`: what the network has in the
  end, outside the scopes, in a scope, and under new keys. The last are the arrivals of all copies, in the order of the
  merges.
- `exists_renaming`: the arrivals of another order are the same under other keys.
- `merge_back`: all of it together, for every order.
-/
import RoadRules.Proofs.Network.Operations
import RoadRules.Proofs.Run.Pieces

namespace RoadRules

theorem Scope.isDisjoint_iff {s t : Scope} : s.isDisjoint t = true ↔ ∀ h, s.Has h → ¬ t.Has h := by
  simp only [isDisjoint, List.all_eq_true, SortedSet.isDisjoint_iff]
  constructor
  · exact fun h x hs => h x.kind (Network.mem_kinds _) x.key hs
  · exact fun h kind _ k hs => h ⟨kind, k⟩ hs

/-- where all items have an image, the images stand at the same places -/
theorem getElem?_filterMap_of_isSome {α β : Type} {f : α → Option β} {l : List α} (h : ∀ a ∈ l, (f a).isSome = true)
    (i : Nat) : (l.filterMap f)[i]? = (l[i]?).bind f := by
  induction l generalizing i with
  | nil => simp
  | cons a l ih =>
    obtain ⟨b, hb⟩ := Option.isSome_iff_exists.1 (h a List.mem_cons_self)
    rw [List.filterMap_cons_some hb]
    cases i with
    | zero => simp [hb]
    | succ i => simpa using ih (fun a ha => h a (List.mem_cons_of_mem _ ha)) i

theorem ncard_of_nodup {α : Type} [DecidableEq α] {l : List α} (hl : l.Nodup) {s : Set α} (h : ∀ a, a ∈ s ↔ a ∈ l) :
    s.ncard = l.length := by
  have hs : s = (l.toFinset : Set α) := Set.ext fun a => by simp [h]
  rw [hs, Set.ncard_coe_finset, List.toFinset_card_of_nodup hl]

namespace Network

variable {n c : Network} {s : Scope} {pieces : Pieces}

/-! ## Arrivals -/

/-- the elements that a merge puts in, in the order of their keys -/
def arrivals (q : Scope × Network) : List Element := (newcomers q.1 q.2).filterMap q.2.element?

theorem isSome_of_newcomer {q : Scope × Network} : ∀ h ∈ newcomers q.1 q.2, (q.2.element? h).isSome = true :=
  fun _ hh => Option.isSome_iff_exists.2 (exists_of_mem_allHandles (mem_newcomers.1 hh).1)

theorem getElem?_arrivals (q : Scope × Network) (i : Nat) :
    (arrivals q)[i]? = ((newcomers q.1 q.2)[i]?).bind q.2.element? := getElem?_filterMap_of_isSome isSome_of_newcomer i

theorem length_arrivals (q : Scope × Network) : (arrivals q).length = (newcomers q.1 q.2).length := by
  rw [arrivals, List.length_filterMap_eq_countP, List.countP_eq_length]
  exact isSome_of_newcomer

theorem element?_merge_arrivals (hn : n.Keyed) (q : Scope × Network) {h : Handle} (hk : n.nextKey ≤ h.key) :
    (n.merge q.1 q.2).element? h = ((arrivals q)[h.key - n.nextKey]?).filter (·.kind == h.kind) := by
  rw [element?_merge_new hn.below hk, getElem?_arrivals]
  cases hx : (newcomers q.1 q.2)[h.key - n.nextKey]? with
  | none => rfl
  | some x =>
    obtain ⟨e, he⟩ := Option.isSome_iff_exists.1 (isSome_of_newcomer x (List.mem_of_getElem? hx))
    simp only [Option.bind_some, he, Option.filter_some, kind_of_element? he]
    split_ifs
    · exact he
    · rfl

/-! ## Pieces that fit -/

/-- scopes of elements that a network has, none in two of them -/
structure Fits (n : Network) (pieces : Pieces) : Prop where
  keyed : n.Keyed
  present : ∀ q ∈ pieces, ∀ h, q.1.Has h → h ∈ n.allHandles
  disjoint : pieces.Pairwise fun p q => ∀ h, p.1.Has h → ¬ q.1.Has h

namespace Fits

theorem tail {q : Scope × Network} (h : Fits n (q :: pieces)) : Fits (n.merge q.1 q.2) pieces where
  keyed := (evolves_merge h.keyed q.1 q.2).keyed h.keyed
  present p hp x hx := by
    obtain ⟨first, -⟩ := List.pairwise_cons.1 h.disjoint
    have hmem := h.present p (List.mem_cons_of_mem _ hp) x hx
    obtain ⟨e, he⟩ := exists_of_mem_allHandles hmem
    refine mem_allHandles_of (e := e) ?_
    rw [element?_merge_old (h.keyed.below x hmem), if_neg fun hq => first p hp x hq hx, he]
  disjoint := (List.pairwise_cons.1 h.disjoint).2

theorem perm {order : Pieces} (h : Fits n pieces) (hp : pieces.Perm order) : Fits n order where
  keyed := h.keyed
  present q hq := h.present q (hp.mem_iff.2 hq)
  disjoint := (hp.pairwise_iff fun hpq x hq hp => hpq x hp hq).1 h.disjoint

theorem key_lt (h : Fits n pieces) {q : Scope × Network} (hq : q ∈ pieces) {x : Handle} (hx : q.1.Has x) :
    x.key < n.nextKey := h.keyed.below x (h.present q hq x hx)

/-- the pieces behind some have what they are about in the network that these have been written back to -/
theorem append {before after : Pieces} (h : Fits n (before ++ after)) : Fits (n.mergeAll before) after := by
  induction before generalizing n with
  | nil => exact h
  | cons q before ih => exact ih h.tail

end Fits

/-! ## What there is in the end -/

theorem nextKey_mergeAll (n : Network) (pieces : Pieces) :
    (n.mergeAll pieces).nextKey = n.nextKey + (pieces.flatMap arrivals).length := by
  induction pieces generalizing n with
  | nil => rfl
  | cons q pieces ih =>
    rw [List.flatMap_cons, List.length_append, length_arrivals, ← Nat.add_assoc, ← nextKey_merge]
    exact ih (n.merge q.1 q.2)

theorem keyed_mergeAll (h : Fits n pieces) : (n.mergeAll pieces).Keyed := by
  induction pieces generalizing n with
  | nil => exact h.keyed
  | cons q pieces ih => exact ih h.tail

/-- **Outside all scopes** elements stay as they are. -/
theorem element?_mergeAll_outside_scopes {x : Handle} (hk : x.key < n.nextKey) (hx : ∀ q ∈ pieces, ¬ q.1.Has x) :
    (n.mergeAll pieces).element? x = n.element? x := by
  induction pieces generalizing n with
  | nil => rfl
  | cons q pieces ih =>
    have hk' : x.key < (n.merge q.1 q.2).nextKey := by rw [nextKey_merge]; omega
    refine (ih hk' fun p hp => hx p (List.mem_cons_of_mem _ hp)).trans ?_
    rw [element?_merge_old hk, if_neg (hx q List.mem_cons_self)]

/-- **In a scope** there is what its copy has. -/
theorem element?_mergeAll_in_scope (h : Fits n pieces) {q : Scope × Network} (hq : q ∈ pieces) {x : Handle}
    (hx : q.1.Has x) : (n.mergeAll pieces).element? x = q.2.element? x := by
  induction pieces generalizing n with
  | nil => cases hq
  | cons p pieces ih =>
    rcases List.mem_cons.1 hq with rfl | hq
    · obtain ⟨first, -⟩ := List.pairwise_cons.1 h.disjoint
      have hk := h.key_lt List.mem_cons_self hx
      have hk' : x.key < (n.merge q.1 q.2).nextKey := by rw [nextKey_merge]; omega
      obtain ⟨e, he⟩ := exists_of_mem_allHandles (h.present q List.mem_cons_self x hx)
      refine (element?_mergeAll_outside_scopes hk' fun p hp => first p hp x hx).trans ?_
      rw [element?_merge_old hk, if_pos hx, he, Option.bind_some]
    · exact ih h.tail hq

/-- **Under new keys** there are the arrivals of all copies, in the order of the merges. -/
theorem element?_mergeAll_new (h : Fits n pieces) {x : Handle} (hk : n.nextKey ≤ x.key) :
    (n.mergeAll pieces).element? x =
      ((pieces.flatMap arrivals)[x.key - n.nextKey]?).filter (·.kind == x.kind) := by
  induction pieces generalizing n with
  | nil =>
    refine (Option.eq_none_iff_forall_ne_some.2 fun e he => ?_).trans (by simp)
    exact absurd (h.keyed.below x (mem_allHandles_of he)) (Nat.not_lt.2 hk)
  | cons q pieces ih =>
    have hlength : (n.merge q.1 q.2).nextKey = n.nextKey + (arrivals q).length := by
      rw [nextKey_merge, length_arrivals]
    rw [List.flatMap_cons]
    by_cases hlt : x.key < (n.merge q.1 q.2).nextKey
    · -- it came with the first copy, and the others leave it alone
      refine (element?_mergeAll_outside_scopes hlt fun p hp hx => ?_).trans ?_
      · exact absurd (h.key_lt (List.mem_cons_of_mem _ hp) hx) (Nat.not_lt.2 hk)
      · rw [element?_merge_arrivals h.keyed q hk, List.getElem?_append_left (by omega)]
    · rw [List.getElem?_append_right (by omega), ← Nat.sub_add_eq, ← hlength]
      exact ih h.tail (Nat.not_lt.1 hlt)

/-! ## Where created elements come to -/

/-- what the copies have created: the position of a copy, and the handle that the element has there -/
def Created (n : Network) (pieces : Pieces) : Set (ℕ × Handle) :=
  {c | ∃ q, pieces[c.1]? = some q ∧ c.2 ∈ q.2.allHandles ∧ c.2 ∉ (n.extract q.1).allHandles}

/-- the same in the order of the merges -/
def createdList (pieces : Pieces) : List (ℕ × Handle) :=
  pieces.zipIdx.flatMap fun (q, i) => (newcomers q.1 q.2).map fun h => (i, h)

/-- the element of a copy, by the position of the copy -/
def elementIn? (pieces : Pieces) (c : ℕ × Handle) : Option Element := (pieces[c.1]?).bind (·.2.element? c.2)

theorem mem_createdList {c : ℕ × Handle} :
    c ∈ createdList pieces ↔ ∃ q, pieces[c.1]? = some q ∧ c.2 ∈ newcomers q.1 q.2 := by
  obtain ⟨i, h⟩ := c
  simp only [createdList, List.mem_flatMap, List.mem_map, Prod.exists, List.mem_zipIdx_iff_getElem?, Prod.mk.injEq]
  constructor
  · rintro ⟨s, c, i, hq, h, hh, rfl, rfl⟩; exact ⟨s, c, hq, hh⟩
  · rintro ⟨s, c, hq, hh⟩; exact ⟨s, c, i, hq, h, hh, rfl, rfl⟩

theorem mem_allHandles_extract (hs : ∀ h, s.Has h → h ∈ n.allHandles) {h : Handle} :
    h ∈ (n.extract s).allHandles ↔ s.Has h := by
  constructor
  · intro hh
    obtain ⟨e, he⟩ := exists_of_mem_allHandles hh
    exact (element?_of_extract he).1
  · intro hh
    obtain ⟨e, he⟩ := exists_of_mem_allHandles (hs h hh)
    exact mem_allHandles_of ((element?_extract_of_has hh).trans he)

theorem Fits.mem_created (h : Fits n pieces) (c : ℕ × Handle) : c ∈ Created n pieces ↔ c ∈ createdList pieces := by
  rw [mem_createdList]
  refine exists_congr fun q => and_congr_right fun hq => ?_
  rw [mem_newcomers, mem_allHandles_extract (h.present q (List.mem_of_getElem? hq))]

theorem nodup_newcomers (s : Scope) (c : Network) : (newcomers s c).Nodup := by
  rw [newcomers_eq]
  exact (NetworkIndex.nodup_allHandles c).filter _

theorem nodup_createdList (pieces : Pieces) : (createdList pieces).Nodup := by
  refine List.nodup_flatMap.2 ⟨fun e _ => (nodup_newcomers _ _).map fun a b hab => (Prod.mk.inj hab).2, ?_⟩
  have positions : (pieces.zipIdx.map Prod.snd).Nodup := by
    rw [List.zipIdx_map_snd]
    exact List.nodup_range'
  refine (List.pairwise_map.1 positions).imp fun {a b} hab => ?_
  rw [Function.onFun, List.disjoint_left]
  intro c ha hb
  obtain ⟨g, -, rfl⟩ := List.mem_map.1 ha
  obtain ⟨h, -, heq⟩ := List.mem_map.1 hb
  exact hab (Prod.mk.inj heq).1.symm

theorem isSome_of_created : ∀ c ∈ createdList pieces, (elementIn? pieces c).isSome = true := fun c hc => by
  obtain ⟨q, hq, hh⟩ := mem_createdList.1 hc
  rw [elementIn?, hq]
  exact isSome_of_newcomer c.2 hh

theorem arrivals_eq (pieces : Pieces) :
    pieces.flatMap arrivals = (createdList pieces).filterMap (elementIn? pieces) := by
  have hfirst : pieces.flatMap arrivals = pieces.zipIdx.flatMap fun e => arrivals e.1 := by
    conv_lhs => rw [← List.zipIdx_map_fst 0 pieces, List.flatMap_map]
  rw [hfirst, createdList, List.filterMap_flatMap]
  refine List.flatMap_congr fun e he => ?_
  have hat : pieces[e.2]? = some e.1 := List.mem_zipIdx_iff_getElem?.1 he
  rw [arrivals, List.filterMap_map]
  refine List.filterMap_congr fun h _ => ?_
  simp [elementIn?, hat]

theorem getElem?_arrivals_of_created (pieces : Pieces) (i : Nat) :
    (pieces.flatMap arrivals)[i]? = ((createdList pieces)[i]?).bind (elementIn? pieces) := by
  rw [arrivals_eq]
  exact getElem?_filterMap_of_isSome isSome_of_created i

/-- the handle that a created element gets -/
def place (n : Network) (pieces : Pieces) (c : ℕ × Handle) : Handle :=
  ⟨c.2.kind, n.nextKey + (createdList pieces).idxOf c⟩

theorem kind_of_elementIn? {c : ℕ × Handle} {e : Element} (he : elementIn? pieces c = some e) : e.kind = c.2.kind := by
  obtain ⟨q, -, hqe⟩ := Option.bind_eq_some_iff.1 he
  exact kind_of_element? hqe

/-- at its place a created element is what it is in its copy -/
theorem element?_place (h : Fits n pieces) {c : ℕ × Handle} (hc : c ∈ createdList pieces) :
    (n.mergeAll pieces).element? (n.place pieces c) = elementIn? pieces c := by
  obtain ⟨e, he⟩ := Option.isSome_iff_exists.1 (isSome_of_created c hc)
  rw [element?_mergeAll_new h (Nat.le_add_right _ _), place, Nat.add_sub_cancel_left, getElem?_arrivals_of_created,
    List.getElem?_idxOf hc, Option.bind_some, he]
  simp [kind_of_elementIn? he]

/-- an element that was not there before has a new key -/
theorem key_of_new (h : Fits n pieces) {x : Handle} (hx : x ∈ (n.mergeAll pieces).allHandles)
    (hnew : x ∉ n.allHandles) : n.nextKey ≤ x.key := by
  by_contra hk
  have hk := Nat.not_le.1 hk
  by_cases hin : ∃ q ∈ pieces, q.1.Has x
  · obtain ⟨q, hq, hxq⟩ := hin
    exact hnew (h.present q hq x hxq)
  · obtain ⟨e, he⟩ := exists_of_mem_allHandles hx
    rw [element?_mergeAll_outside_scopes hk fun q hq hxq => hin ⟨q, hq, hxq⟩] at he
    exact hnew (mem_allHandles_of he)

/-- **Created elements come to one place each,** and there is nothing else that was not there before. -/
theorem bijOn_place (h : Fits n pieces) : Set.BijOn (n.place pieces) (Created n pieces)
    {x | x ∈ (n.mergeAll pieces).allHandles ∧ x ∉ n.allHandles} := by
  refine ⟨fun c hc => ?maps, fun a ha b hb hab => ?inj, fun x hx => ?surj⟩
  case maps =>
    have hc := (h.mem_created c).1 hc
    obtain ⟨e, he⟩ := Option.isSome_iff_exists.1 (isSome_of_created c hc)
    refine ⟨mem_allHandles_of ((element?_place h hc).trans he), fun hold => ?_⟩
    exact absurd (h.keyed.below _ hold) (Nat.not_lt.2 (Nat.le_add_right _ _))
  case inj =>
    have hidx : (createdList pieces).idxOf a = (createdList pieces).idxOf b :=
      Nat.add_left_cancel (congrArg Handle.key hab)
    have hat := List.getElem?_idxOf ((h.mem_created a).1 ha)
    rw [hidx, List.getElem?_idxOf ((h.mem_created b).1 hb)] at hat
    exact (Option.some.inj hat).symm
  case surj =>
    obtain ⟨hx, hnew⟩ := hx
    have hk := key_of_new h hx hnew
    obtain ⟨e, he⟩ := exists_of_mem_allHandles hx
    rw [element?_mergeAll_new h hk, getElem?_arrivals_of_created] at he
    obtain ⟨hat, hkind⟩ := Option.filter_eq_some_iff.1 he
    obtain ⟨c, hc, hce⟩ := Option.bind_eq_some_iff.1 hat
    obtain ⟨hlt, hget⟩ := List.getElem?_eq_some_iff.1 hc
    refine ⟨c, (h.mem_created c).2 (List.mem_of_getElem? hc), ?_⟩
    have hidx : (createdList pieces).idxOf c = x.key - n.nextKey := by
      rw [← hget]
      exact (nodup_createdList pieces).idxOf_getElem _ hlt
    obtain ⟨kind, k⟩ := x
    have hk' : c.2.kind = kind := (kind_of_elementIn? hce).symm.trans (beq_iff_eq.1 hkind)
    simp only [place, hidx, hk', Handle.mk.injEq, true_and]
    simp only at hk
    omega

/-! ## Counts -/

/-- counts of the elements of one kind: in the scope and in the copy, in the scope only, and in the copy only -/
def summaryOf (n : Network) (s : Scope) (c : Network) (kind : Kind) : MergeSummary where
  replaced := ((n.handles kind).filter fun h => s.contains h && c.contains h).length
  removed := ((n.handles kind).filter fun h => s.contains h && !c.contains h).length
  inserted := (newcomersOf s c kind).length

theorem mergeSummary_of_kind {α : Type} (kind : Kind) {store other : Store α} (idOf : α → ElementId)
    (hkeys : n.keys kind = store.keys) (hother : c.keys kind = other.keys)
    (hids : ∀ k, c.idOf? ⟨kind, k⟩ = (other.get? k).map idOf) :
    store.mergeSummary (s.ofKind kind) other = n.summaryOf s c kind := by
  have held : ∀ k, c.contains ⟨kind, k⟩ = other.contains k := fun k => by
    rw [Network.contains, hids, Option.isSome_map]
    rfl
  have count : ∀ p : Bool → Bool,
      ((store.keys.filter fun k => (s.ofKind kind).contains k).filter fun k => p (other.contains k)).length =
        ((n.handles kind).filter fun h => s.contains h && p (c.contains h)).length := fun p => by
    rw [handles, hkeys, List.filter_map, List.length_map, List.filter_filter]
    refine congrArg List.length (List.filter_congr fun k _ => ?_)
    simp only [Function.comp_apply, held, Bool.and_comm]
    rfl
  have hnew : (newcomersOf s c kind).length = (other.outside (s.ofKind kind)).length := by
    rw [Store.length_outside, newcomersOf, List.length_map, hother]
    rfl
  rw [summaryOf, hnew, ← count (! ·)]
  exact congrArg (MergeSummary.mk · _ _) (count id)

theorem mergeSummary_eq (n : Network) (s : Scope) (c : Network) : n.mergeSummary s c =
    ⟨(n.allHandles.filter fun h => s.contains h && c.contains h).length,
      (n.allHandles.filter fun h => s.contains h && !c.contains h).length, (newcomers s c).length⟩ := by
  have lanelets : n.lanelets.mergeSummary s.lanelets c.lanelets = n.summaryOf s c .lanelet :=
    mergeSummary_of_kind .lanelet Lanelet.id rfl rfl fun _ => rfl
  have trafficSigns : n.trafficSigns.mergeSummary s.trafficSigns c.trafficSigns = n.summaryOf s c .trafficSign :=
    mergeSummary_of_kind .trafficSign TrafficSign.id rfl rfl fun _ => rfl
  have trafficLights : n.trafficLights.mergeSummary s.trafficLights c.trafficLights = n.summaryOf s c .trafficLight :=
    mergeSummary_of_kind .trafficLight TrafficLight.id rfl rfl fun _ => rfl
  have intersections : n.intersections.mergeSummary s.intersections c.intersections = n.summaryOf s c .intersection :=
    mergeSummary_of_kind .intersection Intersection.id rfl rfl fun _ => rfl
  simp only [mergeSummary, lanelets, trafficSigns, trafficLights, intersections, allHandles, newcomers, Kind.values,
    List.flatMap_cons, List.flatMap_nil, List.append_nil, List.filter_append, List.length_append, ← Nat.add_assoc]
  rfl

/-- **Counts.** A merge counts the elements of the scope that the copy has, those that it lacks, and its newcomers. -/
theorem mergeSummary_of_present (hs : ∀ h, s.Has h → h ∈ n.allHandles) : n.mergeSummary s c =
    ⟨{h | s.Has h ∧ h ∈ c.allHandles}.ncard, {h | s.Has h ∧ h ∉ c.allHandles}.ncard,
      {h | h ∈ c.allHandles ∧ ¬ s.Has h}.ncard⟩ := by
  have held : ∀ h, c.contains h = true ↔ h ∈ c.allHandles := fun h =>
    Option.isSome_iff_exists.trans mem_allHandles.symm
  have hnodup := NetworkIndex.nodup_allHandles n
  rw [mergeSummary_eq, ncard_of_nodup (hnodup.filter fun h => s.contains h && c.contains h),
    ncard_of_nodup (hnodup.filter fun h => s.contains h && !c.contains h), ncard_of_nodup (nodup_newcomers s c)]
  · exact fun h => mem_newcomers.symm
  · intro h
    change s.Has h ∧ h ∉ c.allHandles ↔ _
    rw [List.mem_filter, Bool.and_eq_true, Scope.contains_iff, Bool.not_eq_true', ← held, Bool.not_eq_true]
    exact ⟨fun hh => ⟨hs h hh.1, hh⟩, fun hh => hh.2⟩
  · intro h
    change s.Has h ∧ h ∈ c.allHandles ↔ _
    rw [List.mem_filter, Bool.and_eq_true, Scope.contains_iff, held]
    exact ⟨fun hh => ⟨hs h hh.1, hh⟩, fun hh => hh.2⟩

/-! ## Other orders -/

/-- lists with the same items hold them at places that correspond, here counted from `start` on -/
theorem exists_renaming {α : Type} {l l' : List α} (hp : l.Perm l') (start : ℕ) : ∃ ρ : Equiv.Perm ℕ,
    (∀ k < start, ρ k = k) ∧ ∀ k, start ≤ k → start ≤ ρ k ∧ l'[ρ k - start]? = l[k - start]? := by
  induction hp generalizing start with
  | nil => exact ⟨1, fun _ _ => rfl, fun k hk => ⟨hk, rfl⟩⟩
  | @cons a l l' _ ih =>
    obtain ⟨ρ, hfix, hmove⟩ := ih (start + 1)
    refine ⟨ρ, fun k hk => hfix k (Nat.lt_succ_of_lt hk), fun k hk => ?_⟩
    rcases Nat.eq_or_lt_of_le hk with rfl | hlt
    · rw [hfix start (Nat.lt_succ_self _), Nat.sub_self]
      exact ⟨Nat.le_refl _, rfl⟩
    · obtain ⟨hge, hat⟩ := hmove k hlt
      have hk' : k - start = (k - (start + 1)) + 1 := by omega
      have hρ : ρ k - start = (ρ k - (start + 1)) + 1 := by omega
      rw [hk', hρ, List.getElem?_cons_succ, List.getElem?_cons_succ]
      exact ⟨by omega, hat⟩
  | swap a b l =>
    refine ⟨Equiv.swap start (start + 1), fun k hk => ?_, fun k hk => ?_⟩
    · exact Equiv.swap_apply_of_ne_of_ne (by omega) (by omega)
    · rcases Nat.lt_or_ge k (start + 2) with hlt | hge
      · obtain rfl | rfl : k = start ∨ k = start + 1 := by omega
        · rw [Equiv.swap_apply_left]
          simp
        · rw [Equiv.swap_apply_right]
          simp
      · rw [Equiv.swap_apply_of_ne_of_ne (by omega) (by omega)]
        obtain ⟨i, rfl⟩ : ∃ i, k = start + (i + 2) := ⟨k - (start + 2), by omega⟩
        rw [Nat.add_sub_cancel_left]
        exact ⟨hk, rfl⟩
  | trans _ _ ih ih' =>
    obtain ⟨ρ, hfix, hmove⟩ := ih start
    obtain ⟨σ, hfix', hmove'⟩ := ih' start
    refine ⟨ρ.trans σ, fun k hk => ?_, fun k hk => ?_⟩
    · rw [Equiv.trans_apply, hfix k hk, hfix' k hk]
    · obtain ⟨hge, hat⟩ := hmove k hk
      obtain ⟨hge', hat'⟩ := hmove' (ρ k) hge
      exact ⟨hge', hat'.trans hat⟩

/-- networks that are the same but for keys from `start` on, which are exchanged for one another -/
structure SameButKeys (start : ℕ) (a b : Network) : Prop where
  external : b.external = a.external
  nextKey : b.nextKey = a.nextKey
  exchange : ∃ ρ : Equiv.Perm ℕ, (∀ k < start, ρ k = k) ∧ ∀ kind k, b.element? ⟨kind, ρ k⟩ = a.element? ⟨kind, k⟩

/-- **Two orders** of merges differ in the keys of what has come in. -/
theorem sameButKeys_of_perm {order : Pieces} (h : Fits n pieces) (hp : pieces.Perm order) :
    SameButKeys n.nextKey (n.mergeAll pieces) (n.mergeAll order) where
  external := (external_mergeAll n order).trans (external_mergeAll n pieces).symm
  nextKey := by rw [nextKey_mergeAll, nextKey_mergeAll, (hp.flatMap_right arrivals).length_eq]
  exchange := by
    obtain ⟨ρ, hfix, hmove⟩ := exists_renaming (hp.flatMap_right arrivals) n.nextKey
    refine ⟨ρ, hfix, fun kind k => ?_⟩
    by_cases hk : k < n.nextKey
    · rw [hfix k hk]
      by_cases hin : ∃ q ∈ pieces, q.1.Has ⟨kind, k⟩
      · obtain ⟨q, hq, hx⟩ := hin
        rw [element?_mergeAll_in_scope h hq hx, element?_mergeAll_in_scope (h.perm hp) (hp.mem_iff.1 hq) hx]
      · have hout : ∀ q ∈ pieces, ¬ q.1.Has ⟨kind, k⟩ := fun q hq hx => hin ⟨q, hq, hx⟩
        rw [element?_mergeAll_outside_scopes hk hout,
          element?_mergeAll_outside_scopes hk fun q hq => hout q (hp.mem_iff.2 hq)]
    · obtain ⟨hge, hat⟩ := hmove k (Nat.not_lt.1 hk)
      rw [element?_mergeAll_new h (x := ⟨kind, k⟩) (Nat.not_lt.1 hk),
        element?_mergeAll_new (h.perm hp) (x := ⟨kind, ρ k⟩) hge, hat]

/-- what comes of writing edited copies back to `n` one after the other -/
structure MergedBack (n : Network) (pieces : Pieces) (m : Network) : Prop where
  keyed : m.Keyed
  external : m.external = n.external
  /-- elements outside all scopes are unchanged -/
  outside : ∀ x ∈ n.allHandles, (∀ q ∈ pieces, ¬ q.1.Has x) → m.element? x = n.element? x
  /-- under a key of a scope there is what the copy has there, or nothing -/
  inside : ∀ q ∈ pieces, ∀ x, q.1.Has x → m.element? x = q.2.element? x
  /-- every element that a copy has created comes to one place, and nothing else is new -/
  created : ∃ place : ℕ × Handle → Handle,
    Set.BijOn place (Created n pieces) {x | x ∈ m.allHandles ∧ x ∉ n.allHandles} ∧
      ∀ c ∈ Created n pieces, m.element? (place c) = elementIn? pieces c
  /-- what is new has a key that no element of the network has had at any time -/
  fresh : ∀ x ∈ m.allHandles, x ∉ n.allHandles → ∀ past : Network, past.Built → past.Descends n →
    ∀ y ∈ past.allHandles, y.key ≠ x.key
  /-- a merge counts what it replaces, what it removes, and what it puts in -/
  summaries : ∀ before q after, pieces = before ++ q :: after → (n.mergeAll before).mergeSummary q.1 q.2 =
    ⟨{x | q.1.Has x ∧ x ∈ q.2.allHandles}.ncard, {x | q.1.Has x ∧ x ∉ q.2.allHandles}.ncard,
      {x | x ∈ q.2.allHandles ∧ x ∉ (n.extract q.1).allHandles}.ncard⟩

theorem Fits.mergedBack (h : Fits n pieces) : MergedBack n pieces (n.mergeAll pieces) where
  keyed := keyed_mergeAll h
  external := external_mergeAll n pieces
  outside x hx hout := element?_mergeAll_outside_scopes (h.keyed.below x hx) hout
  inside q hq x hx := element?_mergeAll_in_scope h hq hx
  created := ⟨n.place pieces, bijOn_place h, fun c hc => element?_place h ((h.mem_created c).1 hc)⟩
  fresh x hx hnew past hpast hdescends y hy := by
    have hk := key_of_new h hx hnew
    have hlt := hdescends.key_lt hpast.keyed hy
    omega
  summaries before q after heq := by
    subst heq
    have hq : q ∈ before ++ q :: after := List.mem_append_right _ List.mem_cons_self
    rw [mergeSummary_of_present (h.append.present q List.mem_cons_self)]
    simp only [mem_allHandles_extract (h.present q hq)]

end Network

/-! ## The counter -/

/-- copies written back one after the other, each time with all ids counted as used -/
def RoadMap.mergeAll (m : RoadMap) (pieces : Network.Pieces) : RoadMap := pieces.foldl (fun m q => m.merge q.1 q.2) m

namespace RoadMap

open Network

variable {m : RoadMap} {pieces order : Pieces}

theorem network_mergeAll (m : RoadMap) (pieces : Pieces) :
    (m.mergeAll pieces).network = m.network.mergeAll pieces := by
  induction pieces generalizing m with
  | nil => rfl
  | cons q pieces ih => exact ih (m.merge q.1 q.2)

/-- all that a copy has is in the network after its merge -/
theorem exists_of_copy {n : Network} {q : Scope × Network} (h : Fits n [q]) {x : Handle} {e : Element}
    (he : q.2.element? x = some e) : ∃ y, (n.merge q.1 q.2).element? y = some e := by
  by_cases hx : q.1.Has x
  · exact ⟨x, (element?_mergeAll_in_scope h List.mem_cons_self hx).trans he⟩
  · have hmem : (0, x) ∈ createdList [q] :=
      mem_createdList.2 ⟨q, rfl, mem_newcomers.2 ⟨mem_allHandles_of he, hx⟩⟩
    exact ⟨n.place [q] (0, x), (element?_place h hmem).trans he⟩

/-- all that there is after a merge comes from the copy or was there before -/
theorem of_merge {n : Network} {q : Scope × Network} (hn : n.Keyed) {x : Handle} {e : Element}
    (he : (n.merge q.1 q.2).element? x = some e) : n.element? x = some e ∨ ∃ y, q.2.element? y = some e := by
  by_cases hk : x.key < n.nextKey
  · rw [element?_merge_old hk] at he
    split_ifs at he
    · obtain ⟨-, -, hqe⟩ := Option.bind_eq_some_iff.1 he
      exact Or.inr ⟨x, hqe⟩
    · exact Or.inl he
  · rw [element?_merge_new hn.below (Nat.not_lt.1 hk)] at he
    obtain ⟨y, -, hy⟩ := Option.bind_eq_some_iff.1 he
    exact Or.inr ⟨y, hy⟩

/-- where the counter comes to: above all ids counted before, and above those of all copies -/
theorem watermark_mergeAll_le_iff (h : Fits m.network pieces) (hm : m.Counted) (bound : Nat) :
    (m.mergeAll pieces).ids.watermark ≤ bound ↔
      m.ids.watermark ≤ bound ∧ ∀ q ∈ pieces, ∀ id ∈ q.2.allIds, id.toNat < bound := by
  induction pieces generalizing m with
  | nil => simp [mergeAll]
  | cons q pieces ih =>
    have hone : Fits m.network [q] := ⟨h.keyed, fun p hp => h.present p (List.mem_singleton.1 hp ▸ List.mem_cons_self),
      List.pairwise_singleton _ _⟩
    refine (ih h.tail (counted_merge m q.1 q.2)).trans ?_
    rw [List.forall_mem_cons, ← and_assoc]
    refine and_congr_left fun _ => ?_
    refine (IdAllocator.watermark_observeAll_le_iff m.ids (m.network.merge q.1 q.2).allIds bound).trans ?_
    refine and_congr_right fun hle => ⟨fun hall id hid => ?_, fun hall id hid => ?_⟩
    · obtain ⟨x, hx⟩ := mem_allIds.1 hid
      obtain ⟨e, he, rfl⟩ := exists_element hx
      obtain ⟨y, hy⟩ := exists_of_copy hone he
      exact hall _ (mem_allIds.2 ⟨y, idOf?_of_element? hy⟩)
    · obtain ⟨x, hx⟩ := mem_allIds.1 hid
      obtain ⟨e, he, rfl⟩ := exists_element hx
      rcases of_merge h.keyed he with hold | ⟨y, hy⟩
      · exact Nat.lt_of_lt_of_le (hm x _ (idOf?_of_element? hold)) hle
      · exact hall _ (mem_allIds.2 ⟨y, idOf?_of_element? hy⟩)

/-- **The counter** comes to the same in any order. -/
theorem ids_mergeAll_of_perm (h : Fits m.network pieces) (hm : m.Counted) (hp : pieces.Perm order) :
    (m.mergeAll order).ids = (m.mergeAll pieces).ids := by
  have hmark : (m.mergeAll order).ids.watermark = (m.mergeAll pieces).ids.watermark :=
    eq_of_forall_ge_iff fun bound => by
      rw [watermark_mergeAll_le_iff h hm, watermark_mergeAll_le_iff (h.perm hp) hm]
      exact and_congr_right fun _ => forall_congr' fun q => imp_congr_left hp.mem_iff.symm
  generalize (m.mergeAll order).ids = a at hmark
  generalize (m.mergeAll pieces).ids = b at hmark
  cases a; cases b
  cases hmark
  rfl

/-- **Merging back.** Copies of separate scopes of a network, edited in whatever way, are written back in some order.
Nothing outside the scopes changes, what is in a scope becomes what it is in its copy, and each element that a copy has
created comes in once, under a key that was never in use. In another order the outcome differs only in these keys. -/
theorem merge_back (hb : m.network.Built) (hpresent : ∀ q ∈ pieces, ∀ x, q.1.Has x → x ∈ m.network.allHandles)
    (hdisjoint : pieces.Pairwise fun p q => p.1.isDisjoint q.1 = true) (horder : pieces.Perm order) :
    MergedBack m.network order (m.mergeAll order).network ∧
      SameButKeys m.network.nextKey (m.mergeAll pieces).network (m.mergeAll order).network ∧
      (m.Counted → (m.mergeAll order).ids = (m.mergeAll pieces).ids) := by
  have fits : Fits m.network pieces := ⟨hb.keyed, hpresent, hdisjoint.imp fun h => Scope.isDisjoint_iff.1 h⟩
  rw [network_mergeAll, network_mergeAll]
  exact ⟨(fits.perm horder).mergedBack, sameButKeys_of_perm fits horder, fun hm => ids_mergeAll_of_perm fits hm horder⟩

/-- one copy gains a lanelet, the other loses its lanelet and gains a sign; both newcomers have key 3 in their copies -/
theorem merge_back_two_copies : ∃ (m : RoadMap) (first second : Scope × Network),
    m = ofDocument { lanelets := [{ id := 1 }, { id := 2 }, { id := 3 }] } ∧
    first = ({ lanelets := .ofList [0] }, (m.network.extract { lanelets := .ofList [0] }).add (.lanelet { id := 9 })) ∧
    second = ({ lanelets := .ofList [1] },
      ((m.network.extract { lanelets := .ofList [1] }).remove ⟨.lanelet, 1⟩).add (.trafficSign { id := 9 })) ∧
    first.2.contains ⟨.lanelet, 3⟩ = true ∧ second.2.contains ⟨.trafficSign, 3⟩ = true ∧
    (m.mergeAll [first, second]).network.allHandles =
      [⟨.lanelet, 0⟩, ⟨.lanelet, 2⟩, ⟨.lanelet, 3⟩, ⟨.trafficSign, 4⟩] ∧
    (m.mergeAll [second, first]).network.allHandles =
      [⟨.lanelet, 0⟩, ⟨.lanelet, 2⟩, ⟨.lanelet, 4⟩, ⟨.trafficSign, 3⟩] ∧
    MergedBack m.network [second, first] (m.mergeAll [second, first]).network ∧
      SameButKeys m.network.nextKey (m.mergeAll [first, second]).network (m.mergeAll [second, first]).network ∧
      (m.Counted → (m.mergeAll [second, first]).ids = (m.mergeAll [first, second]).ids) := by
  refine ⟨_, _, _, rfl, rfl, rfl, by decide +kernel, by decide +kernel, by decide +kernel, by decide +kernel,
    merge_back (built_ofDocument _) ?present (by decide +kernel) (List.Perm.swap _ _ _)⟩
  have inside : ∀ (k : ℕ) (x : Handle), (⟨.ofList [k], ∅, ∅, ∅⟩ : Scope).Has x → x = ⟨.lanelet, k⟩ := by
    intro k x hx
    obtain ⟨kind, key⟩ := x
    cases kind
    case lanelet =>
      have hk : key ∈ [k] := SortedSet.mem_ofList.1 hx
      rw [List.mem_singleton.1 hk]
    all_goals exact absurd hx (SortedSet.not_mem_empty _)
  refine List.forall_mem_cons.2 ⟨fun x hx => ?_, List.forall_mem_singleton.2 fun x hx => ?_⟩
  · rw [inside 0 x hx]
    decide +kernel
  · rw [inside 1 x hx]
    decide +kernel

end RoadMap

end RoadRules
