/-
The index of a network agrees with the network.

- `handlesWithId_build`: under an id the index has the elements that bear it, in the order in which they are listed.
- `resolves_build`: the index resolves the references that the network resolves.
- `mem_sharedIds`: the index lists an id as shared if two elements bear it.
-/
import RoadRules.Network.Index
import RoadRules.Proofs.Network.Lookup

namespace RoadRules

namespace NetworkIndex

/-! ## Elements by id -/

theorem lookup_note (id other : ElementId) (h : Handle) (noted : List (ElementId × List Handle)) :
    ((note id h noted).lookup other).getD [] =
      if other = id then (noted.lookup other).getD [] ++ [h] else (noted.lookup other).getD [] := by
  induction noted with
  | nil =>
    by_cases ho : other = id
    · simp [note, ho]
    · simp [note, List.lookup_cons, ho, beq_eq_false_iff_ne.mpr ho]
  | cons e rest ih =>
    obtain ⟨k, hs⟩ := e
    by_cases hk : k = id
    · by_cases ho : other = id
      · simp [note, hk, ho]
      · simp [note, hk, ho, List.lookup_cons, beq_eq_false_iff_ne.mpr ho]
    · by_cases ho : other = k
      · have : ¬ other = id := fun e => hk (ho.symm.trans e)
        simp [note, hk, ho]
      · simpa [note, hk, List.lookup_cons, beq_eq_false_iff_ne.mpr ho] using ih

theorem lookup_group_from (n : Network) (id : ElementId) (hs : List Handle) (noted : List (ElementId × List Handle)) :
    (((hs.foldl (fun noted h => match n.idOf? h with | some id => note id h noted | none => noted) noted).lookup
      id).getD []) = (noted.lookup id).getD [] ++ hs.filter (n.idOf? · = some id) := by
  induction hs generalizing noted with
  | nil => simp
  | cons h hs ih =>
    rw [List.foldl_cons, ih]
    cases hid : n.idOf? h with
    | none => simp [hid]
    | some own =>
      rw [lookup_note]
      by_cases ho : id = own
      · simp [hid, ho]
      · simp [hid, ho, Ne.symm ho]

theorem all_build (n : Network) : (build n).all = n.allHandles := by
  simp [build, Network.allHandles, Kind.values]

/-- **Elements by id.** They come in the order in which all elements are listed. -/
theorem handlesWithId_build (n : Network) (id : ElementId) :
    (build n).handlesWithId id = n.allHandles.filter (n.idOf? · = some id) := by
  rw [← all_build]
  exact lookup_group_from n id _ []

theorem mem_handlesWithId_build {n : Network} {id : ElementId} {h : Handle} :
    h ∈ (build n).handlesWithId id ↔ n.idOf? h = some id := by
  rw [handlesWithId_build, List.mem_filter, Network.mem_allHandles, decide_eq_true_eq]
  exact ⟨fun h => h.2, fun h => ⟨⟨id, h⟩, h⟩⟩

theorem hasLocal_build (n : Network) (kind : Kind) (id : ElementId) :
    (build n).hasLocal kind id = n.hasLocal kind id := by
  rw [Bool.eq_iff_iff, Network.hasLocal_iff, hasLocal, List.any_eq_true]
  constructor
  · rintro ⟨⟨k, key⟩, hm, hk⟩
    cases beq_iff_eq.mp hk
    exact ⟨key, mem_handlesWithId_build.1 hm⟩
  · rintro ⟨key, hid⟩
    exact ⟨⟨kind, key⟩, mem_handlesWithId_build.2 hid, beq_self_eq_true _⟩

/-- **References.** The index resolves what the network resolves. -/
theorem resolves_build (n : Network) (kind : Kind) (id : ElementId) :
    (build n).resolves n.external kind id = n.resolves kind id := by
  rw [resolves, hasLocal_build, Bool.or_comm]; rfl

/-! ## Domains -/

/-- the kind of the elements in a domain; the domain of all elements has none -/
def kind? : Domain → Option Kind
  | .lanelets => some .lanelet
  | .trafficSigns => some .trafficSign
  | .trafficLights => some .trafficLight
  | .intersections => some .intersection
  | .all => none

/-- a domain ranges over the elements of its kind, or over all -/
theorem domain_build (n : Network) (d : Domain) :
    (build n).domain d = match kind? d with | some kind => n.handles kind | none => n.allHandles := by
  cases d <;> first | rfl | exact all_build n

/-! ## Shared ids -/

theorem keys_note (id : ElementId) (h : Handle) (noted : List (ElementId × List Handle)) :
    (note id h noted).map (·.1) = if id ∈ noted.map (·.1) then noted.map (·.1) else noted.map (·.1) ++ [id] := by
  induction noted with
  | nil => simp [note]
  | cons e rest ih =>
    obtain ⟨k, hs⟩ := e
    by_cases hk : k = id
    · simp [note, hk]
    · have hk' : ¬ id = k := Ne.symm hk
      simp only [note, if_neg hk, List.map_cons, ih, List.mem_cons, hk', false_or]
      split_ifs <;> simp

theorem nodup_keys_group (n : Network) (hs : List Handle) (noted : List (ElementId × List Handle))
    (hn : (noted.map (·.1)).Nodup) :
    ((hs.foldl (fun noted h => match n.idOf? h with | some id => note id h noted | none => noted) noted).map
      (·.1)).Nodup := by
  induction hs generalizing noted with
  | nil => exact hn
  | cons h hs ih =>
    rw [List.foldl_cons]
    cases n.idOf? h with
    | none => exact ih _ hn
    | some id =>
      refine ih _ ?_
      rw [keys_note]
      split_ifs with hm
      · exact hn
      · exact List.nodup_append.2 ⟨hn, List.nodup_singleton _, by
          rintro a ha b hb rfl; exact hm (List.mem_singleton.1 hb ▸ ha)⟩

theorem nodup_keys (n : Network) (kind : Kind) : (n.keys kind).Nodup := by
  cases kind <;> exact Store.nodup_keys _

theorem nodup_allHandles (n : Network) : n.allHandles.Nodup := by
  have one : ∀ kind, (n.handles kind).Nodup := fun kind =>
    (nodup_keys n kind).map fun a b h => by cases h; rfl
  refine List.nodup_flatMap.2 ⟨fun k _ => one k, ?_⟩
  have hv : Kind.values.Nodup := by decide
  refine hv.imp fun {a b} hab => ?_
  rw [Function.onFun, List.disjoint_left]
  intro h ha hb
  exact hab ((Network.mem_handles.1 ha).1.symm.trans (Network.mem_handles.1 hb).1)

/-- **Shared ids.** An id is shared if two different elements bear it. -/
theorem mem_sharedIds {n : Network} {id : ElementId} :
    id ∈ (build n).sharedIds ↔ ∃ g h, g ≠ h ∧ n.idOf? g = some id ∧ n.idOf? h = some id := by
  have hn : ((build n).byId.map (·.1)).Nodup := nodup_keys_group n _ [] List.nodup_nil
  have bearers : id ∈ (build n).sharedIds ↔ 1 < ((build n).handlesWithId id).length := by
    simp only [sharedIds, SortedSet.mem_ofList, List.mem_map, List.mem_filter, decide_eq_true_eq, handlesWithId]
    constructor
    · rintro ⟨⟨id, hs⟩, ⟨hm, hl⟩, rfl⟩
      rw [(lookup_eq_some_iff hn).2 hm]; exact hl
    · intro hl
      cases hf : (build n).byId.lookup id with
      | none => rw [hf] at hl; simp at hl
      | some hs => rw [hf] at hl; exact ⟨(id, hs), ⟨(lookup_eq_some_iff hn).1 hf, hl⟩, rfl⟩
  have hd : ((build n).handlesWithId id).Nodup := handlesWithId_build n id ▸ (nodup_allHandles n).filter _
  rw [bearers]
  constructor
  · intro hl
    refine ⟨((build n).handlesWithId id)[0], ((build n).handlesWithId id)[1], fun e => ?_, ?_, ?_⟩
    · exact absurd ((List.Nodup.getElem_inj_iff hd).1 e) (by decide)
    · exact mem_handlesWithId_build.1 (List.getElem_mem _)
    · exact mem_handlesWithId_build.1 (List.getElem_mem _)
  · rintro ⟨g, h, hne, hg, hh⟩
    by_contra hl
    have hg := mem_handlesWithId_build.2 hg
    have hh := mem_handlesWithId_build.2 hh
    generalize (build n).handlesWithId id = bearers at hg hh hl
    rcases bearers with _ | ⟨a, _ | ⟨b, rest⟩⟩
    · cases hg
    · exact hne ((List.mem_singleton.1 hg).trans (List.mem_singleton.1 hh).symm)
    · simp at hl

end NetworkIndex

end RoadRules
