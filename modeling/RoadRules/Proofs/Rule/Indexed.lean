/-
Looking things up in the index, and searching the network for them.

Rules are evaluated with the index of a network, repairs search the network itself. `build_mirrors` says that the two
never disagree: on what there is in a domain, on who bears an id, in what order, and on which ids exist.

- `handlesWithId_eq`: a search goes through the kinds one after the other, and comes to the elements in the order in
  which all elements are listed.
- `handlesWithId_build_eq`: so does the index.
-/
import RoadRules.Proofs.Rule.Reading

namespace RoadRules

/-- looking up every key, and taking the entries as they come -/
theorem Store.filter_keys {α : Type} (s : Store α) (bears : α → ElementId) (id : ElementId) :
    s.keys.filter (fun k => (s.get? k).map bears = some id) = (s.entries.filter fun e => bears e.2 == id).map (·.1) := by
  unfold keys
  rw [List.filter_map]
  refine congrArg _ (List.filter_congr fun e he => ?_)
  have hget : s.get? e.1 = some e.2 := get?_eq_some_iff.2 he
  simp [hget, beq_eq_decide]

namespace Network

theorem keysWithId_eq (n : Network) (kind : Kind) (id : ElementId) :
    n.keysWithId kind id = (n.keys kind).filter fun k => n.idOf? ⟨kind, k⟩ = some id := by
  cases kind <;> exact (Store.filter_keys _ _ id).symm

/-- **A search** comes to the bearers of an id in the order of all elements. -/
theorem handlesWithId_eq (n : Network) (id : ElementId) :
    n.handlesWithId id = n.allHandles.filter (n.idOf? · = some id) := by
  rw [handlesWithId, allHandles, List.filter_flatMap]
  refine congrArg Kind.values.flatMap (funext fun kind => ?_)
  rw [handles, List.filter_map, keysWithId_eq]
  rfl

end Network

namespace NetworkIndex

/-- **Bearers.** The index lists them as a search does. -/
theorem handlesWithId_build_eq (n : Network) (id : ElementId) : (build n).handlesWithId id = n.handlesWithId id := by
  rw [handlesWithId_build, Network.handlesWithId_eq]

/-- does the index say what a search of the network says? -/
structure Mirrors (x : NetworkIndex) (n : Network) : Prop where
  /-- a domain has the elements of its kind, in order -/
  domain : ∀ d kind, kind? d = some kind → x.domain d = n.handles kind
  /-- and the domain of all elements has all, in order -/
  all : x.domain .all = n.allHandles
  /-- an id has the same bearers, in the same order -/
  bearers : ∀ id, x.handlesWithId id = n.handlesWithId id
  present : ∀ kind id, x.hasLocal kind id = n.hasLocal kind id
  resolves : ∀ kind id, x.resolves n.external kind id = n.resolves kind id
  /-- an id is shared if two elements bear it, of the same kind or not -/
  shared : ∀ id, id ∈ x.sharedIds ↔ ∃ g h, g ≠ h ∧ n.idOf? g = some id ∧ n.idOf? h = some id
  /-- asked in a rule whether an id exists, it answers as the network resolves the id -/
  answers : ∀ (b : Builtin) (kind : Kind), b.asks? = some kind →
    ∀ id, b.apply ⟨n, x⟩ [.ofId id] = .ok (.bool (n.resolves kind id))

/-- **The index of a network agrees with the network**, whatever ids its elements bear and whatever ids are external. -/
theorem build_mirrors (n : Network) : (build n).Mirrors n where
  domain d kind hd := by rw [domain_build, hd]
  all := domain_build n .all
  bearers := handlesWithId_build_eq n
  present := hasLocal_build n
  resolves := resolves_build n
  shared _ := mem_sharedIds
  answers _ _ hb id := Builtin.apply_exists hb id

end NetworkIndex

end RoadRules
