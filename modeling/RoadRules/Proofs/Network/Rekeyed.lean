/-
Networks that differ in their storage keys only.

- `Rekeyed`: a network has the elements of another one in the same order, but under other keys. Then the two resolve
  the same references (`resolves_rekey`) and list the same elements under each domain (`domain_rekey`).
- `exists_rekeyed`: networks with the same document, and with the same ids outside, are of this sort.
- `toDocument_ofDocument`: the network that is built from a document has this document again.
-/
import RoadRules.Network.Document
import RoadRules.Proofs.Network.Index
import RoadRules.Proofs.Network.Operations

namespace RoadRules

/-! ## Keys -/

/-- another key for every key of each kind -/
abbrev Rekeying := Kind → Equiv.Perm Nat

def Rekeying.ofKinds (lanelets signs lights intersections : Equiv.Perm Nat) : Rekeying
  | .lanelet => lanelets
  | .trafficSign => signs
  | .trafficLight => lights
  | .intersection => intersections

def Handle.rekey (ρ : Rekeying) (h : Handle) : Handle := ⟨h.kind, ρ h.kind h.key⟩

namespace Handle

variable (ρ : Rekeying)

@[simp] theorem kind_rekey (h : Handle) : (h.rekey ρ).kind = h.kind := rfl

@[simp] theorem rekey_inj {g h : Handle} : g.rekey ρ = h.rekey ρ ↔ g = h := by
  constructor
  · intro heq
    obtain ⟨kind, k⟩ := g
    obtain ⟨kind', k'⟩ := h
    obtain rfl : kind = kind' := congrArg Handle.kind heq
    have hkey : ρ kind k = ρ kind k' := congrArg Handle.key heq
    rw [(ρ kind).injective hkey]
  · rintro rfl
    rfl

end Handle

/-- lists of as many numbers, each without repetitions, are the same up to a permutation of all numbers -/
theorem exists_perm_map {l m : List Nat} (hl : l.Nodup) (hm : m.Nodup) (hlen : l.length = m.length) :
    ∃ σ : Equiv.Perm Nat, m = l.map σ := by
  induction l generalizing m with
  | nil => exact ⟨1, List.length_eq_zero_iff.1 hlen.symm⟩
  | cons a l ih =>
    obtain ⟨b, m, rfl⟩ : ∃ b m', m = b :: m' := List.exists_cons_of_length_eq_add_one hlen.symm
    obtain ⟨ha, hl⟩ := List.nodup_cons.1 hl
    obtain ⟨hb, hm⟩ := List.nodup_cons.1 hm
    obtain ⟨σ, rfl⟩ := ih hl hm (Nat.succ.inj hlen)
    -- `σ` may send `a` anywhere outside the rest, so it is swapped for `b` there
    refine ⟨σ.trans (Equiv.swap (σ a) b), List.cons_eq_cons.2 ⟨(Equiv.swap_apply_left _ _).symm, ?_⟩⟩
    refine List.map_congr_left fun x hx => (Equiv.swap_apply_of_ne_of_ne ?_ ?_).symm
    · intro heq
      exact ha (σ.injective heq ▸ hx)
    · rintro rfl
      exact hb (List.mem_map_of_mem hx)

namespace Store

variable {α : Type}

/-- stores with the same values in the same order differ by their keys only -/
theorem exists_rekeying {s t : Store α} (h : t.values = s.values) :
    ∃ σ : Equiv.Perm Nat, t.keys = s.keys.map σ ∧ ∀ k, t.get? (σ k) = s.get? k := by
  have hlen : s.keys.length = t.keys.length := by
    have := congrArg List.length h
    simpa [values, keys] using this.symm
  obtain ⟨σ, hσ⟩ := exists_perm_map s.nodup_keys t.nodup_keys hlen
  have ht : t.entries = (s.keys.map σ).zip s.values := List.zip_of_prod hσ h
  have hs : (s.entries.map fun e => (σ e.1, e.2)) = (s.keys.map σ).zip s.values := by
    refine List.zip_of_prod ?_ ?_
    · rw [keys, List.map_map, List.map_map]; rfl
    · rw [values, List.map_map]; rfl
  have hentries := ht.trans hs.symm
  refine ⟨σ, hσ, fun k => Option.ext fun v => ?_⟩
  simp [get?_eq_some_iff, hentries]

/-- a value under a key behind all others comes last -/
theorem values_insert {s : Store α} {key : Nat} (h : ∀ k ∈ s.keys, k < key) (v : α) :
    (s.insert key v).values = s.values ++ [v] := by
  have hinsert : ∀ l : List (Nat × α), (∀ k ∈ l.map (·.1), k < key) → insertInto key v l = l ++ [(key, v)] := by
    intro l hl
    induction l with
    | nil => rfl
    | cons e l ih =>
      have hlt : e.1 < key := hl e.1 List.mem_cons_self
      rw [insertInto, if_neg (by omega), if_neg (by omega), ih fun k hk => hl k (List.mem_cons_of_mem _ hk)]
      rfl
  exact (congrArg (List.map (·.2)) (hinsert s.entries h)).trans List.map_append

end Store

namespace Network

/-! ## The same elements under other keys -/

/-- the elements of `n`, in the same order, are in `m` under the keys that `ρ` gives them -/
structure Rekeyed (ρ : Rekeying) (n m : Network) : Prop where
  external : m.external = n.external
  keys : ∀ kind, m.keys kind = (n.keys kind).map (ρ kind)
  element : ∀ h, m.element? (h.rekey ρ) = n.element? h

namespace Rekeyed

variable {ρ : Rekeying} {n m : Network} (h : Rekeyed ρ n m)

include h

theorem idOf?_rekey (x : Handle) : m.idOf? (x.rekey ρ) = n.idOf? x := by
  rw [idOf?_eq, idOf?_eq, h.element]

theorem get?_lanelets (k : Nat) : m.lanelets.get? (ρ .lanelet k) = n.lanelets.get? k :=
  Option.map_injective (fun _ _ => Element.lanelet.inj) (h.element ⟨.lanelet, k⟩)

theorem get?_trafficSigns (k : Nat) : m.trafficSigns.get? (ρ .trafficSign k) = n.trafficSigns.get? k :=
  Option.map_injective (fun _ _ => Element.trafficSign.inj) (h.element ⟨.trafficSign, k⟩)

theorem get?_trafficLights (k : Nat) : m.trafficLights.get? (ρ .trafficLight k) = n.trafficLights.get? k :=
  Option.map_injective (fun _ _ => Element.trafficLight.inj) (h.element ⟨.trafficLight, k⟩)

theorem get?_intersections (k : Nat) : m.intersections.get? (ρ .intersection k) = n.intersections.get? k :=
  Option.map_injective (fun _ _ => Element.intersection.inj) (h.element ⟨.intersection, k⟩)

theorem handles_rekey (kind : Kind) : m.handles kind = (n.handles kind).map (Handle.rekey ρ) := by
  rw [handles, handles, h.keys, List.map_map, List.map_map]
  rfl

theorem allHandles_rekey : m.allHandles = n.allHandles.map (Handle.rekey ρ) := by
  rw [allHandles, allHandles, List.map_flatMap]
  exact List.flatMap_congr fun kind _ => h.handles_rekey kind

/-- a domain has the same elements in the same order -/
theorem domain_rekey (d : Domain) : m.view.index.domain d = (n.view.index.domain d).map (Handle.rekey ρ) := by
  change (NetworkIndex.build m).domain d = ((NetworkIndex.build n).domain d).map _
  rw [NetworkIndex.domain_build, NetworkIndex.domain_build]
  cases NetworkIndex.kind? d with
  | some kind => exact h.handles_rekey kind
  | none => exact h.allHandles_rekey

/-- the same references resolve -/
theorem resolves_rekey (kind : Kind) (id : ElementId) : m.resolves kind id = n.resolves kind id := by
  rw [Bool.eq_iff_iff, resolves_iff, resolves_iff, h.external, (ρ kind).surjective.exists]
  simp only [← h.idOf?_rekey ⟨kind, _⟩, Handle.rekey]

end Rekeyed

/-- **Same document.** Networks with the same document, and with the same ids outside, differ by their keys only. -/
theorem exists_rekeyed {n m : Network} (hdocument : m.toDocument = n.toDocument) (hexternal : m.external = n.external) :
    ∃ ρ, Rekeyed ρ n m := by
  obtain ⟨lanelets, hlanelets, hl⟩ := Store.exists_rekeying (congrArg Document.lanelets hdocument)
  obtain ⟨signs, hsigns, hs⟩ := Store.exists_rekeying (congrArg Document.trafficSigns hdocument)
  obtain ⟨lights, hlights, ht⟩ := Store.exists_rekeying (congrArg Document.trafficLights hdocument)
  obtain ⟨intersections, hintersections, hi⟩ := Store.exists_rekeying (congrArg Document.intersections hdocument)
  refine ⟨.ofKinds lanelets signs lights intersections, hexternal, fun kind => ?_, fun h => ?_⟩
  · cases kind with
    | lanelet => exact hlanelets
    | trafficSign => exact hsigns
    | trafficLight => exact hlights
    | intersection => exact hintersections
  · obtain ⟨kind, k⟩ := h
    cases kind with
    | lanelet => exact congrArg (Option.map Element.lanelet) (hl k)
    | trafficSign => exact congrArg (Option.map Element.trafficSign) (hs k)
    | trafficLight => exact congrArg (Option.map Element.trafficLight) (ht k)
    | intersection => exact congrArg (Option.map Element.intersection) (hi k)

end Network

/-! ## Networks that are built from documents -/

/-- the document with another element behind those of its kind -/
def Document.push (d : Document) : Element → Document
  | .lanelet l => { d with lanelets := d.lanelets ++ [l] }
  | .trafficSign s => { d with trafficSigns := d.trafficSigns ++ [s] }
  | .trafficLight t => { d with trafficLights := d.trafficLights ++ [t] }
  | .intersection i => { d with intersections := d.intersections ++ [i] }

namespace Document

theorem foldl_push (es : List Element) (d : Document) : es.foldl push d =
    ⟨d.lanelets ++ es.filterMap fun | .lanelet l => some l | _ => none,
      d.trafficSigns ++ es.filterMap fun | .trafficSign s => some s | _ => none,
      d.trafficLights ++ es.filterMap fun | .trafficLight t => some t | _ => none,
      d.intersections ++ es.filterMap fun | .intersection i => some i | _ => none⟩ := by
  induction es generalizing d with
  | nil => simp
  | cons e es ih => cases e <;> simp [ih, push]

/-- a document is made of its elements -/
theorem foldl_push_elements (d : Document) : d.elements.foldl push {} = d := by
  rw [foldl_push]
  simp [elements, List.filterMap_append, List.filterMap_map]

end Document

/-- a new element gets a key behind all others -/
theorem Network.toDocument_add {n : Network} (hn : n.Keyed) (e : Element) :
    (n.add e).toDocument = n.toDocument.push e := by
  have below : ∀ kind, ∀ k ∈ n.keys kind, k < n.nextKey := by
    intro kind k hk
    obtain ⟨id, hid⟩ := mem_keys.1 hk
    exact hn.below ⟨kind, k⟩ (mem_allHandles.2 ⟨id, hid⟩)
  cases e with
  | lanelet l => simp only [add, toDocument, Document.push, Store.values_insert (below .lanelet)]
  | trafficSign s => simp only [add, toDocument, Document.push, Store.values_insert (below .trafficSign)]
  | trafficLight t => simp only [add, toDocument, Document.push, Store.values_insert (below .trafficLight)]
  | intersection i => simp only [add, toDocument, Document.push, Store.values_insert (below .intersection)]

namespace RoadMap

/-- **Documents.** The network that is built from a document has this document again. -/
theorem toDocument_ofDocument (d : Document) : (ofDocument d).network.toDocument = d := by
  have build : ∀ (es : List Element) (m : RoadMap), m.network.Keyed →
      (es.foldl add m).network.toDocument = es.foldl Document.push m.network.toDocument := by
    intro es
    induction es with
    | nil => exact fun _ _ => rfl
    | cons e es ih =>
      intro m hm
      have hadd := ih (m.add e) ((Network.evolves_add hm e).keyed hm)
      rw [List.foldl_cons, List.foldl_cons, hadd]
      exact congrArg (fun d => es.foldl Document.push d) (Network.toDocument_add hm e)
  exact (build d.elements empty Network.keyed_empty).trans d.foldl_push_elements

end RoadMap

end RoadRules
