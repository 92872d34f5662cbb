/-
Operations on a network, and what becomes of keys and ids.

- `Keyed`: all keys lie below the next one, and none belongs to two elements.
- `Evolves`: of what was there only some is left, and what has come in has keys of its own that were not given out
  before. So a key that has gone does not come back (`Evolves.gone`). Every operation is of this sort
  (`evolves_perform`), and keeps up that keys are in order (`Keyed.perform`).
- `Trims`: nothing comes in, and no element comes to another id. Most operations are of this sort.
- `watermark_perform`, `counted_perform`: the counter never goes back, and all ids keep counting as used, as long as no
  id is written into an element by hand.
- `Built`, `Descends`: the networks that operations lead to, from nothing or from a given one.
-/
import RoadRules.Proofs.Network.FreshIds
import RoadRules.Proofs.Network.Newcomers

namespace RoadRules

/-! ## Operations -/

/-- a change of an element, which stays of its kind -/
structure Edit where
  apply : Element → Element
  kind_apply : ∀ e, (apply e).kind = e.kind

/-- an element changed in place, if it is there -/
def Network.edit (n : Network) (h : Handle) (f : Edit) : Network :=
  match n.element? h with
  | none => n
  | some e => n.replace h.key (f.apply e)

/-- what can be done with a network and its counter -/
inductive Operation where
  | add (e : Element)
  | remove (h : Handle)
  | link (pred succ : Nat)
  | unlink (pred succ : Nat)
  | linkAdjacent (left right : Nat) (sameDirection : Bool)
  | edit (h : Handle) (f : Edit)
  /-- ids of elements outside the network made known -/
  | declare (external : ExternalIds)
  | freshId
  | reassignId (h : Handle)
  | merge (scope : Scope) (copy : Network)

/-- does the operation leave the writing of ids to the counter? -/
def Operation.KeepsIds : Operation → Prop
  | .edit _ f => ∀ e, (f.apply e).id = e.id
  | _ => True

/-- the map after an operation -/
def RoadMap.perform (m : RoadMap) : Operation → RoadMap
  | .add e => m.add e
  | .remove h => { m with network := m.network.remove h }
  | .link pred succ => { m with network := m.network.link pred succ }
  | .unlink pred succ => { m with network := m.network.unlink pred succ }
  | .linkAdjacent left right sameDirection => { m with network := m.network.linkAdjacent left right sameDirection }
  | .edit h f => { m with network := m.network.edit h f }
  | .declare external => { m with network := { m.network with external := m.network.external.union external } }
  | .freshId => match m.freshId? with | some (_, m) => m | none => m
  | .reassignId h => match m.reassignId? h with | some (_, m) => m | none => m
  | .merge scope copy => m.merge scope copy

namespace Network

variable {n m k : Network}

theorem exists_of_mem_allHandles {h : Handle} (hh : h ∈ n.allHandles) : ∃ e, n.element? h = some e := by
  obtain ⟨id, hid⟩ := mem_allHandles.1 hh
  obtain ⟨e, he, -⟩ := exists_element hid
  exact ⟨e, he⟩

theorem mem_allHandles_of {h : Handle} {e : Element} (he : n.element? h = some e) : h ∈ n.allHandles :=
  mem_allHandles.2 ⟨e.id, idOf?_of_element? he⟩

/-! ## Keys -/

/-- all keys lie below the next one, and none belongs to two elements -/
structure Keyed (n : Network) : Prop where
  below : ∀ h ∈ n.allHandles, h.key < n.nextKey
  apart : ∀ g ∈ n.allHandles, ∀ h ∈ n.allHandles, g.key = h.key → g = h

theorem keyed_empty : Keyed {} := ⟨nofun, nofun⟩

theorem Keyed.extract (hn : n.Keyed) (s : Scope) : (n.extract s).Keyed := by
  have sub : ∀ h ∈ (n.extract s).allHandles, h ∈ n.allHandles := fun h hh => by
    obtain ⟨e, he⟩ := exists_of_mem_allHandles hh
    exact mem_allHandles_of (element?_of_extract he).2
  exact ⟨fun h hh => hn.below h (sub h hh), fun g hg h hh => hn.apart g (sub g hg) h (sub h hh)⟩

/-- `m` has elements that `n` has, and others that have keys of their own, given out later than all keys of `n` -/
structure Evolves (n m : Network) : Prop where
  nextKey : n.nextKey ≤ m.nextKey
  element : ∀ h ∈ m.allHandles, h ∈ n.allHandles ∨
    n.nextKey ≤ h.key ∧ h.key < m.nextKey ∧ ∀ g ∈ m.allHandles, g.key = h.key → g = h

namespace Evolves

theorem refl (n : Network) : Evolves n n := ⟨Nat.le_refl _, fun _ hh => Or.inl hh⟩

/-- under a key of before there is what was there before -/
theorem old (h : Evolves n m) {x : Handle} (hx : x ∈ m.allHandles) (hk : x.key < n.nextKey) : x ∈ n.allHandles :=
  (h.element x hx).resolve_right fun hnew => by omega

theorem trans (h : Evolves n m) (h' : Evolves m k) : Evolves n k where
  nextKey := Nat.le_trans h.nextKey h'.nextKey
  element x hx := by
    rcases h'.element x hx with hm | ⟨hfrom, hbelow, halone⟩
    · refine (h.element x hm).imp_right fun ⟨hfrom, hbelow, halone⟩ => ?_
      refine ⟨hfrom, Nat.lt_of_lt_of_le hbelow h'.nextKey, fun g hg hkey => ?_⟩
      exact halone g (h'.old hg (hkey ▸ hbelow)) hkey
    · exact Or.inr ⟨Nat.le_trans h.nextKey hfrom, hbelow, halone⟩

theorem keyed (h : Evolves n m) (hn : n.Keyed) : m.Keyed where
  below x hx := by
    rcases h.element x hx with hold | ⟨-, hbelow, -⟩
    · exact Nat.lt_of_lt_of_le (hn.below x hold) h.nextKey
    · exact hbelow
  apart g hg x hx hkey := by
    rcases h.element g hg with hold | ⟨-, -, halone⟩
    · exact hn.apart g hold x (h.old hx (hkey ▸ hn.below g hold)) hkey
    · exact (halone x hx hkey.symm).symm

/-- **A key that has gone does not come back.** -/
theorem gone (h : Evolves n m) (h' : Evolves m k) (hn : n.Keyed) {key : Nat}
    (hheld : ∃ x ∈ n.allHandles, x.key = key) (hgone : ∀ x ∈ m.allHandles, x.key ≠ key) :
    ∀ x ∈ k.allHandles, x.key ≠ key := by
  rintro x hx rfl
  obtain ⟨y, hy, hkey⟩ := hheld
  have hbelow : x.key < m.nextKey := hkey ▸ Nat.lt_of_lt_of_le (hn.below y hy) h.nextKey
  exact hgone x (h'.old hx hbelow) rfl

/-- what comes by a rewrite was there before -/
theorem of_rewrites {f : Rewrite} (h : Rewrites f n m) : Evolves n m where
  nextKey := Nat.le_of_eq h.nextKey.symm
  element x hx := by
    obtain ⟨e, he⟩ := exists_of_mem_allHandles hx
    rw [h.element] at he
    obtain ⟨old, hold, -⟩ := Option.bind_eq_some_iff.1 he
    exact Or.inl (mem_allHandles_of hold)

end Evolves

/-! ## Operations that put nothing in -/

/-- no element comes in, and none comes to another id -/
structure Trims (n m : Network) : Prop where
  nextKey : m.nextKey = n.nextKey
  kept : ∀ {x id}, m.idOf? x = some id → n.idOf? x = some id

namespace Trims

theorem refl (n : Network) : Trims n n := ⟨rfl, id⟩

theorem evolves (h : Trims n m) : Evolves n m where
  nextKey := Nat.le_of_eq h.nextKey.symm
  element x hx := by
    obtain ⟨id, hid⟩ := mem_allHandles.1 hx
    exact Or.inl (mem_allHandles.2 ⟨id, h.kept hid⟩)

theorem of_rewrites {f : Rewrite} (h : Rewrites f n m)
    (hid : ∀ x e e', n.element? x = some e → f x e = some e' → e'.id = e.id) : Trims n m where
  nextKey := h.nextKey
  kept {x id} hx := by
    obtain ⟨e', he', rfl⟩ := exists_element hx
    rw [h.element] at he'
    obtain ⟨e, he, hf⟩ := Option.bind_eq_some_iff.1 he'
    rw [hid x e e' he hf]
    exact idOf?_of_element? he

end Trims

theorem trims_remove (n : Network) (h : Handle) : Trims n (n.remove h) := by
  cases he : n.element? h with
  | none => rw [remove_of_absent he]; exact .refl n
  | some e =>
    refine .of_rewrites (rewrites_remove (idOf?_of_element? he)) fun x e e' _ hf => ?_
    unfold Rewrite.removal at hf
    split_ifs at hf <;> cases hf
    · rfl
    · exact Element.id_forget _ _ _

theorem trims_link (n : Network) (pred succ : Nat) : Trims n (n.link pred succ) where
  nextKey := by unfold link; split <;> rfl
  kept hid := (n.idOf?_link pred succ _).symm.trans hid

theorem trims_unlink (n : Network) (pred succ : Nat) : Trims n (n.unlink pred succ) where
  nextKey := by unfold unlink; split <;> rfl
  kept hid := (n.idOf?_unlink pred succ _).symm.trans hid

theorem idOf?_linkAdjacent (n : Network) (left right : Nat) (sameDirection : Bool) (x : Handle) :
    (n.linkAdjacent left right sameDirection).idOf? x = n.idOf? x := by
  unfold linkAdjacent
  split
  · next l r _ _ =>
    have there := n.idOf?_modifyLanelet left (g := fun a => { a with adjacentRight := some ⟨r.id, sameDirection⟩ })
      (fun _ => rfl) x
    refine (idOf?_modifyLanelet _ right (fun b => ?_) x).trans there
    split_ifs <;> rfl
  · rfl

theorem trims_linkAdjacent (n : Network) (left right : Nat) (sameDirection : Bool) :
    Trims n (n.linkAdjacent left right sameDirection) where
  nextKey := by unfold linkAdjacent; split <;> rfl
  kept hid := (n.idOf?_linkAdjacent left right sameDirection _).symm.trans hid

theorem rewrites_edit {h : Handle} {e : Element} (he : n.element? h = some e) (f : Edit) :
    Rewrites (.only h fun _ => f.apply e) n (n.edit h f) := by
  unfold edit
  rw [he]
  exact n.rewrites_replace ((f.kind_apply e).trans (kind_of_element? he))

theorem evolves_edit (n : Network) (h : Handle) (f : Edit) : Evolves n (n.edit h f) := by
  cases he : n.element? h with
  | none => rw [edit, he]; exact .refl n
  | some e => exact .of_rewrites (rewrites_edit he f)

theorem trims_edit (n : Network) (h : Handle) {f : Edit} (hf : ∀ e, (f.apply e).id = e.id) : Trims n (n.edit h f) := by
  cases he : n.element? h with
  | none => rw [edit, he]; exact .refl n
  | some e =>
    refine .of_rewrites (rewrites_edit he f) fun x old new hold hnew => ?_
    cases hnew
    split_ifs with hx
    · subst hx
      cases he.symm.trans hold
      exact hf e
    · rfl

/-! ## Operations that put something in -/

theorem mem_allHandles_add {e : Element} {x : Handle} (hx : x ∈ (n.add e).allHandles) :
    x = ⟨e.kind, n.nextKey⟩ ∨ x ∈ n.allHandles := by
  obtain ⟨e', he'⟩ := exists_of_mem_allHandles hx
  rw [element?_add] at he'
  split_ifs at he' with hnew
  · exact Or.inl hnew
  · exact Or.inr (mem_allHandles_of he')

theorem evolves_add (hn : n.Keyed) (e : Element) : Evolves n (n.add e) where
  nextKey := by rw [nextKey_add]; exact Nat.le_succ _
  element x hx := by
    refine (mem_allHandles_add hx).symm.imp_right fun hnew => ?_
    subst hnew
    refine ⟨Nat.le_refl _, by rw [nextKey_add]; exact Nat.lt_succ_self _, fun g hg hkey => ?_⟩
    exact (mem_allHandles_add hg).resolve_right fun hold => absurd hkey (Nat.ne_of_lt (hn.below g hold))

theorem evolves_merge (hn : n.Keyed) (s : Scope) (c : Network) : Evolves n (n.merge s c) where
  nextKey := by rw [nextKey_merge]; exact Nat.le_add_right _ _
  element x hx := by
    -- under a new key there is the newcomer at its place, and so there is no other kind of element
    have new : ∀ g ∈ (n.merge s c).allHandles, n.nextKey ≤ g.key →
        ∃ h, (newcomers s c)[g.key - n.nextKey]? = some h ∧ h.kind = g.kind := fun g hg hk => by
      obtain ⟨e, he⟩ := exists_of_mem_allHandles hg
      rw [element?_merge_new hn.below hk] at he
      obtain ⟨h, hh, -⟩ := Option.bind_eq_some_iff.1 he
      obtain ⟨hat, hkind⟩ := Option.filter_eq_some_iff.1 hh
      exact ⟨h, hat, beq_iff_eq.1 hkind⟩
    by_cases hk : x.key < n.nextKey
    · obtain ⟨e, he⟩ := exists_of_mem_allHandles hx
      rw [element?_merge_old hk] at he
      split_ifs at he
      · obtain ⟨old, hold, -⟩ := Option.bind_eq_some_iff.1 he
        exact Or.inl (mem_allHandles_of hold)
      · exact Or.inl (mem_allHandles_of he)
    · have hk := Nat.not_lt.1 hk
      obtain ⟨h, hat, hkind⟩ := new x hx hk
      have hlt := (List.getElem?_eq_some_iff.1 hat).1
      refine Or.inr ⟨hk, by rw [nextKey_merge]; omega, fun g hg hkey => ?_⟩
      obtain ⟨h', hat', hkind'⟩ := new g hg (hkey ▸ hk)
      rw [hkey, hat] at hat'
      cases hat'
      obtain ⟨gkind, gkey⟩ := g
      obtain ⟨xkind, xkey⟩ := x
      cases hkey
      cases hkind.symm.trans hkind'
      rfl

end Network

/-! ## All operations -/

namespace RoadMap

open Network

variable {m : RoadMap}

/-- what a draw does: the network stays, and the counter does not go back -/
theorem freshId?_keeps {m' : RoadMap} {id : ElementId} (h : m.freshId? = some (id, m')) :
    m'.network = m.network ∧ m.ids.watermark ≤ m'.ids.watermark := by
  obtain ⟨hnetwork, ⟨-, hmark⟩ | ⟨-, hids, -⟩⟩ := freshId?_cases h
  · exact ⟨hnetwork, by omega⟩
  · exact ⟨hnetwork, by rw [hids]⟩

theorem perform_freshId (m : RoadMap) : m.perform .freshId = m ∨
    ∃ id m', m.freshId? = some (id, m') ∧ m.perform .freshId = m' := by
  cases hdraw : m.freshId? with
  | none => exact Or.inl (by simp only [perform, hdraw])
  | some d => exact Or.inr ⟨d.1, d.2, rfl, by simp only [perform, hdraw]⟩

theorem perform_reassignId (m : RoadMap) (h : Handle) : m.perform (.reassignId h) = m ∨
    ∃ old id drawn, m.network.idOf? h = some old ∧ m.freshId? = some (id, drawn) ∧
      m.perform (.reassignId h) = ⟨drawn.network.setId h id, drawn.ids⟩ := by
  cases hr : m.reassignId? h with
  | none => exact Or.inl (by simp only [perform, hr])
  | some d =>
    obtain ⟨⟨old, hold⟩, drawn, hdraw, heq⟩ := exists_of_reassignId? hr
    exact Or.inr ⟨old, d.1, drawn, hold, hdraw, by simp only [perform, hr, heq]⟩

/-- **Keys.** Every operation lets the network evolve. -/
theorem evolves_perform (hn : m.network.Keyed) (op : Operation) : m.network.Evolves (m.perform op).network := by
  cases op with
  | add e => exact evolves_add hn e
  | remove h => exact (trims_remove _ h).evolves
  | link pred succ => exact (trims_link _ pred succ).evolves
  | unlink pred succ => exact (trims_unlink _ pred succ).evolves
  | linkAdjacent left right sameDirection => exact (trims_linkAdjacent _ left right sameDirection).evolves
  | edit h f => exact evolves_edit _ h f
  | declare external => exact ⟨Nat.le_refl _, fun _ hh => Or.inl hh⟩
  | merge scope copy => exact evolves_merge hn scope copy
  | freshId =>
    obtain heq | ⟨id, m', hdraw, heq⟩ := m.perform_freshId
    · rw [heq]
      exact .refl _
    · rw [heq, (freshId?_keeps hdraw).1]
      exact .refl _
  | reassignId h =>
    obtain heq | ⟨old, id, drawn, -, hdraw, heq⟩ := m.perform_reassignId h
    · rw [heq]
      exact .refl _
    · rw [heq, ← (freshId?_keeps hdraw).1]
      exact .of_rewrites (rewrites_setId _ h id)

theorem Keyed.perform (hn : m.network.Keyed) (op : Operation) : (m.perform op).network.Keyed :=
  (evolves_perform hn op).keyed hn

/-- **The counter** never goes back. -/
theorem watermark_perform (m : RoadMap) (op : Operation) : m.ids.watermark ≤ (m.perform op).ids.watermark := by
  cases op with
  | add e => exact (m.ids.watermark_observe e.id).1
  | merge scope copy => exact (IdAllocator.watermark_observeAll _ _).1
  | freshId =>
    obtain heq | ⟨id, m', hdraw, heq⟩ := m.perform_freshId
    · rw [heq]
    · rw [heq]
      exact (freshId?_keeps hdraw).2
  | reassignId h =>
    obtain heq | ⟨old, id, drawn, -, hdraw, heq⟩ := m.perform_reassignId h
    · rw [heq]
    · rw [heq]
      exact (freshId?_keeps hdraw).2
  | _ => exact Nat.le_refl _

theorem counted_of_trims {n : Network} (h : m.network.Trims n) (hm : m.Counted) : Counted ⟨n, m.ids⟩ :=
  fun x id hid => hm x id (h.kept hid)

/-- **Ids.** After an operation that writes no ids by hand all ids count as used, if they did before. -/
theorem counted_perform (hm : m.Counted) {op : Operation} (hop : op.KeepsIds) : (m.perform op).Counted := by
  cases op with
  | add e => exact counted_add hm e
  | remove h => exact counted_of_trims (trims_remove _ h) hm
  | link pred succ => exact counted_of_trims (trims_link _ pred succ) hm
  | unlink pred succ => exact counted_of_trims (trims_unlink _ pred succ) hm
  | linkAdjacent left right sameDirection => exact counted_of_trims (trims_linkAdjacent _ left right sameDirection) hm
  | edit h f => exact counted_of_trims (trims_edit _ h hop) hm
  | declare external => exact hm
  | merge scope copy => exact counted_merge m scope copy
  | freshId =>
    obtain heq | ⟨id, m', hdraw, heq⟩ := m.perform_freshId
    · rw [heq]
      exact hm
    · obtain ⟨hnetwork, hmark, -, -⟩ := freshId?_spec hm hdraw
      rw [heq]
      exact fun x id hid => Nat.lt_of_lt_of_le (hm x id (hnetwork ▸ hid)) hmark
  | reassignId h =>
    obtain heq | ⟨old, id, drawn, hold, hdraw, heq⟩ := m.perform_reassignId h
    · rw [heq]
      exact hm
    · obtain ⟨hnetwork, hmark, hfresh, -⟩ := freshId?_spec hm hdraw
      rw [heq]
      intro x i hx
      rw [hnetwork, idOf?_setId hold] at hx
      split_ifs at hx
      · exact Option.some.inj hx ▸ hfresh
      · exact Nat.lt_of_lt_of_le (hm x i hx) hmark

end RoadMap

/-! ## Histories -/

namespace Network

/-- the networks that operations and copies lead to, with whatever counter -/
inductive Built : Network → Prop
  | empty : Built {}
  | perform {n : Network} (h : Built n) (ids : IdAllocator) (op : Operation) :
      Built (RoadMap.perform ⟨n, ids⟩ op).network
  | extract {n : Network} (h : Built n) (s : Scope) : Built (n.extract s)

theorem Built.keyed {n : Network} (h : Built n) : n.Keyed := by
  induction h with
  | empty => exact keyed_empty
  | perform _ ids op ih => exact RoadMap.Keyed.perform (m := ⟨_, ids⟩) ih op
  | extract _ s ih => exact ih.extract s

theorem built_ofDocument (d : Document) : Built (RoadMap.ofDocument d).network :=
  RoadMap.ofDocument_induction (P := fun m => Built m.network) .empty (fun m e hm => hm.perform m.ids (.add e)) d

/-- what a network comes to by operations, with whatever counter -/
inductive Descends (n₀ : Network) : Network → Prop
  | refl : Descends n₀ n₀
  | perform {n : Network} (h : Descends n₀ n) (ids : IdAllocator) (op : Operation) :
      Descends n₀ (RoadMap.perform ⟨n, ids⟩ op).network

theorem Descends.evolves {n₀ n : Network} (hn : n₀.Keyed) (h : Descends n₀ n) : Evolves n₀ n := by
  induction h with
  | refl => exact .refl n₀
  | perform _ ids op ih => exact ih.trans (RoadMap.evolves_perform (m := ⟨_, ids⟩) (ih.keyed hn) op)

/-- **A key is given out once.** The next key is one that no element ever had. -/
theorem Descends.key_lt {n₀ n : Network} (hn : n₀.Keyed) (h : Descends n₀ n) {x : Handle} (hx : x ∈ n₀.allHandles) :
    x.key < n.nextKey := Nat.lt_of_lt_of_le (hn.below x hx) (h.evolves hn).nextKey

end Network

end RoadRules
