/-
Networks put together from pieces that were repaired on their own.

- `pieced_mergeAll`: pieces that cover a network and share nothing but intersections can be written back one after the
  other (`Pieced`).
- `Pieced.pair`: two lanelets of the outcome are those of one piece, or have the links towards each other that they had
  before (`AlikeTowards`).
- `Pieced.violates`: a violation of the outcome is one of a piece, or is due to a reference that has come to dangle,
  or is about a link between lanelets of different pieces and was there before (`ViolatesAcross`).
-/
import RoadRules.Proofs.Network.Referrers
import RoadRules.Proofs.Run.Round

namespace RoadRules

/-- only rules of the general topic forbid shared ids -/
theorem RuleId.general_of_fault {r : RuleId} {kind : Kind} (h : r.fault = .shared kind) : r.topic = .general := by
  cases r <;> first | rfl | cases h

/-- a lanelet and a later version of it, with the same id and the same links towards another id -/
structure Lanelet.AlikeTowards (other : ElementId) (l l' : Lanelet) : Prop where
  id : l.id = l'.id
  predecessors : other ∈ l'.predecessors ↔ other ∈ l.predecessors
  successors : other ∈ l'.successors ↔ other ∈ l.successors

namespace Network

/-- a rule on links is broken by two lanelets that no scope holds together -/
def ViolatesAcross (n : Network) (scopes : List Scope) (v : Violation) : Prop :=
  ∃ x y l k, n.element? x = some (.lanelet l) ∧ n.element? y = some (.lanelet k) ∧
    (∀ s ∈ scopes, ¬ (s.Has x ∧ s.Has y)) ∧
    match v.rule.fault with
    | .unanswered there back => k.id ∈ there l ∧ ¬ l.id ∈ back k ∧ v.location = [l.id]
    | .bothWays => k.id ∈ l.predecessors ∧ k.id ∈ l.successors ∧ v.location = [l.id, k.id]
    | _ => False

/-! ## Writing pieces back -/

/-- scopes with edited copies of them -/
abbrev Pieces := List (Scope × Network)

/-- pieces written back one after the other -/
def mergeAll (n : Network) (pieces : Pieces) : Network := pieces.foldl (fun m q => m.merge q.1 q.2) n

/-- Each element of `m` is as in a piece of `n`, and those of a piece are in `m`. Of an intersection there may be
several versions. -/
structure Pieced (n m : Network) (pieces : Pieces) : Prop where
  external : m.external = n.external
  drift : ∀ q ∈ pieces, Drift (Plan.Present (n.extract q.1)) (n.extract q.1) q.2
  bearers : ∀ q ∈ pieces, ∀ {x y : Handle} {id : ElementId}, y.kind = x.kind → q.1.Has x → n.idOf? x = some id →
    n.idOf? y = some id → q.1.Has y
  piece : ∀ {x e}, m.element? x = some e → ∃ q ∈ pieces, q.2.element? x = some e
  inside : ∀ q ∈ pieces, ∀ {x : Handle}, x.kind ≠ .intersection → q.1.Has x → m.element? x = q.2.element? x

section MergeAll

variable {n : Network} {pieces : Pieces}

theorem external_mergeAll (n : Network) (pieces : Pieces) : (n.mergeAll pieces).external = n.external := by
  induction pieces generalizing n with
  | nil => rfl
  | cons q pieces ih => exact ih (n.merge q.1 q.2)

section Inside

variable (hin : ∀ q ∈ pieces, ∀ x id, q.2.idOf? x = some id → q.1.Has x)

include hin

/-- what is in no piece stays as it is -/
theorem element?_mergeAll_outside {x : Handle} (hx : ∀ q ∈ pieces, ¬ q.1.Has x) :
    (n.mergeAll pieces).element? x = n.element? x := by
  induction pieces generalizing n with
  | nil => rfl
  | cons q pieces ih =>
    have hmerge := element?_merge_of_inside (n := n) (hin q List.mem_cons_self) x
    rw [if_neg (hx q List.mem_cons_self)] at hmerge
    exact (ih (fun q hq => hin q (List.mem_cons_of_mem _ hq)) fun q hq => hx q (List.mem_cons_of_mem _ hq)).trans hmerge

/-- what is there afterwards comes from a piece, or is in none -/
theorem element?_of_mergeAll {x : Handle} {e : Element} (he : (n.mergeAll pieces).element? x = some e) :
    (∃ q ∈ pieces, q.2.element? x = some e) ∨ n.element? x = some e ∧ ∀ q ∈ pieces, ¬ q.1.Has x := by
  induction pieces generalizing n with
  | nil => exact Or.inr ⟨he, fun q hq => absurd hq List.not_mem_nil⟩
  | cons q pieces ih =>
    rcases ih (fun q hq => hin q (List.mem_cons_of_mem _ hq)) he with ⟨p, hp, hpe⟩ | ⟨hm, hrest⟩
    · exact Or.inl ⟨p, List.mem_cons_of_mem _ hp, hpe⟩
    · rw [element?_merge_of_inside (hin q List.mem_cons_self)] at hm
      split_ifs at hm with hx
      · obtain ⟨-, -, hqe⟩ := Option.bind_eq_some_iff.1 hm
        exact Or.inl ⟨q, List.mem_cons_self, hqe⟩
      · refine Or.inr ⟨hm, fun p hp => ?_⟩
        rcases List.mem_cons.1 hp with rfl | hp
        · exact hx
        · exact hrest p hp

/-- an element that only one piece has becomes what it is there, unless the network does not have it -/
theorem element?_mergeAll_inside {x : Handle} (hd : pieces.Pairwise fun p q => p.1.Has x → ¬ q.1.Has x)
    {q : Scope × Network} (hq : q ∈ pieces) (hx : q.1.Has x) :
    (n.mergeAll pieces).element? x = (n.element? x).bind fun _ => q.2.element? x := by
  induction pieces generalizing n with
  | nil => cases hq
  | cons p pieces ih =>
    obtain ⟨hp, hd⟩ := List.pairwise_cons.1 hd
    have hmerge := element?_merge_of_inside (n := n) (hin p List.mem_cons_self) x
    have hin' : ∀ q ∈ pieces, ∀ x id, q.2.idOf? x = some id → q.1.Has x := fun q hq => hin q (List.mem_cons_of_mem _ hq)
    rcases List.mem_cons.1 hq with rfl | hq
    · rw [if_pos hx] at hmerge
      exact (element?_mergeAll_outside hin' fun q' hq' => hp q' hq' hx).trans hmerge
    · rw [if_neg fun hpx => hp q hq hpx hx] at hmerge
      rw [← hmerge]
      exact ih hin' hd hq

end Inside

/-- **Pieces written back.** -/
theorem pieced_mergeAll (hdrift : ∀ q ∈ pieces, Drift (Plan.Present (n.extract q.1)) (n.extract q.1) q.2)
    (hbearers : ∀ q ∈ pieces, ∀ {x y : Handle} {id : ElementId}, y.kind = x.kind → q.1.Has x → n.idOf? x = some id →
      n.idOf? y = some id → q.1.Has y)
    (hcover : ∀ x id, n.idOf? x = some id → ∃ q ∈ pieces, q.1.Has x)
    (hdisjoint : pieces.Pairwise fun p q => ∀ x : Handle, x.kind ≠ .intersection → p.1.Has x → ¬ q.1.Has x) :
    Pieced n (n.mergeAll pieces) pieces := by
  have hin : ∀ q ∈ pieces, ∀ x id, q.2.idOf? x = some id → q.1.Has x ∧ n.idOf? x = some id := fun q hq x id hid =>
    idOf?_of_extract ((hdrift q hq).kept hid)
  have hin' : ∀ q ∈ pieces, ∀ x id, q.2.idOf? x = some id → q.1.Has x := fun q hq x id hid => (hin q hq x id hid).1
  refine ⟨external_mergeAll n pieces, hdrift, hbearers, fun {x e} he => ?_, fun q hq x hk hx => ?_⟩
  · rcases element?_of_mergeAll hin' he with h | ⟨hn, hout⟩
    · exact h
    · obtain ⟨q, hq, hx⟩ := hcover x _ (idOf?_of_element? hn)
      exact absurd hx (hout q hq)
  · rw [element?_mergeAll_inside hin' (hdisjoint.imp fun h => h x hk) hq hx]
    cases hqe : q.2.element? x with
    | none => cases n.element? x <;> rfl
    | some e =>
      obtain ⟨-, hid⟩ := hin q hq x _ (idOf?_of_element? hqe)
      obtain ⟨e₀, he₀, -⟩ := exists_element hid
      rw [he₀]; rfl

end MergeAll

/-! ## Violations of the outcome -/

namespace Pieced

variable {n m : Network} {pieces : Pieces} (h : Pieced n m pieces)

include h

theorem has {q : Scope × Network} (hq : q ∈ pieces) {x : Handle} {id : ElementId} (hid : q.2.idOf? x = some id) :
    q.1.Has x ∧ n.idOf? x = some id := idOf?_of_extract ((h.drift q hq).kept hid)

/-- ids are those of before -/
theorem kept {x : Handle} {id : ElementId} (hid : m.idOf? x = some id) : n.idOf? x = some id := by
  obtain ⟨e, he, rfl⟩ := exists_element hid
  obtain ⟨q, hq, hqe⟩ := h.piece he
  exact (h.has hq (idOf?_of_element? hqe)).2

theorem unshared {p : Plan} (hn : p.Unshared n) : p.Unshared m := fun v hr hg hv =>
  hn v hr hg (shared_of_kept (fun _ _ hid => h.kept hid) hg hv)

/-- a lanelet has, towards a lanelet of no piece of its own, the links that it had before -/
theorem links {i j : Nat} {l k : Lanelet} (hl : m.lanelets.get? i = some l) (hk : m.lanelets.get? j = some k)
    (hout : ∀ q ∈ pieces, ¬ (i ∈ q.1.lanelets ∧ j ∈ q.1.lanelets)) :
    ∃ l₀, n.element? ⟨.lanelet, i⟩ = some (.lanelet l₀) ∧ l₀.AlikeTowards k.id l := by
  obtain ⟨q, hq, hqe⟩ := h.piece (element?_eq_lanelet.2 ⟨i, rfl, hl⟩)
  obtain ⟨_, hi, hql⟩ := element?_eq_lanelet.1 hqe
  cases hi
  obtain ⟨hx, hid⟩ := h.has hq (idOf?_of_element? hqe)
  obtain ⟨l₀, hl₀, hid₀⟩ := Option.map_eq_some_iff.1 hid
  have hkid : n.idOf? ⟨.lanelet, j⟩ = some k.id := h.kept (by rw [idOf?_lanelet, hk]; rfl)
  have absent : ¬ Plan.Present (n.extract q.1) .lanelet k.id := by
    intro hp
    obtain ⟨j', hj'⟩ := hasLocal_iff.1 hp
    obtain ⟨hjs, hj'⟩ := idOf?_of_extract hj'
    exact hout q hq ⟨hx, h.bearers q hq (x := ⟨.lanelet, j'⟩) (y := ⟨.lanelet, j⟩) rfl hjs hj' hkid⟩
  have before : (n.extract q.1).lanelets.get? i = some l₀ := by
    rw [get?_extract_lanelet, if_pos (show i ∈ q.1.lanelets from hx), hl₀]
  have resolves : (n.extract q.1).resolves .lanelet k.id = true := by
    rw [resolves_extract]
    exact resolves_iff.2 (Or.inr ⟨j, hkid⟩)
  obtain ⟨predecessors, successors⟩ := (h.drift q hq).links before hql k.id absent resolves
  exact ⟨l₀, element?_eq_lanelet.2 ⟨i, rfl, hl₀⟩, hid₀, predecessors, successors⟩

/-- **Two lanelets of what is put together.** They are those of one piece, or no piece has both of them, and then each
has the links towards the other that it had before. -/
theorem pair {x y : Handle} {l k : Lanelet} (hl : m.element? x = some (.lanelet l))
    (hk : m.element? y = some (.lanelet k)) :
    (∃ q ∈ pieces, q.2.element? x = some (.lanelet l) ∧ q.2.element? y = some (.lanelet k)) ∨
      (∀ s ∈ pieces.map (·.1), ¬ (s.Has x ∧ s.Has y)) ∧ ∃ l₀ k₀, n.element? x = some (.lanelet l₀) ∧
        n.element? y = some (.lanelet k₀) ∧ l₀.AlikeTowards k.id l ∧ k₀.AlikeTowards l.id k := by
  obtain ⟨i, rfl, hi⟩ := element?_eq_lanelet.1 hl
  obtain ⟨j, rfl, hj⟩ := element?_eq_lanelet.1 hk
  by_cases both : ∃ q ∈ pieces, i ∈ q.1.lanelets ∧ j ∈ q.1.lanelets
  · obtain ⟨q, hq, hiq, hjq⟩ := both
    rw [h.inside q hq (x := ⟨.lanelet, i⟩) nofun hiq] at hl
    rw [h.inside q hq (x := ⟨.lanelet, j⟩) nofun hjq] at hk
    exact Or.inl ⟨q, hq, hl, hk⟩
  · have hout : ∀ q ∈ pieces, ¬ (i ∈ q.1.lanelets ∧ j ∈ q.1.lanelets) := fun q hq hb => both ⟨q, hq, hb⟩
    obtain ⟨l₀, hl₀, alike⟩ := h.links hi hj hout
    obtain ⟨k₀, hk₀, alike'⟩ := h.links hj hi fun q hq hb => hout q hq hb.symm
    refine Or.inr ⟨fun s hs => ?_, l₀, k₀, hl₀, hk₀, alike, alike'⟩
    obtain ⟨q, hq, rfl⟩ := List.mem_map.1 hs
    exact hout q hq

/-- **Violations of what is put together.** -/
theorem violates {v : Violation} (hg : v.rule.topic ≠ .general) (hv : m.Violates v) :
    (∃ q ∈ pieces, ∃ l, q.2.Violates ⟨v.rule, l⟩) ∨ (∃ id ∈ v.location.head?, id ∈ m.danglingReferrers) ∨
      n.ViolatesAcross (pieces.map (·.1)) v := by
  obtain ⟨b, hat, hloc⟩ := hv
  have followed := v.rule.followed
  have left : ∀ q ∈ pieces, v.rule.fault.At q.2 b → ∃ q ∈ pieces, ∃ l, q.2.Violates ⟨v.rule, l⟩ := fun q hq hat =>
    ⟨q, hq, b.filterMap q.2.idOf?, b, hat, rfl⟩
  cases hf : v.rule.fault with
  | shared kind => exact absurd (RuleId.general_of_fault hf) hg
  | own wrong =>
    rw [hf] at hat left
    obtain ⟨x, e, rfl, he, hw⟩ := Fault.at_own.1 hat
    obtain ⟨q, hq, hqe⟩ := h.piece he
    exact Or.inl (left q hq (Fault.at_own.2 ⟨x, e, rfl, hqe, hw⟩))
  | missing kind refs =>
    rw [hf] at hat followed
    obtain ⟨x, e, rfl, he, ref, href, hno⟩ := Fault.at_missing.1 hat
    rw [List.filterMap_cons_some (idOf?_of_element? he)] at hloc
    refine Or.inr (Or.inl ⟨e.id, by rw [← hloc]; rfl, ?_⟩)
    exact mem_danglingReferrers.2 ⟨x, kind, ref, e, he, rfl, followed e ref href, hno⟩
  | unreferenced kind refs =>
    rw [hf] at hat left
    obtain ⟨x, id, rfl, hk, hid, hno⟩ := Fault.at_unreferenced.1 hat
    obtain ⟨e, he, rfl⟩ := exists_element hid
    obtain ⟨q, hq, hqe⟩ := h.piece he
    refine Or.inl (left q hq (Fault.at_unreferenced.2 ⟨x, e.id, rfl, hk, idOf?_of_element? hqe, fun y l hl hr => ?_⟩))
    obtain ⟨j, rfl, -⟩ := element?_eq_lanelet.1 hl
    refine hno ⟨.lanelet, j⟩ l ?_ hr
    rw [h.inside q hq (x := ⟨.lanelet, j⟩) nofun (h.has hq (idOf?_of_element? hl)).1, hl]
  | unanswered there back =>
    rw [hf] at hat left followed
    obtain ⟨x, l, rfl, hl, y, k, hk, hthere, hback⟩ := Fault.at_unanswered.1 hat
    rw [List.filterMap_cons_some (idOf?_of_element? hl)] at hloc
    rcases h.pair hl hk with ⟨q, hq, hlq, hkq⟩ | ⟨hout, l₀, k₀, hl₀, hk₀, alike, alike'⟩
    · exact Or.inl (left q hq (Fault.at_unanswered.2 ⟨x, l, rfl, hlq, y, k, hkq, hthere, hback⟩))
    · refine Or.inr (Or.inr ⟨x, y, l₀, k₀, hl₀, hk₀, hout, ?_⟩)
      rw [hf]
      dsimp only
      rw [alike.id, alike'.id, ← hloc]
      rcases followed with ⟨rfl, rfl⟩ | ⟨rfl, rfl⟩
      · exact ⟨alike.predecessors.1 hthere, mt alike'.successors.2 hback, rfl⟩
      · exact ⟨alike.successors.1 hthere, mt alike'.predecessors.2 hback, rfl⟩
  | bothWays =>
    rw [hf] at hat left
    obtain ⟨x, y, l, k, rfl, hl, hk, hp, hs⟩ := Fault.at_bothWays.1 hat
    rw [List.filterMap_cons_some (idOf?_of_element? hl), List.filterMap_cons_some (idOf?_of_element? hk)] at hloc
    rcases h.pair hl hk with ⟨q, hq, hlq, hkq⟩ | ⟨hout, l₀, k₀, hl₀, hk₀, alike, alike'⟩
    · exact Or.inl (left q hq (Fault.at_bothWays.2 ⟨x, y, l, k, rfl, hlq, hkq, hp, hs⟩))
    · refine Or.inr (Or.inr ⟨x, y, l₀, k₀, hl₀, hk₀, hout, ?_⟩)
      rw [hf]
      dsimp only
      rw [alike.id, alike'.id, ← hloc]
      exact ⟨alike.predecessors.1 hp, alike.successors.1 hs, rfl⟩

end Pieced

end Network

end RoadRules
