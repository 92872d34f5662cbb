/-
Edits after which no reference dangles that did not dangle before.

An edit is tidy (`Tidy`) if elements keep their ids or go, and every reference that dangles afterwards did so before,
at the same element. Tidiness composes, so it is enough to look at single steps:

- `Tidy.remove`: a removal takes away the id of one element. Where the id still resolves nothing has come to dangle, and
  where it does not all references to it go too.
- `Tidy.of_rewrites`: a step that keeps all ids is tidy if each element gains no reference but those that resolve
  (`Element.Gains`).
- `tidy_fixAll`, `tidy_complete`, `tidy_breakTwoWayLinks`, `tidy_attach`: the forms of repairs.
- `tidyDecision_of_decides`: the decisions that repairs make about elements.

`danglingReferrers_shrink` puts these together for all removals and for all repairs that hand out no ids.
-/
import RoadRules.Proofs.Network.Referrers
import RoadRules.Proofs.Repair.Cure
import RoadRules.Proofs.Repair.Decisions

namespace RoadRules

/-! ## What an element gains and what it forgets -/

/-- another version of an element, with no reference that is new to it but those that resolve -/
structure Element.Gains (n : Network) (e e' : Element) : Prop where
  kind : e'.kind = e.kind
  id : e'.id = e.id
  refs : ∀ kind, ∀ ref ∈ e'.refs kind, n.resolves kind ref = true ∨ ref ∈ e.refs kind

/-- the same for a lanelet, field by field -/
structure Lanelet.Gains (n : Network) (l l' : Lanelet) : Prop where
  id : l'.id = l.id
  predecessors : ∀ o ∈ l'.predecessors, n.resolves .lanelet o = true ∨ o ∈ l.predecessors
  successors : ∀ o ∈ l'.successors, n.resolves .lanelet o = true ∨ o ∈ l.successors
  adjacentLeft : ∀ a, l'.adjacentLeft = some a → l.adjacentLeft = some a
  adjacentRight : ∀ a, l'.adjacentRight = some a → l.adjacentRight = some a
  trafficSigns : ∀ o ∈ l'.trafficSignRefs, n.resolves .trafficSign o = true ∨ o ∈ l.trafficSignRefs
  trafficLights : ∀ o ∈ l'.trafficLightRefs, n.resolves .trafficLight o = true ∨ o ∈ l.trafficLightRefs

theorem Lanelet.Gains.refl (n : Network) (l : Lanelet) : l.Gains n l where
  id := rfl
  predecessors _ h := Or.inr h
  successors _ h := Or.inr h
  adjacentLeft _ h := h
  adjacentRight _ h := h
  trafficSigns _ h := Or.inr h
  trafficLights _ h := Or.inr h

/-- another stop line, which refers to nothing that the one before did not -/
theorem Lanelet.Gains.of_stopLine (n : Network) (l : Lanelet) {f : StopLine → StopLine}
    (hsigns : ∀ s, l.stopLine = some s → ∀ o ∈ (f s).trafficSigns, o ∈ s.trafficSigns)
    (hlights : ∀ s, l.stopLine = some s → ∀ o ∈ (f s).trafficLights, o ∈ s.trafficLights) :
    l.Gains n { l with stopLine := l.stopLine.map f } := by
  refine { Lanelet.Gains.refl n l with trafficSigns := fun o ho => Or.inr ?_, trafficLights := fun o ho => Or.inr ?_ }
  · rw [Lanelet.mem_trafficSignRefs] at ho ⊢
    refine ho.imp_right fun hline => ?_
    obtain ⟨s', hs', ho⟩ := hline
    obtain ⟨s, hs, rfl⟩ := Option.map_eq_some_iff.1 hs'
    exact ⟨s, hs, hsigns s hs o ho⟩
  · rw [Lanelet.mem_trafficLightRefs] at ho ⊢
    refine ho.imp_right fun hline => ?_
    obtain ⟨s', hs', ho⟩ := hline
    obtain ⟨s, hs, rfl⟩ := Option.map_eq_some_iff.1 hs'
    exact ⟨s, hs, hlights s hs o ho⟩

theorem Lanelet.Gains.of_erase (n : Network) (l : Lanelet) (id : ElementId) :
    l.Gains n { l with predecessors := l.predecessors.erase id } :=
  { Lanelet.Gains.refl n l with predecessors := fun _ ho => Or.inr (SortedSet.mem_erase.1 ho).1 }

theorem Lanelet.Gains.of_redrawn (n : Network) {l l' : Lanelet} (h : l.Redrawn l') : l.Gains n l' := by
  obtain ⟨left, right, rfl⟩ := h
  unfold recentred
  split_ifs <;> exact { Lanelet.Gains.refl n l with }

namespace Element

variable {n : Network} {e e' e'' : Element}

theorem Gains.refl (n : Network) (e : Element) : e.Gains n e := ⟨rfl, rfl, fun _ _ h => Or.inr h⟩

theorem Gains.trans (h : e.Gains n e') (h' : e'.Gains n e'') : e.Gains n e'' where
  kind := h'.kind.trans h.kind
  id := h'.id.trans h.id
  refs kind ref href := (h'.refs kind ref href).elim Or.inl (h.refs kind ref)

theorem Gains.of_lanelet {l l' : Lanelet} (h : l.Gains n l') : (lanelet l).Gains n (lanelet l') where
  kind := rfl
  id := h.id
  refs kind ref href := by
    cases kind with
    | lanelet =>
      change _ ∨ ref ∈ l.linkedLanelets
      rw [Lanelet.mem_linkedLanelets]
      rcases Lanelet.mem_linkedLanelets.1 href with href | href | ⟨a, ha, hid⟩ | ⟨a, ha, hid⟩
      · exact (h.predecessors ref href).imp_right Or.inl
      · exact (h.successors ref href).imp_right (Or.inr ∘ Or.inl)
      · exact Or.inr (Or.inr (Or.inr (Or.inl ⟨a, h.adjacentLeft a ha, hid⟩)))
      · exact Or.inr (Or.inr (Or.inr (Or.inr ⟨a, h.adjacentRight a ha, hid⟩)))
    | trafficSign => exact h.trafficSigns ref href
    | trafficLight => exact h.trafficLights ref href
    | intersection => cases href

/-- signs refer to nothing -/
theorem Gains.of_trafficSign {s s' : TrafficSign} (h : s'.id = s.id) : (trafficSign s).Gains n (trafficSign s') :=
  ⟨rfl, h, fun _ _ href => nomatch href⟩

/-- lights refer to nothing -/
theorem Gains.of_trafficLight {t t' : TrafficLight} (h : t'.id = t.id) : (trafficLight t).Gains n (trafficLight t') :=
  ⟨rfl, h, fun _ _ href => nomatch href⟩

theorem Gains.of_intersection {i i' : Intersection} (hid : i'.id = i.id)
    (hrefs : ∀ ref ∈ i'.lanelets, n.resolves .lanelet ref = true ∨ ref ∈ i.lanelets) :
    (intersection i).Gains n (intersection i') where
  kind := rfl
  id := hid
  refs kind ref href := by
    cases kind with
    | lanelet => exact hrefs ref href
    | _ => cases href

end Element

/-! ## What a removal leaves -/

namespace Network

variable {n : Network} {x y : Handle} {gone : ElementId}

/-- an element that is left is as it was, or has forgotten the id -/
theorem element?_of_remove (hx : n.idOf? x = some gone) {e' : Element} (he' : (n.remove x).element? y = some e') :
    ∃ e, n.element? y = some e ∧ ((n.discard x).resolves x.kind gone = true ∧ e' = e ∨
      (n.discard x).resolves x.kind gone = false ∧ e' = e.forget x.kind gone) := by
  rw [(rewrites_remove hx).element] at he'
  obtain ⟨e, he, hrw⟩ := Option.bind_eq_some_iff.1 he'
  unfold Rewrite.removal at hrw
  split_ifs at hrw with hy hstays
  · exact ⟨e, he, Or.inl ⟨hstays, (Option.some.inj hrw).symm⟩⟩
  · exact ⟨e, he, Or.inr ⟨by simpa using hstays, (Option.some.inj hrw).symm⟩⟩

/-- forgetting references does not change what resolves -/
theorem resolves_remove (hx : n.idOf? x = some gone) (kind : Kind) (id : ElementId) :
    (n.remove x).resolves kind id = (n.discard x).resolves kind id := by
  refine resolves_congr (fun y => ?_) ((rewrites_remove hx).external.trans (n.external_discard x).symm) kind id
  rw [remove_eq hx]
  split_ifs
  · rfl
  · rw [idOf?_eq, idOf?_eq, element?_scrub, Option.map_map]
    exact congrArg (fun f => Option.map f _) (funext fun e => e.id_forget _ _)

/-- only references to the element that goes may cease to resolve -/
theorem resolves_discard {kind : Kind} {id : ElementId} (h : n.resolves kind id = true) :
    (n.discard x).resolves kind id = true ∨ kind = x.kind ∧ n.idOf? x = some id := by
  rw [resolves_iff, external_discard]
  rcases resolves_iff.1 h with h | ⟨k, hk⟩
  · exact Or.inl (Or.inl h)
  · by_cases hx : ⟨kind, k⟩ = x
    · subst hx
      exact Or.inr ⟨rfl, hk⟩
    · refine Or.inl (Or.inr ⟨k, ?_⟩)
      rw [idOf?_eq, element?_discard, if_neg hx, ← idOf?_eq, hk]

/-! ## Tidy steps -/

/-- elements keep their ids or go, and what dangles afterwards did so before -/
structure Tidy (a b : Network) : Prop where
  kept : ∀ {x id}, b.idOf? x = some id → a.idOf? x = some id
  dangling : ∀ {x id kind ref}, b.DanglesAt x id kind ref → a.DanglesAt x id kind ref

namespace Tidy

variable {a b c : Network}

theorem refl (a : Network) : Tidy a a := ⟨fun h => h, fun h => h⟩

theorem trans (h : Tidy a b) (h' : Tidy b c) : Tidy a c :=
  ⟨fun hid => h.kept (h'.kept hid), fun hd => h.dangling (h'.dangling hd)⟩

theorem danglingReferrers (h : Tidy a b) {id : ElementId} (hid : id ∈ b.danglingReferrers) :
    id ∈ a.danglingReferrers := by
  obtain ⟨x, kind, ref, hd⟩ := mem_danglingReferrers.1 hid
  exact mem_danglingReferrers.2 ⟨x, kind, ref, h.dangling hd⟩

/-- **Steps that keep all ids.** Nothing is gained but references that resolve, and what resolves stays the same. -/
theorem of_rewrites {f : Rewrite} (hf : Rewrites f a b)
    (h : ∀ x e, a.element? x = some e → ∃ e', f x e = some e' ∧ e.Gains a e') : Tidy a b := by
  have hids : ∀ x, b.idOf? x = a.idOf? x := hf.idOf? fun x e he => by
    obtain ⟨e', hfe, gains⟩ := h x e he
    exact ⟨e', hfe, gains.id⟩
  have hresolves := resolves_congr hids hf.external
  refine ⟨fun hid => hids _ ▸ hid, fun {x id kind ref} hd => ?_⟩
  obtain ⟨e', he', hid, href, hno⟩ := hd
  rw [hf.element] at he'
  obtain ⟨e, he, hfe⟩ := Option.bind_eq_some_iff.1 he'
  obtain ⟨e'', hfe', gains⟩ := h x e he
  cases hfe.symm.trans hfe'
  rw [hresolves] at hno
  rcases gains.refs kind ref href with hyes | href
  · rw [hyes] at hno
    cases hno
  · exact ⟨e, he, gains.id.symm.trans hid, href, hno⟩

/-- another version of one element -/
theorem replace {x : Handle} {e e' : Element} (he : a.element? x = some e) (h : e.Gains a e') :
    Tidy a (a.replace x.key e') := by
  refine of_rewrites (a.rewrites_replace (h.kind.trans (kind_of_element? he))) fun y e₀ he₀ => ⟨_, rfl, ?_⟩
  split_ifs with hy
  · subst hy
    cases he.symm.trans he₀
    exact h
  · exact .refl a e₀

/-- a change of a lanelet under one key, seen on any element -/
theorem gains_only {x y : Handle} {g : Lanelet → Lanelet}
    (hg : ∀ l, (Element.lanelet l).Gains a (.lanelet (g l))) (e : Element) :
    e.Gains a (if y = x then e.onLanelet g else e) := by
  split_ifs
  · cases e with
    | lanelet l => exact hg l
    | _ => exact .refl a _
  · exact .refl a e

/-- another version of one lanelet -/
theorem modify {g : Lanelet → Lanelet} (hg : ∀ l, (Element.lanelet l).Gains a (.lanelet (g l))) (key : Nat) :
    Tidy a { a with lanelets := a.lanelets.modify key g } :=
  of_rewrites (a.rewrites_modifyLanelet key g) fun _ e _ => ⟨_, rfl, gains_only hg e⟩

/-- **Links.** Both ids of a link are those of lanelets that are there. -/
theorem link (a : Network) (pred succ : Nat) : Tidy a (a.link pred succ) := by
  cases hp : a.lanelets.get? pred with
  | none => simpa only [Network.link, hp] using refl a
  | some p =>
    cases hs : a.lanelets.get? succ with
    | none => simpa only [Network.link, hp, hs] using refl a
    | some s =>
      have there : ∀ {k l}, a.lanelets.get? k = some l → a.resolves .lanelet l.id = true := fun {k l} hl =>
        resolves_iff.2 (Or.inr ⟨k, by rw [idOf?_lanelet, hl]; rfl⟩)
      have forth : ∀ l : Lanelet, l.Gains a { l with successors := l.successors.insert s.id } := fun l =>
        { Lanelet.Gains.refl a l with
          successors := fun o ho => (SortedSet.mem_insert.1 ho).imp_left (by rintro rfl; exact there hs) }
      have back : ∀ l : Lanelet, l.Gains a { l with predecessors := l.predecessors.insert p.id } := fun l =>
        { Lanelet.Gains.refl a l with
          predecessors := fun o ho => (SortedSet.mem_insert.1 ho).imp_left (by rintro rfl; exact there hp) }
      exact of_rewrites (rewrites_link hp hs) fun x e _ =>
        ⟨_, rfl, (gains_only (fun l => .of_lanelet (forth l)) e).trans (gains_only (fun l => .of_lanelet (back l)) _)⟩

theorem unlink (a : Network) (pred succ : Nat) : Tidy a (a.unlink pred succ) := by
  cases hp : a.lanelets.get? pred with
  | none => simpa only [Network.unlink, hp] using refl a
  | some p =>
    cases hs : a.lanelets.get? succ with
    | none => simpa only [Network.unlink, hp, hs] using refl a
    | some s =>
      have forth : ∀ l : Lanelet, l.Gains a { l with successors := l.successors.erase s.id } := fun l =>
        { Lanelet.Gains.refl a l with successors := fun o ho => Or.inr (SortedSet.mem_erase.1 ho).1 }
      have back : ∀ l : Lanelet, l.Gains a { l with predecessors := l.predecessors.erase p.id } :=
        (Lanelet.Gains.of_erase a · p.id)
      exact of_rewrites (rewrites_unlink hp hs) fun x e _ =>
        ⟨_, rfl, (gains_only (fun l => .of_lanelet (forth l)) e).trans (gains_only (fun l => .of_lanelet (back l)) _)⟩

theorem forgetPredecessor (a : Network) (key : Nat) (id : ElementId) : Tidy a (a.forgetPredecessor key id).network :=
  modify (fun l => .of_lanelet (.of_erase a l id)) key

/-- **Removals.** Only one id may cease to resolve, and then no reference to it is left. -/
theorem remove (a : Network) (x : Handle) : Tidy a (a.remove x) := by
  cases hx : a.idOf? x with
  | none =>
    rw [remove_of_absent (Option.map_eq_none_iff.1 (a.idOf?_eq x ▸ hx))]
    exact refl a
  | some gone =>
    refine ⟨fun hid => ?_, fun {y id kind ref} hd => ?_⟩
    · obtain ⟨e', he', rfl⟩ := exists_element hid
      obtain ⟨e, he, hbecame⟩ := element?_of_remove hx he'
      rcases hbecame with ⟨-, rfl⟩ | ⟨-, rfl⟩
      · exact idOf?_of_element? he
      · rw [Element.id_forget]
        exact idOf?_of_element? he
    · obtain ⟨e', he', hid, href, hno⟩ := hd
      obtain ⟨e, he, hbecame⟩ := element?_of_remove hx he'
      rw [resolves_remove hx] at hno
      have hmem : ref ∈ e.refs kind ∧ e.id = id := by
        rcases hbecame with ⟨-, rfl⟩ | ⟨-, rfl⟩
        · exact ⟨href, hid⟩
        · exact ⟨(Element.mem_refs_forget_iff.1 href).1, (e.id_forget _ _).symm.trans hid⟩
      refine ⟨e, he, hmem.2, hmem.1, ?_⟩
      -- otherwise the reference is one to the removed element, and would have been forgotten
      by_contra hyes
      rcases resolves_discard (x := x) (Bool.not_eq_false _ ▸ hyes) with hyes | ⟨rfl, hgone⟩
      · rw [hyes] at hno
        cases hno
      · cases hx.symm.trans hgone
        rcases hbecame with ⟨hstays, -⟩ | ⟨-, rfl⟩
        · rw [hstays] at hno
          cases hno
        · exact (Element.mem_refs_forget_iff.1 href).2 rfl rfl

end Tidy

/-! ## Forms of repairs -/

variable {n : Network}

theorem tidy_fixAll {fix : Network → Element → Fix Element}
    (hf : ∀ n e e', fix n e = .change e' → e.Gains n e') (n : Network) (kind : Kind) (id : ElementId) :
    Tidy n (n.fixAll kind id fix).network := by
  refine editEach_induction (P := Tidy n) _ (.refl n) fun b hb key _ => ?_
  simp only [fixOne, apply]
  cases he : b.element? ⟨kind, key⟩ with
  | none => exact hb
  | some e =>
    dsimp only
    cases hfix : fix b e with
    | keep => exact hb
    | change e' => exact hb.trans (.replace (x := ⟨kind, key⟩) he (hf b e e' hfix))
    | remove => exact hb.trans (.remove b _)

theorem tidy_complete {links : Lanelet → IdSet} {edit : Network → Nat → Nat → Edited} (hedit : MakesLinks edit)
    (n : Network) (id : ElementId) : Tidy n (n.complete links edit id).network := by
  refine editEach_induction (P := Tidy n) _ (.refl n) fun b hb key _ => ?_
  refine editEach_induction (P := Tidy n) _ hb fun c hc other _ => ?_
  rcases hedit c key other with h | ⟨pred, succ, h⟩
  · rw [h]
    exact hc
  · rw [h]
    exact hc.trans (.link c pred succ)

theorem tidy_breakTwoWayLinks (n : Network) (id other : ElementId) : Tidy n (n.breakTwoWayLinks id other).network := by
  refine editEach_induction (P := Tidy n) _ (.refl n) fun b hb key _ => ?_
  split_ifs
  · have unlinked : Tidy n (b.editEach (b.laneletsWithId other) fun n back =>
        ⟨n.unlink back key, n.canUnlink back key⟩).network :=
      editEach_induction (P := Tidy n) _ hb fun c hc back _ => hc.trans (.unlink c back key)
    exact unlinked.trans (.forgetPredecessor _ key other)
  · exact hb

/-- When a lanelet notes the id, the element with the id is still there. -/
theorem tidy_attach {kind : Kind} {noted : Lanelet → Bool} {note : Lanelet → Lanelet} {id : ElementId}
    (hnote : Lanelet.Notes kind id noted note) (n : Network) : Tidy n (n.attach kind noted note id).network := by
  unfold attach
  split_ifs
  · exact .refl n
  · refine editEach_induction (P := Tidy n) _ (.refl n) fun b hb key hkey => ?_
    split
    · next k hnear =>
      obtain ⟨p, hp, -⟩ := Option.bind_eq_some_iff.1 hnear
      obtain ⟨e, he, -⟩ := Option.bind_eq_some_iff.1 hp
      have hid := idOf?_of_element? he
      have hide : e.id = id := Option.some.inj ((hb.kept hid).symm.trans (mem_keysWithId.1 hkey))
      have hthere : b.resolves kind id = true := resolves_iff.2 (Or.inr ⟨key, hide ▸ hid⟩)
      have gains : ∀ l, (Element.lanelet l).Gains b (.lanelet (note l)) := by
        intro l
        refine ⟨rfl, hnote.noting.id l, fun k ref href => ?_⟩
        rcases (hnote.refs l k ref).1 href with ⟨rfl, rfl⟩ | href
        · exact Or.inl hthere
        · exact Or.inr href
      exact hb.trans (.modify gains k)
    · exact hb.trans (.remove b _)

/-! ## Decisions -/

/-- an intersection whose groups lead nowhere new but where something is -/
theorem gains_groups {i : Intersection} {groups : List IncomingGroup}
    (h : ∀ g' ∈ groups, ∃ g ∈ i.incomings, ∀ o ∈ g'.allLanelets, n.resolves .lanelet o = true ∨ o ∈ g.allLanelets) :
    ∀ ref ∈ ({ i with incomings := groups } : Intersection).lanelets,
      n.resolves .lanelet ref = true ∨ ref ∈ i.lanelets := by
  intro ref href
  rcases List.mem_append.1 href with href | href
  · obtain ⟨g', hg', href⟩ := List.mem_flatMap.1 href
    obtain ⟨g, hg, hrefs⟩ := h g' hg'
    refine (hrefs ref href).imp_right fun href => ?_
    exact List.mem_append.2 (Or.inl (List.mem_flatMap.2 ⟨g, hg, href⟩))
  · exact Or.inr (List.mem_append.2 (Or.inr href))

/-- what follows the lanelets of a group exists -/
theorem resolves_of_followers {g : IncomingGroup} {id : ElementId} (h : id ∈ n.followers g) :
    n.resolves .lanelet id = true := by
  obtain ⟨l, -, hid⟩ := List.mem_flatMap.1 (SortedSet.mem_ofList.1 h)
  exact (List.mem_filter.1 hid).2

end Network

namespace RuleId

/-- the rule is repaired by a decision about elements that lets them gain no reference but those that resolve -/
def TidyDecision (r : RuleId) : Prop :=
  ∃ kind fix, (∀ n e e', fix n e = .change e' → e.Gains n e') ∧
    ∀ (m : RoadMap) id rest, r.repairAt m id rest = m.edited (m.network.fixAll kind id fix)

open Network

/-- a decision about one sort of elements -/
theorem TidyDecision.of {r : RuleId} {α : Type} {mk : α → Element} {kind : Kind} {d : Network → α → Fix α}
    (h : r.DecidesBy mk kind d) (hchange : ∀ n a a', d n a = .change a' → (mk a).Gains n (mk a')) :
    r.TidyDecision := by
  obtain ⟨f, hf, hrepair⟩ := h
  refine ⟨kind, f, fun n e e' he => ?_, hrepair⟩
  obtain ⟨a, a', rfl, rfl, hd⟩ := hf.of_change he
  exact hchange n a a' hd

/-- dropping ids from one set of a lanelet -/
theorem TidyDecision.ofDropFrom {r : RuleId} (kind : Kind) (get : Lanelet → IdSet) (put : Lanelet → IdSet → Lanelet)
    (hrepair : ∀ (m : RoadMap) id rest, r.repairAt m id rest = m.edited (m.network.dropFrom id kind get put))
    (hput : ∀ (n : Network) (l : Lanelet) (ids : IdSet), (∀ o ∈ ids, o ∈ get l) → l.Gains n (put l ids)) :
    r.TidyDecision := by
  refine .of (.ofDropFrom kind get put hrepair) fun n l l' h => ?_
  rw [Lanelet.fixReferences_change h]
  exact .of_lanelet (hput n l _ fun o ho => (mem_resolving_iff.1 ho).1)

theorem tidyDecision_border {r : RuleId} (hr : r ∈ [sameVerticesSize, verticesMoreThanOne, polylinesSameDirection,
    leftSelfIntersection, rightSelfIntersection]) : r.TidyDecision := by
  fin_cases hr
  · exact .of (.ofLanelets (fun _ l => l.fixVertexCounts) fun _ _ _ => rfl) fun n l l' h =>
      .of_lanelet (.of_redrawn n (Lanelet.redrawn_of_fixVertexCounts h))
  · exact .of (.ofLanelets (fun _ l => l.fixDegenerate) fun _ _ _ => rfl) fun n l l' h =>
      absurd h Lanelet.fixDegenerate_ne_change
  · exact .of (.ofLanelets (fun _ l => l.fixDirection) fun _ _ _ => rfl) fun n l l' h =>
      .of_lanelet (.of_redrawn n (Lanelet.redrawn_of_fixDirection h))
  · exact .of (.ofLanelets (fun _ l => l.fixLoop .left) fun _ _ _ => rfl) fun n l l' h =>
      .of_lanelet (.of_redrawn n (Lanelet.redrawn_of_fixLoop h))
  · exact .of (.ofLanelets (fun _ l => l.fixLoop .right) fun _ _ _ => rfl) fun n l l' h =>
      .of_lanelet (.of_redrawn n (Lanelet.redrawn_of_fixLoop h))

theorem tidyDecision_adjacent {r : RuleId} (hr : r ∈ [existenceLeftAdj, existenceRightAdj]) : r.TidyDecision := by
  fin_cases hr
  · refine .of (.ofDropAdjacency .left fun _ _ _ => rfl) fun n l l' h => ?_
    rw [Lanelet.fixNeighbour_change h]
    exact .of_lanelet { Lanelet.Gains.refl n l with adjacentLeft := nofun }
  · refine .of (.ofDropAdjacency .right fun _ _ _ => rfl) fun n l l' h => ?_
    rw [Lanelet.fixNeighbour_change h]
    exact .of_lanelet { Lanelet.Gains.refl n l with adjacentRight := nofun }

theorem tidyDecision_references {r : RuleId} (hr : r ∈ [existencePredecessor, existenceSuccessor,
    existenceTrafficSigns, existenceTrafficLights]) : r.TidyDecision := by
  fin_cases hr
  · exact .ofDropFrom _ _ _ (fun _ _ _ => rfl) fun n l ids h =>
      { Lanelet.Gains.refl n l with predecessors := fun o ho => Or.inr (h o ho) }
  · exact .ofDropFrom _ _ _ (fun _ _ _ => rfl) fun n l ids h =>
      { Lanelet.Gains.refl n l with successors := fun o ho => Or.inr (h o ho) }
  · refine .ofDropFrom _ _ _ (fun _ _ _ => rfl) fun n l ids h =>
      { Lanelet.Gains.refl n l with trafficSigns := fun o ho => Or.inr ?_ }
    rw [Lanelet.mem_trafficSignRefs] at ho ⊢
    exact ho.imp_left (h o)
  · refine .ofDropFrom _ _ _ (fun _ _ _ => rfl) fun n l ids h =>
      { Lanelet.Gains.refl n l with trafficLights := fun o ho => Or.inr ?_ }
    rw [Lanelet.mem_trafficLightRefs] at ho ⊢
    exact ho.imp_left (h o)

theorem tidyDecision_stopLine {r : RuleId} (hr : r ∈ [existenceStopLineTrafficSigns, existenceStopLineTrafficLights,
    includedStopLineTrafficSigns]) : r.TidyDecision := by
  fin_cases hr
  · exact .ofDropFrom _ _ _ (fun _ _ _ => rfl) fun n l ids h =>
      .of_stopLine n l (fun s hs o ho => by simpa [hs] using h o ho) fun _ _ _ ho => ho
  · exact .ofDropFrom _ _ _ (fun _ _ _ => rfl) fun n l ids h =>
      .of_stopLine n l (fun _ _ _ ho => ho) fun s hs o ho => by simpa [hs] using h o ho
  · refine .of (.ofLanelets (fun _ l => l.fixStopLineSigns) fun _ _ _ => rfl) fun n l l' h => .of_lanelet ?_
    rw [Lanelet.fixStopLineSigns_change h]
    refine { Lanelet.Gains.refl n l with trafficSigns := fun o ho => Or.inr (List.mem_append.2 ?_) }
    rcases List.mem_append.1 ho with ho | ho
    · exact SortedSet.mem_insertAll.1 ho
    · exact Or.inr ho

theorem tidyDecision_trafficSign {r : RuleId} (hr : r ∈ [atLeastOneTrafficSignElement, givenAdditionalValue,
    validAdditionalValueSpeedSign]) : r.TidyDecision := by
  fin_cases hr
  · exact .of (.ofTrafficSigns (·.fixEmpty) fun _ _ _ => rfl) fun n s s' h => absurd h TrafficSign.fixEmpty_ne_change
  · exact .of (.ofTrafficSigns (·.fixMissingValues) fun _ _ _ => rfl) fun n s s' h =>
      .of_trafficSign (TrafficSign.id_of_fixMissingValues h)
  · exact .of (.ofTrafficSigns (·.fixSpeedValues) fun _ _ _ => rfl) fun n s s' h =>
      .of_trafficSign (TrafficSign.id_of_fixSpeedValues h)

theorem tidyDecision_trafficLight {r : RuleId} (hr : r ∈ [atLeastOneCycleElement, nonZeroDuration,
    uniqueStateInCycle]) : r.TidyDecision := by
  fin_cases hr
  · exact .of (.ofTrafficLights (·.fixEmpty) fun _ _ _ => rfl) fun n t t' h =>
      .of_trafficLight (TrafficLight.id_of_fixEmpty h)
  · exact .of (.ofTrafficLights (·.fixDurations) fun _ _ _ => rfl) fun n t t' h =>
      .of_trafficLight (TrafficLight.id_of_fixDurations h)
  · exact .of (.ofTrafficLights (·.fixRepeatedPhases) fun _ _ _ => rfl) fun n t t' h =>
      .of_trafficLight (TrafficLight.id_of_fixRepeatedPhases h)

theorem tidyDecision_intersection {r : RuleId} (hr : r ∈ [atLeastTwoIncomingElements, existenceIncomingLanelets,
    existenceSuccessorLanelets, atLeastOneRoadConnection, existenceCrossings]) : r.TidyDecision := by
  fin_cases hr
  · exact .of (.ofIntersections (fun _ i => i.fixUnderfull) fun _ _ _ => rfl) fun n i i' h =>
      absurd h Intersection.fixUnderfull_ne_change
  · refine .of (.ofIntersections Intersection.fixIncomings fun _ _ _ => rfl) fun n i i' h => ?_
    obtain ⟨groups, rfl, hgroups⟩ := Intersection.fixIncomings_change h
    refine .of_intersection rfl (gains_groups fun g' hg' => ?_)
    obtain ⟨g, hg, rfl⟩ := hgroups g' hg'
    refine ⟨g, hg, fun o ho => Or.inr (List.mem_append.2 ((List.mem_append.1 ho).imp_left fun ho => ?_))⟩
    exact (mem_resolving_iff.1 ho).1
  · refine .of (.ofIntersections Intersection.fixGroupSuccessors fun _ _ _ => rfl) fun n i i' h => ?_
    rw [Intersection.fixGroupSuccessors_change h]
    refine .of_intersection rfl (gains_groups fun g' hg' => ?_)
    obtain ⟨g, hg, rfl⟩ := List.mem_map.1 hg'
    refine ⟨g, hg, fun o ho => ?_⟩
    rcases List.mem_append.1 ho with ho | ho
    · exact Or.inr (List.mem_append.2 (Or.inl ho))
    · left
      rcases List.mem_append.1 ho with ho | ho
      · rcases List.mem_append.1 ho with ho | ho <;> exact (mem_resolving_iff.1 ho).2
      · exact (mem_resolving_iff.1 ho).2
  · refine .of (.ofIntersections Intersection.fixConnections fun _ _ _ => rfl) fun n i i' h => ?_
    obtain ⟨groups, rfl, hgroups⟩ := Intersection.fixConnections_change h
    refine .of_intersection rfl (gains_groups fun g' hg' => ?_)
    obtain ⟨-, g, hg, rfl | rfl⟩ := hgroups g' hg'
    · exact ⟨g', hg, fun o ho => Or.inr ho⟩
    · refine ⟨g, hg, fun o ho => ?_⟩
      rcases List.mem_append.1 ho with ho | ho
      · exact Or.inr (List.mem_append.2 (Or.inl ho))
      · rcases List.mem_append.1 ho with ho | ho
        · exact Or.inr (List.mem_append.2 (Or.inr (List.mem_append.2 (Or.inl ho))))
        · exact Or.inl (resolves_of_followers ho)
  · refine .of (.ofIntersections Intersection.fixCrossings fun _ _ _ => rfl) fun n i i' h => ?_
    rw [Intersection.fixCrossings_change h]
    refine .of_intersection rfl fun ref href => Or.inr ?_
    refine List.mem_append.2 ((List.mem_append.1 href).imp_right fun href => ?_)
    exact (mem_resolving_iff.1 href).1

/-- **Decisions.** None lets an element gain a reference to what does not exist. -/
theorem tidyDecision_of_decides {r : RuleId} (hr : r.decides = true) : r.TidyDecision := by
  rcases family_of_decides hr with h | h | h | h | h | h | h
  · exact tidyDecision_border h
  · exact tidyDecision_adjacent h
  · exact tidyDecision_references h
  · exact tidyDecision_stopLine h
  · exact tidyDecision_trafficSign h
  · exact tidyDecision_trafficLight h
  · exact tidyDecision_intersection h

end RuleId

/-! ## Removals and repairs -/

namespace RoadMap

open Network

theorem tidy_repair (m : RoadMap) {v : Violation} (hv : v.rule.topic ≠ .general) :
    Tidy m.network (m.repair v).1.network := by
  obtain ⟨r, location⟩ := v
  cases location with
  | nil => exact .refl _
  | cons id rest =>
    change Tidy m.network (r.repairAt m id rest).1.network
    by_cases hd : r.decides = true
    · -- a mild change may still refer to something new, so these decisions have a lemma of their own
      obtain ⟨kind, fix, gains, hrepair⟩ := RuleId.tidyDecision_of_decides hd
      rw [hrepair]
      exact tidy_fixAll gains m.network kind id
    · obtain ⟨edit, hform, hrepair⟩ := RuleId.exists_form hv id rest
      rw [hrepair]
      cases hform with
      | decision decides _ => exact absurd decides hd
      | forth => exact tidy_complete (makesLinks_completeForth id) m.network id
      | back => exact tidy_complete (makesLinks_completeBack id) m.network id
      | breaking _ _ => exact tidy_breakTwoWayLinks m.network id _
      | nothing => exact .refl _
      | attaching notes => exact tidy_attach notes m.network

/-- **No new dangling references.** After a removal, and after a repair of any rule but those on shared ids, the
elements with dangling references are among those that had them before. -/
theorem danglingReferrers_shrink :
    (∀ (n : Network) (key : Nat),
      ∀ b ∈ [n.removeLanelet key, n.removeTrafficSign key, n.removeTrafficLight key, n.removeIntersection key],
        ∀ id ∈ b.danglingReferrers, id ∈ n.danglingReferrers) ∧
    ∀ (m : RoadMap) (v : Violation), v.rule ∉ [.uniqueIdLa, .uniqueIdTs, .uniqueIdTl, .uniqueIdIn] →
      ∀ id ∈ (m.repair v).1.network.danglingReferrers, id ∈ m.network.danglingReferrers := by
  refine ⟨fun n key b hb id hid => ?_, fun m v hv id hid => ?_⟩
  · have removed : ∃ kind, b = n.remove ⟨kind, key⟩ := by
      simp only [List.mem_cons, List.not_mem_nil, or_false] at hb
      rcases hb with rfl | rfl | rfl | rfl
      · exact ⟨.lanelet, rfl⟩
      · exact ⟨.trafficSign, rfl⟩
      · exact ⟨.trafficLight, rfl⟩
      · exact ⟨.intersection, rfl⟩
    obtain ⟨kind, rfl⟩ := removed
    exact (Tidy.remove n _).danglingReferrers hid
  · have hgeneral : v.rule.topic ≠ .general := by
      intro h
      cases hr : v.rule <;> rw [hr] at h hv <;> first | exact hv (by decide) | exact absurd h (by decide)
    exact (m.tidy_repair hgeneral).danglingReferrers hid

/-- a lanelet that follows one which does not exist and leads to one which does not note it -/
def halfLinked : RoadMap := RoadMap.ofDocument
  { lanelets := [{ id := 1, predecessors := .ofList [2], successors := .ofList [3] }, { id := 3 }] }

/-- the link is completed, and the reference to nowhere is still the only one -/
theorem danglingReferrers_shrink_halfLinked :
    RuleId.connectionsSuccessor ∉ [RuleId.uniqueIdLa, .uniqueIdTs, .uniqueIdTl, .uniqueIdIn] ∧
      halfLinked.network.danglingReferrers.toList = [1] ∧
      (halfLinked.repair ⟨.connectionsSuccessor, [1]⟩).2 = true ∧
      ∀ id ∈ (halfLinked.repair ⟨.connectionsSuccessor, [1]⟩).1.network.danglingReferrers,
        id ∈ halfLinked.network.danglingReferrers :=
  have hr : RuleId.connectionsSuccessor ∉ [RuleId.uniqueIdLa, .uniqueIdTs, .uniqueIdTl, .uniqueIdIn] := by decide
  ⟨hr, by decide, by decide, danglingReferrers_shrink.2 halfLinked ⟨.connectionsSuccessor, [1]⟩ hr⟩

end RoadMap

end RoadRules
