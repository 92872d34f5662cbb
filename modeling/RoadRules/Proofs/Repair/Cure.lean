/-
Repairs that cure their rules.

A repair cures a rule (`RuleId.Cured`) if it leaves no violation at its location and makes none elsewhere. Then one
repair for each violation that a check has found leaves nothing for a check to find.

- `Cured.violates_repairEach`: what is violated after a run was violated before it, and is not among what was repaired.
- `Cured.verify_repairAll`: a run over what a check has found leaves nothing to find.
- `editEach_settles`: what one edit settles for its item and no other edit unsettles is settled for every item.
- `Heals.cured`: decisions about elements cure a rule if they leave none of them wrong.
- `Remedy.cured`: the same for decisions about one sort of elements, in terms of what these hold.
-/
import RoadRules.Proofs.Rule.Merging

namespace RoadRules

/-! ## Runs of cures -/

namespace RuleId

/-- Under an invariant that it keeps, the repair of the rule leaves no violation at its location and makes none. -/
structure Cured (r : RuleId) (Inv : RoadMap → Prop) : Prop where
  inv : ∀ m id rest, Inv m → Inv (r.repairAt m id rest).1
  violates : ∀ m id rest location, Inv m → (r.repairAt m id rest).1.network.Violates ⟨r, location⟩ →
    m.network.Violates ⟨r, location⟩ ∧ location ≠ id :: rest

namespace Cured

variable {r : RuleId} {Inv : RoadMap → Prop} (h : r.Cured Inv)

include h

theorem repair (m : RoadMap) (hm : Inv m) (location : Location) : Inv (m.repair ⟨r, location⟩).1 ∧
    ∀ l, (m.repair ⟨r, location⟩).1.network.Violates ⟨r, l⟩ → m.network.Violates ⟨r, l⟩ ∧ l ≠ location := by
  cases location with
  | nil =>
    -- nothing is repaired, and every violation has a location
    refine ⟨hm, fun l hl => ⟨hl, ?_⟩⟩
    intro hnil
    obtain ⟨b, hat, hloc⟩ := hl
    obtain ⟨x, rest, id, -, -, hhead⟩ := Network.head_location hat hloc
    rw [hnil] at hhead
    cases hhead
  | cons id rest => exact ⟨h.inv m id rest hm, fun l hl => h.violates m id rest l hm hl⟩

/-- **Runs.** What is violated after a run was violated before it, and is not among what was repaired. -/
theorem violates_repairEach (vs : List Violation) (hvs : ∀ v ∈ vs, v.rule = r) (m : RoadMap) (hm : Inv m)
    (location : Location) (hl : (m.repairEach vs).1.network.Violates ⟨r, location⟩) :
    m.network.Violates ⟨r, location⟩ ∧ ⟨r, location⟩ ∉ vs := by
  induction vs generalizing m with
  | nil => exact ⟨hl, List.not_mem_nil⟩
  | cons v vs ih =>
    obtain ⟨rule, l⟩ := v
    have hrule : rule = r := hvs _ List.mem_cons_self
    subst hrule
    obtain ⟨hinv, hstep⟩ := h.repair m hm l
    obtain ⟨hbefore, hrest⟩ := ih (fun v hv => hvs v (List.mem_cons_of_mem _ hv)) _ hinv hl
    obtain ⟨hfirst, hne⟩ := hstep location hbefore
    refine ⟨hfirst, fun hmem => ?_⟩
    rcases List.mem_cons.1 hmem with heq | hmem
    · exact hne (congrArg Violation.location heq)
    · exact hrest hmem

/-- **A run over what a check has found leaves nothing to find.** -/
theorem verify_repairAll (m : RoadMap) (hm : Inv m) :
    (standardCatalog.verify (m.repairAll (standardCatalog.verify m.network [r])).1.network [r]).isEmpty = true := by
  rw [Violations.verify_isEmpty]
  intro v hv hviolates
  obtain ⟨rule, location⟩ := v
  have hrule : rule = r := List.mem_singleton.1 hv
  subst hrule
  have hvs : ∀ v ∈ (standardCatalog.verify m.network [rule]).toList, v.rule = rule := fun v hv =>
    List.mem_singleton.1 (Violations.mem_verify.1 hv).1
  obtain ⟨hbefore, hnot⟩ := h.violates_repairEach _ hvs m hm location hviolates
  exact hnot (Violations.mem_verify.2 ⟨hv, hbefore⟩)

end Cured

end RuleId

/-! ## Edits that settle their items -/

namespace Network

variable {n : Network}

/-- What one edit settles for its item, and no other edit unsettles, is settled for every item. -/
theorem editEach_settles {ι : Type} {P : Network → Prop} {Q : ι → Network → Prop} {edit : Network → ι → Edited}
    (items : List ι) (h : P n) (step : ∀ a, P a → ∀ i ∈ items, P (edit a i).network ∧ Q i (edit a i).network ∧
      ∀ j, Q j a → Q j (edit a i).network) :
    P (n.editEach items edit).network ∧ ∀ i ∈ items, Q i (n.editEach items edit).network := by
  -- what is settled before the edits stays so
  suffices run : P (n.editEach items edit).network ∧ (∀ i ∈ items, Q i (n.editEach items edit).network) ∧
      ∀ j, Q j n → Q j (n.editEach items edit).network from ⟨run.1, run.2.1⟩
  induction items generalizing n with
  | nil => exact ⟨h, fun _ hi => absurd hi List.not_mem_nil, fun _ hj => hj⟩
  | cons i items ih =>
    obtain ⟨hP, hi, hstay⟩ := step n h i List.mem_cons_self
    obtain ⟨hP', hrest, hstay'⟩ := ih hP fun a ha j hj => step a ha j (List.mem_cons_of_mem _ hj)
    rw [editEach_cons]
    refine ⟨hP', fun j hj => ?_, fun j hj => hstay' j (hstay j hj)⟩
    rcases List.mem_cons.1 hj with rfl | hj
    · exact hstay' _ hi
    · exact hrest j hj

/-- the same ids under all handles, and the same ids outside, resolve the same -/
theorem resolves_congr {m : Network} (hids : ∀ x, m.idOf? x = n.idOf? x) (he : m.external = n.external) (kind : Kind)
    (id : ElementId) : m.resolves kind id = n.resolves kind id := by
  rw [Bool.eq_iff_iff, resolves_iff, resolves_iff, he]
  simp only [hids]

end Network

/-! ## Decisions that cure -/

/-- A decision about the elements of a kind that leaves none of them wrong. What it keeps is not wrong, and what it
changes is not wrong afterwards. If it ever removes an element, being wrong is a matter of the element alone, and no
element is wrong only because it has forgotten an id. The elements have to be sound, and stay so. -/
structure Heals (kind : Kind) (fix : Network → Element → Fix Element) (wrong : Network → Element → Prop)
    (sound : Element → Prop) : Prop where
  ofKind : ∀ n e, wrong n e → e.kind = kind
  steady : ∀ n n' e, (∀ k id, n'.resolves k id = n.resolves k id) → wrong n' e → wrong n e
  keep : ∀ n e, sound e → fix n e = .keep → ¬ wrong n e
  change : ∀ n e e', sound e → fix n e = .change e' → (e'.kind = e.kind ∧ e'.id = e.id) ∧ sound e' ∧ ¬ wrong n e'
  removal : ∀ n e, fix n e = .remove → ∀ n' n'' e' id, (wrong n'' e' → wrong n' e') ∧
    (wrong n'' (e'.forget kind id) → wrong n' e') ∧ (sound e' → sound (e'.forget kind id))

/-- are all elements of the network sound? -/
def Network.AllSound (sound : Element → Prop) (n : Network) : Prop := ∀ x e, n.element? x = some e → sound e

/-- an element that is wrong in the later network was wrong in the earlier one, with the same id -/
def Network.Heeds (wrong : Network → Element → Prop) (a b : Network) : Prop :=
  ∀ x e', b.element? x = some e' → wrong b e' → ∃ e, a.element? x = some e ∧ e.id = e'.id ∧ wrong a e

/-- All elements are sound afterwards, none is wrong that was not, and the one it is about is not wrong. -/
structure Network.Treats (wrong : Network → Element → Prop) (sound : Element → Prop) (x : Handle) (a b : Network) :
    Prop where
  sound : b.AllSound sound
  heeds : a.Heeds wrong b
  right : ∀ e, b.element? x = some e → ¬ wrong b e

namespace Heals

open Network

variable {kind : Kind} {fix : Network → Element → Fix Element} {wrong : Network → Element → Prop}
  {sound : Element → Prop} (h : Heals kind fix wrong sound) {b : Network}

include h

/-- the element that a decision changes -/
theorem treats_change (hb : b.AllSound sound) {key : Nat} {e e' : Element} (he : b.element? ⟨kind, key⟩ = some e)
    (hfix : fix b e = .change e') : Treats wrong sound ⟨kind, key⟩ b (b.replace key e') := by
  obtain ⟨⟨hkind, hid⟩, hsound, hright⟩ := h.change b e e' (hb _ _ he) hfix
  have hrewrites : Rewrites (.only ⟨kind, key⟩ fun _ => e') b (b.replace key e') :=
    rewrites_replace b (hkind.trans (kind_of_element? he))
  have hids := hrewrites.idOf? fun x e₀ he₀ => by
    refine ⟨_, rfl, ?_⟩
    split_ifs with hx
    · subst hx
      cases he.symm.trans he₀
      exact hid
    · rfl
  have hresolves := resolves_congr hids hrewrites.external
  have helement : ∀ x e₁, (b.replace key e').element? x = some e₁ →
      x = ⟨kind, key⟩ ∧ e₁ = e' ∨ x ≠ ⟨kind, key⟩ ∧ b.element? x = some e₁ := by
    intro x e₁ he₁
    rw [hrewrites.element] at he₁
    obtain ⟨e₀, he₀, hx⟩ := Option.bind_eq_some_iff.1 he₁
    simp only [Rewrite.only, Option.some.injEq] at hx
    split_ifs at hx with heq
    · exact Or.inl ⟨heq, hx.symm⟩
    · exact Or.inr ⟨heq, hx ▸ he₀⟩
  have hright' : ¬ wrong (b.replace key e') e' := fun hw => hright (h.steady _ _ _ hresolves hw)
  refine ⟨fun x e₁ he₁ => ?_, fun x e₁ he₁ hw => ?_, fun e₁ he₁ => ?_⟩
  · rcases helement x e₁ he₁ with ⟨-, rfl⟩ | ⟨-, he₁⟩
    · exact hsound
    · exact hb x e₁ he₁
  · rcases helement x e₁ he₁ with ⟨-, rfl⟩ | ⟨-, he₁⟩
    · exact absurd hw hright'
    · exact ⟨e₁, he₁, rfl, h.steady _ _ _ hresolves hw⟩
  · rcases helement _ e₁ he₁ with ⟨-, rfl⟩ | ⟨hne, -⟩
    · exact hright'
    · exact absurd rfl hne

/-- the element that a decision removes -/
theorem treats_remove (hb : b.AllSound sound) {key : Nat} {e : Element} (he : b.element? ⟨kind, key⟩ = some e)
    (hfix : fix b e = .remove) : Treats wrong sound ⟨kind, key⟩ b (b.remove ⟨kind, key⟩) := by
  have hremoval := h.removal b e hfix
  have hrewrites := rewrites_remove (idOf?_of_element? he)
  have helement : ∀ x e₁, (b.remove ⟨kind, key⟩).element? x = some e₁ →
      x ≠ ⟨kind, key⟩ ∧ ∃ e₀, b.element? x = some e₀ ∧ (e₁ = e₀ ∨ e₁ = e₀.forget kind e.id) := by
    intro x e₁ he₁
    rw [hrewrites.element] at he₁
    obtain ⟨e₀, he₀, hx⟩ := Option.bind_eq_some_iff.1 he₁
    simp only [Rewrite.removal] at hx
    split_ifs at hx with heq hstays
    · exact ⟨heq, e₀, he₀, Or.inl (Option.some.inj hx).symm⟩
    · exact ⟨heq, e₀, he₀, Or.inr (Option.some.inj hx).symm⟩
  refine ⟨fun x e₁ he₁ => ?_, fun x e₁ he₁ hw => ?_, fun e₁ he₁ => absurd rfl (helement _ e₁ he₁).1⟩
  · obtain ⟨-, e₀, he₀, rfl | rfl⟩ := helement x e₁ he₁
    · exact hb x _ he₀
    · exact (hremoval b b e₀ e.id).2.2 (hb x e₀ he₀)
  · obtain ⟨-, e₀, he₀, rfl | rfl⟩ := helement x e₁ he₁
    · exact ⟨_, he₀, rfl, (hremoval b _ _ e.id).1 hw⟩
    · exact ⟨e₀, he₀, (e₀.id_forget _ _).symm, (hremoval b _ e₀ e.id).2.1 hw⟩

/-- **One decision.** It leaves the element it is about not wrong, and no other one wrong that was not. -/
theorem treats_fixOne (hb : b.AllSound sound) (key : Nat) :
    Treats wrong sound ⟨kind, key⟩ b (b.fixOne kind key (fix b)).network := by
  have same : b.Heeds wrong b := fun x e he hw => ⟨e, he, rfl, hw⟩
  simp only [Network.fixOne, apply]
  cases he : b.element? ⟨kind, key⟩ with
  | none =>
    refine ⟨hb, same, fun e' he' => ?_⟩
    cases he.symm.trans he'
  | some e =>
    dsimp only
    cases hfix : fix b e with
    | keep =>
      refine ⟨hb, same, fun e' he' => ?_⟩
      cases he.symm.trans he'
      exact h.keep b e (hb _ _ he) hfix
    | change e' => exact h.treats_change hb he hfix
    | remove => exact h.treats_remove hb he hfix

/-- **Decisions about all elements with an id.** None of them is wrong afterwards, and no other one that was not. -/
theorem fixAll {n : Network} (hn : n.AllSound sound) (id : ElementId) :
    (n.fixAll kind id fix).network.AllSound sound ∧ n.Heeds wrong (n.fixAll kind id fix).network ∧
      ∀ key ∈ n.keysWithId kind id, ∀ e', (n.fixAll kind id fix).network.element? ⟨kind, key⟩ = some e' →
        ¬ wrong (n.fixAll kind id fix).network e' := by
  have heeds_trans : ∀ {a b c : Network}, a.Heeds wrong b → b.Heeds wrong c → a.Heeds wrong c := by
    intro a b c hab hbc x e'' he'' hw
    obtain ⟨e', he', hid', hw'⟩ := hbc x e'' he'' hw
    obtain ⟨e, he, hid, hw⟩ := hab x e' he' hw'
    exact ⟨e, he, hid.trans hid', hw⟩
  have start : n.AllSound sound ∧ n.Heeds wrong n := ⟨hn, fun x e he hw => ⟨e, he, rfl, hw⟩⟩
  obtain ⟨⟨hsound, hheeds⟩, hsettled⟩ := editEach_settles (P := fun b => b.AllSound sound ∧ n.Heeds wrong b)
    (Q := fun key b => ∀ e', b.element? ⟨kind, key⟩ = some e' → ¬ wrong b e') (n.keysWithId kind id) start
    fun a ha key _ => by
      obtain ⟨hs, hh, hk⟩ := h.treats_fixOne ha.1 key
      refine ⟨⟨hs, heeds_trans ha.2 hh⟩, hk, fun j hj e' he' hw => ?_⟩
      obtain ⟨e, he, -, hw⟩ := hh _ e' he' hw
      exact hj e he hw
  exact ⟨hsound, hheeds, hsettled⟩

/-- **Cures by decision.** -/
theorem cured {r : RuleId} (hrepair : ∀ (m : RoadMap) id rest, r.repairAt m id rest =
      m.edited (m.network.fixAll kind id fix))
    (hfault : ∀ (n : Network) b, r.fault.At n b ↔ ∃ x e, b = [x] ∧ n.element? x = some e ∧ wrong n e) :
    r.Cured fun m => m.network.AllSound sound where
  inv m id rest hm := by
    rw [hrepair]
    exact (h.fixAll hm id).1
  violates m id rest location hm hviolates := by
    rw [hrepair] at hviolates
    obtain ⟨-, hheeds, hsettled⟩ := h.fixAll hm id
    obtain ⟨b, hat, hloc⟩ := hviolates
    obtain ⟨x, e', rfl, he', hw⟩ := (hfault _ b).1 hat
    obtain ⟨e, he, hid, hwe⟩ := hheeds x e' he' hw
    have hlocation : location = [e.id] := by
      refine hloc.symm.trans ?_
      rw [List.filterMap_cons_some (idOf?_of_element? he'), hid]
      rfl
    subst hlocation
    refine ⟨⟨[x], (hfault _ _).2 ⟨x, e, rfl, he, hwe⟩, ?_⟩, ?_⟩
    · rw [List.filterMap_cons_some (idOf?_of_element? he)]
      rfl
    · intro heq
      obtain ⟨hid, -⟩ := List.cons.inj heq
      obtain ⟨xkind, key⟩ := x
      have hkind : xkind = kind := (kind_of_element? he).symm.trans (h.ofKind _ e hwe)
      subst hkind
      exact hsettled key (mem_keysWithId.2 (hid ▸ idOf?_of_element? he)) e' he' hw

end Heals

/-! ## Decisions about one sort of elements -/

/-- are all elements of the map that `mk` makes sound? -/
def RoadMap.Sound {α : Type} (mk : α → Element) (sound : α → Prop) (m : RoadMap) : Prop :=
  m.network.AllSound fun e => ∀ a, e = mk a → sound a

/-- nothing is asked of them -/
theorem RoadMap.sound_true {α : Type} (mk : α → Element) (m : RoadMap) : m.Sound mk fun _ => True :=
  fun _ _ _ _ _ => trivial

/-- A decision about one sort of values that leaves none of them bad: the conditions of `Heals` in terms of values. -/
structure Remedy {α : Type} (mk : α → Element) (kind : Kind) (fix : Network → α → Fix α) (good : Network → α → Prop)
    (sound : α → Prop) : Prop where
  steady : ∀ n n' a, (∀ k id, n'.resolves k id = n.resolves k id) → good n a → good n' a
  keep : ∀ n a, sound a → fix n a = .keep → good n a
  change : ∀ n a a', sound a → fix n a = .change a' → (mk a').id = (mk a).id ∧ sound a' ∧ good n a'
  removal : ∀ n a, fix n a = .remove → ∀ n' n'' a', (good n' a' → good n'' a') ∧
    ∀ id, ∃ a'', (mk a').forget kind id = mk a'' ∧ (good n' a' → good n'' a'') ∧ (sound a' → sound a'')

namespace Remedy

variable {α : Type} {mk : α → Element} {kind : Kind} {fix : Network → α → Fix α} {good : Network → α → Prop}
  {sound : α → Prop}

/-- the decision as one about elements -/
theorem heals (h : Remedy mk kind fix good sound) {f : Network → Element → Fix Element}
    (hf : Fix.Extends mk kind fix f) :
    Heals kind f (fun n e => ∃ a, e = mk a ∧ ¬ good n a) fun e => ∀ a, e = mk a → sound a where
  ofKind n e := by
    intro ⟨a, he, _⟩
    exact (hf.makes.kind_iff e).2 ⟨a, he⟩
  steady n n' e hr := by
    intro ⟨a, he, hbad⟩
    exact ⟨a, he, fun hgood => hbad (h.steady n n' a hr hgood)⟩
  keep n e hsound hkeep := by
    rintro ⟨a, rfl, hbad⟩
    exact hbad (h.keep n a (hsound a rfl) (hf.eq_keep_iff.1 hkeep))
  change n e e' hsound hchange := by
    obtain ⟨a, a', rfl, rfl, hfix⟩ := hf.of_change hchange
    obtain ⟨hid, hsound', hgood⟩ := h.change n a a' (hsound a rfl) hfix
    have hkind := (hf.makes.kind_iff (mk a)).2 ⟨a, rfl⟩
    refine ⟨⟨((hf.makes.kind_iff _).2 ⟨a', rfl⟩).trans hkind.symm, hid⟩,
      fun b hb => hf.makes.injective hb ▸ hsound', ?_⟩
    rintro ⟨b, hb, hbad⟩
    exact hbad (hf.makes.injective hb ▸ hgood)
  removal n e hremove n' n'' e' id := by
    obtain ⟨a, rfl, hfix⟩ := hf.of_remove hremove
    have hremoval := h.removal n a hfix n' n''
    -- an element that has forgotten an id is of the same sort as before
    have sort : ∀ b, e'.forget kind id = mk b → ∃ a', e' = mk a' := fun b hb =>
      (hf.makes.kind_iff e').1 ((e'.kind_forget kind id).symm.trans ((hf.makes.kind_iff _).2 ⟨b, hb⟩))
    refine ⟨?_, ?_, ?_⟩
    · intro ⟨b, hb, hbad⟩
      exact ⟨b, hb, fun hgood => hbad ((hremoval b).1 hgood)⟩
    · intro ⟨b, hb, hbad⟩
      obtain ⟨a', rfl⟩ := sort b hb
      obtain ⟨a'', hforget, hgood, -⟩ := (hremoval a').2 id
      refine ⟨a', rfl, fun h => hbad ?_⟩
      exact hf.makes.injective (hforget.symm.trans hb) ▸ hgood h
    · intro hs b hb
      obtain ⟨a', rfl⟩ := sort b hb
      obtain ⟨a'', hforget, -, hsound⟩ := (hremoval a').2 id
      exact hf.makes.injective (hforget.symm.trans hb) ▸ hsound (hs a' rfl)

/-- **Cures of one sort of elements.** -/
theorem cured (h : Remedy mk kind fix good sound) {r : RuleId} (hr : r.DecidesBy mk kind fix)
    (hfault : ∀ (n : Network) b, r.fault.At n b ↔ ∃ x a, b = [x] ∧ n.element? x = some (mk a) ∧ ¬ good n a) :
    r.Cured (RoadMap.Sound mk sound) := by
  obtain ⟨f, hf, hrepair⟩ := hr
  refine (h.heals hf).cured hrepair fun n b => ?_
  rw [hfault]
  constructor
  · intro ⟨x, a, hb, hx, ha⟩
    exact ⟨x, mk a, hb, hx, a, rfl, ha⟩
  · intro ⟨x, e, hb, hx, a, he, ha⟩
    exact ⟨x, a, hb, he ▸ hx, ha⟩

end Remedy

end RoadRules
