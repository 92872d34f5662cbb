/-
Ids drawn in two parts of one network.

Two parts are extracted from the network of a document and go on with its counter. Then ids are drawn in them, for an
element or not, in any order of the two.

- `counter_draws`: networks with one counter draw one id after the other from it. From the draw on at which the counter
  has come to the end of the ids, each gets the smallest id that is unused in its own network.
- `external_draws`: drawing leaves external ids as they are, so that a part still sees what was left out of it.
- `apart_drawn`: until the counter has come to its end the ids are all different, and new to the network. An id drawn
  later is the smallest one that is new to the part it is drawn in and to what was left out of the part.
- `drawn_again`: such an id may have been drawn before, here or in the other part, and an element of the part may have
  borne it in the network.
-/
import RoadRules.Proofs.Network.Sharing

namespace RoadRules

open Network

/-- what an id is drawn for -/
inductive Request where
  | fresh
  | reassign (h : Handle)
  deriving DecidableEq

namespace RoadMap

/-- the id that is drawn, and the map afterwards -/
def request? (m : RoadMap) : Request → Option (ElementId × RoadMap)
  | .fresh => m.freshId?
  | .reassign h => m.reassignId? h

theorem request?_cases {m m' : RoadMap} {r : Request} {id : ElementId} (h : m.request? r = some (id, m')) :
    m'.network.external = m.network.external ∧
      (id.toNat = m.ids.watermark ∧ m'.ids.watermark = m.ids.watermark + 1 ∨
        m.ids.watermark = idLimit ∧ m'.ids = m.ids ∧ m.network.smallestUnusedId? = some id) := by
  cases r with
  | fresh =>
    obtain ⟨hnetwork, hdraw⟩ := freshId?_cases h
    exact ⟨by rw [hnetwork], hdraw⟩
  | reassign h' =>
    obtain ⟨-, drawn, hdrawn, rfl⟩ := exists_of_reassignId? h
    obtain ⟨hnetwork, hdraw⟩ := freshId?_cases hdrawn
    exact ⟨by rw [(rewrites_setId drawn.network h' id).external, hnetwork], hdraw⟩

/-- has the counter come right above the ids of the map, and no further? -/
def Tight (m : RoadMap) : Prop :=
  ∀ n, m.ids.watermark ≤ n ↔ ∀ x id, m.network.idOf? x = some id → id.toNat < n

theorem tight_add {m : RoadMap} (hkeyed : m.network.Keyed) (hm : m.Tight) (e : Element) : (m.add e).Tight := by
  intro n
  have hmax : (m.add e).ids.watermark ≤ n ↔ m.ids.watermark ≤ n ∧ e.id.toNat < n := Nat.max_le
  have hids : ∀ x, (m.add e).network.idOf? x =
      if x = ⟨e.kind, m.network.nextKey⟩ then some e.id else m.network.idOf? x := fun x => by
    rw [idOf?_eq, idOf?_eq, add, element?_add]
    exact apply_ite (Option.map _) _ _ _
  rw [hmax, hm n]
  constructor
  · rintro ⟨hbelow, hnew⟩ x id hid
    rw [hids] at hid
    split_ifs at hid
    · exact Option.some.inj hid ▸ hnew
    · exact hbelow x id hid
  · refine fun h => ⟨fun x id hid => h x id ?_, h ⟨e.kind, m.network.nextKey⟩ e.id (by rw [hids, if_pos rfl])⟩
    -- the new key belonged to no element, so that no id is lost
    rw [hids, if_neg fun hx => ?_]
    · exact hid
    · have hlt := hkeyed.below x (mem_allHandles.2 ⟨id, hid⟩)
      rw [hx] at hlt
      exact Nat.lt_irrefl _ hlt

/-- the counter of the network of a document starts right above the ids of the elements -/
theorem tight_ofDocument (d : Document) : (ofDocument d).Tight := by
  -- the counter is right as long as no two elements come under one key
  have hempty : RoadMap.empty.Tight := by
    refine fun n => ⟨fun _ x id hid => ?_, fun _ => Nat.zero_le n⟩
    obtain ⟨kind, k⟩ := x
    cases kind <;> cases hid
  have both : (ofDocument d).network.Keyed ∧ (ofDocument d).Tight :=
    ofDocument_induction (P := fun m => m.network.Keyed ∧ m.Tight) ⟨keyed_empty, hempty⟩
      (fun m e hm => ⟨Keyed.perform hm.1 (.add e), tight_add hm.1 hm.2 e⟩) d
  exact both.2

end RoadMap

namespace Workspace

/-! ## Drawing -/

/-- an id that was drawn, and the network in which it was asked for, as it was then -/
structure Drawn where
  name : String
  network : Network
  id : ElementId

/-- a draw in the network of a name, and the workspace afterwards -/
def draw? (w : Workspace) (name : String) (r : Request) : Option (Drawn × Workspace) := do
  let m ← w.map? name
  let (id, m') ← m.request? r
  return (⟨name, m.network, id⟩, w.update name m')

/-- the ids that are drawn one after the other; a request that gets none changes nothing -/
def draws (w : Workspace) : List (String × Request) → List Drawn
  | [] => []
  | (name, r) :: requests =>
    match w.draw? name r with
    | none => w.draws requests
    | some (x, w) => x :: w.draws requests

variable {w w' : Workspace} {x : Drawn}

theorem draw?_eq_some_iff {name : String} {r : Request} : w.draw? name r = some (x, w') ↔
    ∃ m id m', w.map? name = some m ∧ m.request? r = some (id, m') ∧ x = ⟨name, m.network, id⟩ ∧
      w' = w.update name m' := by
  simp only [draw?, Option.bind_eq_bind, Option.bind_eq_some_iff, Option.pure_def, Option.some.injEq, Prod.mk.injEq,
    Prod.exists]
  constructor
  · rintro ⟨m, hm, id, m', hr, rfl, rfl⟩; exact ⟨m, id, m', hm, hr, rfl, rfl⟩
  · rintro ⟨m, id, m', hm, hr, rfl, rfl⟩; exact ⟨m, hm, id, m', hr, rfl, rfl⟩

/-! ## One counter -/

/-- all networks draw from the one counter that there is -/
structure OneCounter (w : Workspace) (ids : IdAllocator) : Prop where
  counters : w.counters = [ids]
  shared : ∀ e ∈ w.entries, e.counter = 0

namespace OneCounter

variable {ids : IdAllocator}

theorem single (name : String) (m : RoadMap) : (Workspace.single name m).OneCounter m.ids :=
  ⟨rfl, by simp [Workspace.single]⟩

theorem save (h : w.OneCounter ids) (name : String) (n : Network) : (w.save name n 0).OneCounter ids where
  counters := h.counters
  shared e he := by
    rcases List.mem_cons.1 he with rfl | he
    · rfl
    · exact h.shared e (List.mem_filter.1 he).1

theorem extract (h : w.OneCounter ids) (source : String) (s : Scope) (name : String) :
    (w.extract source s name).OneCounter ids := by
  unfold Workspace.extract
  split
  · exact h
  · next e he =>
    rw [h.shared e (mem_entries_of he)]
    exact h.save name _

/-- the counter of a network is the one of all -/
theorem ids_of_map? (h : w.OneCounter ids) {name : String} {m : RoadMap} (hm : w.map? name = some m) : m.ids = ids := by
  obtain ⟨e, he, -, hids⟩ := map?_eq_some_iff.1 hm
  rw [h.shared e (mem_entries_of he), h.counters] at hids
  exact (Option.some.inj hids).symm

theorem update (h : w.OneCounter ids) {name : String} {m : RoadMap} (hm : w.map? name = some m) (m' : RoadMap) :
    (w.update name m').OneCounter m'.ids := by
  obtain ⟨e, he, -, -⟩ := map?_eq_some_iff.1 hm
  have hzero := h.shared e (mem_entries_of he)
  simp only [Workspace.update, he, hzero]
  exact ⟨by rw [h.counters]; rfl, (h.save name m'.network).shared⟩

end OneCounter

/-- **A draw.** The counter gives the number it has come to, or it has come to the end of the ids. -/
theorem counter_draw? {ids : IdAllocator} (h : w.OneCounter ids) {name : String} {r : Request}
    (hd : w.draw? name r = some (x, w')) : ∃ ids', w'.OneCounter ids' ∧
      (x.id.toNat = ids.watermark ∧ ids'.watermark = ids.watermark + 1 ∨
        ids.watermark = idLimit ∧ ids' = ids ∧ x.network.smallestUnusedId? = some x.id) := by
  obtain ⟨m, id, m', hm, hr, rfl, rfl⟩ := draw?_eq_some_iff.1 hd
  have hids := h.ids_of_map? hm
  subst hids
  exact ⟨m'.ids, h.update hm m', (RoadMap.request?_cases hr).2⟩

/-- **Draws.** The counter gives one number after the other. When it has come to the end of the ids, each draw gives
the smallest id that is unused in the network. -/
theorem counter_draws {ids : IdAllocator} (h : w.OneCounter ids) (requests : List (String × Request)) {i : Nat}
    (hx : (w.draws requests)[i]? = some x) :
    if ids.watermark + i < idLimit then x.id.toNat = ids.watermark + i
    else x.network.smallestUnusedId? = some x.id := by
  induction requests generalizing w ids i with
  | nil => cases hx
  | cons request requests ih =>
    obtain ⟨name, r⟩ := request
    unfold draws at hx
    split at hx
    · exact ih h hx
    · next y w₁ hd =>
      obtain ⟨ids', h', hcases⟩ := counter_draw? h hd
      cases i with
      | zero =>
        cases hx
        rcases hcases with ⟨hid, -⟩ | ⟨hend, -, hunused⟩
        · rw [Nat.add_zero, if_pos (hid ▸ x.id.toNat_lt_size)]
          exact hid
        · rw [if_neg (by omega)]
          exact hunused
      | succ i =>
        have hrest := ih h' hx
        rcases hcases with ⟨-, hmark⟩ | ⟨hend, rfl, -⟩
        · rw [hmark, Nat.add_right_comm] at hrest
          exact hrest
        · rw [if_neg (by omega)] at hrest ⊢
          exact hrest

/-! ## What a part sees of the rest -/

/-- the external ids of the network of a name -/
def external? (w : Workspace) (name : String) : Option ExternalIds :=
  w.entry? name |>.map (·.network.external)

theorem external_draw? {name : String} {r : Request} (hd : w.draw? name r = some (x, w')) :
    w.external? x.name = some x.network.external ∧ ∀ other, w'.external? other = w.external? other := by
  obtain ⟨m, id, m', hm, hr, rfl, rfl⟩ := draw?_eq_some_iff.1 hd
  obtain ⟨e, he, hn, -⟩ := map?_eq_some_iff.1 hm
  refine ⟨by rw [external?, he, Option.map_some, hn], fun other => ?_⟩
  rw [external?, entry?_update he]
  split_ifs with hname
  · rw [external?, hname, he, Option.map_some, Option.map_some, hn, (RoadMap.request?_cases hr).1]
  · rfl

/-- **Drawing leaves external ids as they are.** -/
theorem external_draws {requests : List (String × Request)} (hx : x ∈ w.draws requests) :
    w.external? x.name = some x.network.external := by
  induction requests generalizing w with
  | nil => cases hx
  | cons request requests ih =>
    unfold draws at hx
    split at hx
    · exact ih hx
    · next y w₁ hd =>
      obtain ⟨hfirst, hrest⟩ := external_draw? hd
      rcases List.mem_cons.1 hx with rfl | hx
      · exact hfirst
      · rw [← hrest]
        exact ih hx

/-! ## Two parts -/

/-- the network of a document, with two parts extracted from it -/
def parted (d : Document) (s t : Scope) : Workspace :=
  ((single "main" (.ofDocument d)).extract "main" s "left").extract "main" t "right"

theorem oneCounter_parted (d : Document) (s t : Scope) : (parted d s t).OneCounter (RoadMap.ofDocument d).ids :=
  ((OneCounter.single "main" _).extract "main" s "left").extract "main" t "right"

theorem external_left (d : Document) (s t : Scope) :
    (parted d s t).external? "left" = some ((RoadMap.ofDocument d).network.extract s).external := rfl

theorem external_right (d : Document) (s t : Scope) :
    (parted d s t).external? "right" = some ((RoadMap.ofDocument d).network.extract t).external := rfl

/-- ids drawn by requests to the two parts -/
def drawn (d : Document) (s t : Scope) (requests : List (String × Request)) : List Drawn :=
  (parted d s t).draws requests

/-- how many ids the counter of the network has to give -/
def stock (d : Document) : Nat := idLimit - (RoadMap.ofDocument d).ids.watermark

variable {d : Document} {s t : Scope} {requests : List (String × Request)}

theorem id_of_take {i : Nat} (hx : ((drawn d s t requests).take (stock d))[i]? = some x) :
    x.id.toNat = (RoadMap.ofDocument d).ids.watermark + i := by
  rw [List.getElem?_take] at hx
  split_ifs at hx with hi
  have hdraw := counter_draws (oneCounter_parted d s t) requests hx
  rwa [if_pos (by unfold stock at hi; omega)] at hdraw

theorem unused_of_drop (hx : x ∈ (drawn d s t requests).drop (stock d)) :
    x.network.smallestUnusedId? = some x.id := by
  obtain ⟨i, hi⟩ := List.mem_iff_getElem?.1 hx
  rw [List.getElem?_drop] at hi
  have hdraw := counter_draws (oneCounter_parted d s t) requests hi
  rwa [if_neg (by unfold stock; omega)] at hdraw

/-- what was left out of a part still resolves in it -/
theorem resolves_of_drawn (hx : x ∈ drawn d s t requests) {scope : Scope}
    (hpart : x.name = "left" ∧ scope = s ∨ x.name = "right" ∧ scope = t) {h : Handle} (hs : ¬ scope.Has h)
    {id : ElementId} (hid : (RoadMap.ofDocument d).network.idOf? h = some id) :
    x.network.resolves h.kind id = true := by
  have hexternal : x.network.external = ((RoadMap.ofDocument d).network.extract scope).external := by
    have hsame := external_draws hx
    rcases hpart with ⟨hname, rfl⟩ | ⟨hname, rfl⟩
    · rw [hname, external_left] at hsame
      exact (Option.some.inj hsame).symm
    · rw [hname, external_right] at hsame
      exact (Option.some.inj hsame).symm
  rw [resolves_iff, hexternal]
  exact Or.inl (external_extract.2 (Or.inr ⟨h.key, hs, hid⟩))

/-- what is sure about ids drawn in two parts -/
structure Apart (d : Document) (s t : Scope) (requests : List (String × Request)) : Prop where
  /-- the counter starts right above the ids of the network -/
  above : (RoadMap.ofDocument d).Tight
  /-- until it has come to its end, the ids are all different -/
  distinct : ((drawn d s t requests).take (stock d)).Pairwise fun x y => x.id ≠ y.id
  /-- and no element of the network bears one of them -/
  new : ∀ x ∈ (drawn d s t requests).take (stock d), x.id ∉ (RoadMap.ofDocument d).network.allIds
  /-- later ids are new to the part they are drawn in, and the smallest that are -/
  unused : ∀ x ∈ (drawn d s t requests).drop (stock d),
    (∀ kind, x.network.resolves kind x.id = false) ∧ ∀ id < x.id, ∃ kind, x.network.resolves kind id = true
  /-- and they are new to what was left out of the part -/
  outside : ∀ x ∈ (drawn d s t requests).drop (stock d), ∀ scope,
    (x.name = "left" ∧ scope = s ∨ x.name = "right" ∧ scope = t) →
    ∀ h, ¬ scope.Has h → (RoadMap.ofDocument d).network.idOf? h ≠ some x.id

/-- **Parts.** Whatever is drawn in two parts of the network of a document, in whatever order: as long as the counter
has ids to give, they are all different, and new to the network; later ones are new to their part and to what it left
out. -/
theorem apart_drawn (d : Document) (s t : Scope) (requests : List (String × Request)) : Apart d s t requests where
  above := RoadMap.tight_ofDocument d
  distinct := by
    refine List.pairwise_iff_getElem.2 fun i j hi hj hlt heq => ?_
    have hx := id_of_take (List.getElem?_eq_getElem hi)
    have hy := id_of_take (List.getElem?_eq_getElem hj)
    rw [heq] at hx
    omega
  new x hx hmem := by
    obtain ⟨i, hi⟩ := List.mem_iff_getElem?.1 hx
    obtain ⟨h, hid⟩ := mem_allIds.1 hmem
    have hbelow := RoadMap.counted_ofDocument d h x.id hid
    have hfrom := id_of_take hi
    omega
  unused x hx := by
    have hunused := unused_of_drop hx
    exact ⟨not_resolves_of_unused hunused, fun id hlt => resolves_of_lt_unused hunused hlt⟩
  outside x hx scope hpart h hs hid := by
    have hon := resolves_of_drawn (List.mem_of_mem_drop hx) hpart hs hid
    rw [not_resolves_of_unused (unused_of_drop hx) h.kind] at hon
    cases hon

/-- When an element bears the largest id the counter has none left. Both parts draw 1, and when the lanelet of the first
has become 1 the next id drawn there is the one that the lanelet had in the network. -/
theorem drawn_again : ¬ ∀ (d : Document) (s t : Scope) (requests : List (String × Request)), s.isDisjoint t = true →
    (∀ request ∈ requests, request.1 = "left" ∨ request.1 = "right") →
    (drawn d s t requests).Pairwise (fun x y => x.id ≠ y.id) ∧
      ∀ x ∈ drawn d s t requests, x.id ∉ (RoadMap.ofDocument d).network.allIds := by
  intro h
  have hno := h { lanelets := [{ id := 0 }, { id := 4294967295 }] } { lanelets := .ofList [0] }
    { lanelets := .ofList [1] } [("left", .fresh), ("right", .reassign ⟨.lanelet, 1⟩),
      ("left", .reassign ⟨.lanelet, 0⟩), ("left", .fresh)] (by decide +kernel) (by decide)
  revert hno
  decide +kernel

end Workspace

end RoadRules
