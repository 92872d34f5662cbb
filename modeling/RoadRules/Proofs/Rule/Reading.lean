/-
What builtins and subformulas say about the elements they are given.

`Builtin.read?` and its companions for plates and groups list the values that rules read off an element. The builtins
that ask whether an id resolves answer like the network (`apply_exists`), and the subformulas of the full rule set
compare ids and look them up in links and references (`call_distinct`, `call_linksTo`, ...).
-/
import RoadRules.Proofs.Rule.Environment
import RoadRules.Proofs.Rule.Standard
import RoadRules.Proofs.Network.Index

namespace RoadRules

/-- where the full rule set is evaluated -/
def Network.setting (n : Network) : Setting := standardCatalog.setting n.view

theorem Network.view_setting (n : Network) : n.setting.view = n.view := rfl

/-! ## Ids as values -/

namespace Value

theorem toInt_ofId (id : ElementId) : (Int64.ofNat id.toNat).toInt = id.toNat :=
  Int64.toInt_ofNat_of_lt (by have := id.toNat_lt; omega)

/-- values of ids are equal for equal ids only -/
theorem looseEq_ofId (a b : ElementId) : (ofId a).looseEq (ofId b) = (a == b) := by
  have h : Int64.ofNat a.toNat = Int64.ofNat b.toNat ↔ a = b := by
    constructor
    · intro h
      have := congrArg Int64.toInt h
      rw [toInt_ofId, toInt_ofId] at this
      exact UInt32.toNat_inj.1 (by exact_mod_cast this)
    · rintro rfl; rfl
  rw [Bool.eq_iff_iff]
  simp [ofId, looseEq, h]

theorem any_looseEq_ofIds (ids : List ElementId) (id : ElementId) :
    (ids.map ofId).any (·.looseEq (ofId id)) = ids.contains id := by
  rw [Bool.eq_iff_iff]
  simp [looseEq_ofId]

end Value

/-! ## Builtins -/

namespace Builtin

/-- what a builtin reads off an element -/
def read? (b : Builtin) (h : Handle) : Element → Option Value
  | .lanelet l =>
    match b with
    | laneletId | elementId => some (.ofId l.id)
    | leftPolyline => some (.ofPoints l.left)
    | rightPolyline => some (.ofPoints l.right)
    | predecessors => some (.ofIds l.predecessors.toList)
    | successors => some (.ofIds l.successors.toList)
    | leftAdjacency => some (.ofIds (l.adjacentLeft.map (·.id)).toList)
    | rightAdjacency => some (.ofIds (l.adjacentRight.map (·.id)).toList)
    | trafficSigns => some (.ofIds l.trafficSigns.toList)
    | trafficLights => some (.ofIds l.trafficLights.toList)
    | stopLineTrafficSigns => some (.ofIds ((l.stopLine.map (·.trafficSigns.toList)).getD []))
    | stopLineTrafficLights => some (.ofIds ((l.stopLine.map (·.trafficLights.toList)).getD []))
    | _ => none
  | .trafficSign s =>
    match b with
    | trafficSignId | elementId => some (.ofId s.id)
    | signElements => some (partsOf h .signPlate s.plates.length)
    | _ => none
  | .trafficLight t =>
    match b with
    | trafficLightId | elementId => some (.ofId t.id)
    | phases => some (.list (t.cycle.map fun c => .str c.phase.name))
    | durations => some (.list (t.cycle.map fun c => .ofNat c.duration.toNat))
    | _ => none
  | .intersection i =>
    match b with
    | intersectionId | elementId => some (.ofId i.id)
    | incomings => some (partsOf h .incomingGroup i.incomings.length)
    | crossings => some (.ofIds i.crossings.toList)
    | _ => none

/-- what a builtin reads off a plate -/
def readPlate? (b : Builtin) (p : SignPlate) : Option Value :=
  match b with
  | elementCode => some (.str p.code)
  | additionalValues => some (.list (p.values.map .float))
  | _ => none

/-- the ids that a builtin reads off an incoming group -/
def readGroup? (b : Builtin) (g : IncomingGroup) : Option (List ElementId) :=
  match b with
  | incomingLanelets => some g.lanelets.toList
  | successorsLeft => some g.left.toList
  | successorsRight => some g.right.toList
  | successorsStraight => some g.straight.toList
  | allSuccessors => some g.successors
  | _ => none

/-- the kind of element whose existence a builtin asks about -/
def asks? : Builtin → Option Kind
  | laneletExists => some .lanelet
  | trafficSignExists => some .trafficSign
  | trafficLightExists => some .trafficLight
  | intersectionExists => some .intersection
  | _ => none

variable {n : Network} {b : Builtin}

theorem apply_of_read? {h : Handle} {e : Element} {v : Value} (he : n.element? h = some e)
    (hv : b.read? h e = some v) : b.apply n.view [.element h] = .ok v := by
  have hid := Network.idOf?_of_element? he
  cases e with
  | lanelet l =>
    obtain ⟨k, rfl, hk⟩ := Network.element?_eq_lanelet.1 he
    cases b <;> simp only [read?, Option.some.injEq, reduceCtorEq] at hv <;> subst hv <;>
      simp [apply, laneletOf, handleOf, orDangling, Network.view, hk, hid, Element.id, bind, Except.bind, pure,
        Except.pure]
  | trafficSign s =>
    obtain ⟨k, rfl, hk⟩ := Network.element?_eq_trafficSign.1 he
    cases b <;> simp only [read?, Option.some.injEq, reduceCtorEq] at hv <;> subst hv <;>
      simp [apply, trafficSignOf, handleOf, orDangling, Network.view, hk, hid, Element.id, bind, Except.bind, pure,
        Except.pure]
  | trafficLight t =>
    obtain ⟨k, rfl, hk⟩ := Network.element?_eq_trafficLight.1 he
    cases b <;> simp only [read?, Option.some.injEq, reduceCtorEq] at hv <;> subst hv <;>
      simp [apply, trafficLightOf, handleOf, orDangling, Network.view, hk, hid, Element.id, bind, Except.bind, pure,
        Except.pure]
  | intersection i =>
    obtain ⟨k, rfl, hk⟩ := Network.element?_eq_intersection.1 he
    cases b <;> simp only [read?, Option.some.injEq, reduceCtorEq] at hv <;> subst hv <;>
      simp [apply, intersectionOf, handleOf, orDangling, Network.view, hk, hid, Element.id, bind, Except.bind, pure,
        Except.pure]

theorem itemAt_natCast {α : Type} {items : List α} {i : Nat} {x : α} (function : String) (h : items[i]? = some x) :
    itemAt function items i = .ok x := by
  have : ¬ (i : Int) < 0 := by omega
  simp [itemAt, this, h]

theorem apply_of_readPlate? {k i : Nat} {s : TrafficSign} {p : SignPlate} {v : Value}
    (hs : n.trafficSigns.get? k = some s) (hp : s.plates[i]? = some p) (hv : b.readPlate? p = some v) :
    b.apply n.view [.part ⟨⟨.trafficSign, k⟩, .signPlate, i⟩] = .ok v := by
  cases b <;> simp only [readPlate?, Option.some.injEq, reduceCtorEq] at hv <;> subst hv <;>
    simp [apply, signPlateOf, partOf, trafficSignOf, handleOf, orDangling, itemAt_natCast _ hp, Network.view, hs, bind,
      Except.bind, pure, Except.pure]

theorem apply_of_readGroup? {k i : Nat} {x : Intersection} {g : IncomingGroup} {ids : List ElementId}
    (hx : n.intersections.get? k = some x) (hg : x.incomings[i]? = some g) (hv : b.readGroup? g = some ids) :
    b.apply n.view [.part ⟨⟨.intersection, k⟩, .incomingGroup, i⟩] = .ok (.ofIds ids) := by
  cases b <;> simp only [readGroup?, Option.some.injEq, reduceCtorEq] at hv <;> subst hv <;>
    simp [apply, incomingGroupOf, partOf, intersectionOf, handleOf, orDangling, itemAt_natCast _ hg, Network.view, hx,
      bind, Except.bind, pure, Except.pure]

/-- builtins that ask for an element answer as the network resolves the id -/
theorem apply_exists {kind : Kind} (hb : b.asks? = some kind) (id : ElementId) :
    b.apply n.view [.ofId id] = .ok (.bool (n.resolves kind id)) := by
  have hid : UInt32.ofNat (Int64.ofNat id.toNat).toInt.toNat = id := by
    rw [Value.toInt_ofId]
    exact UInt32.ofNat_toNat
  have hr : 0 ≤ (Int64.ofNat id.toNat).toInt ∧ (Int64.ofNat id.toNat).toInt < (UInt32.size : Int) := by
    rw [Value.toInt_ofId]
    have := id.toNat_lt_size
    omega
  cases b <;> simp only [asks?, Option.some.injEq, reduceCtorEq] at hb <;> subst hb <;>
    simp only [apply, existsId, Network.view, Value.ofId, Value.asInt, hid, hr, NetworkIndex.resolves_build, bind,
      Except.bind, pure, Except.pure, List.getElem?_cons_zero, and_self, decide_true, Bool.true_and]

end Builtin

/-! ## Comparing numbers -/

theorem holds_gt_int (x y : Int64) : Formula.Comparison.gt.holds (.int x) (.int y) = .ok (decide (y < x)) := by
  simp only [Formula.Comparison.holds, Value.compare, Except.map, Except.ok.injEq, Int64.lt_iff_toInt_lt,
    ← Int64.toInt_inj]
  split_ifs <;> simp <;> omega

theorem holds_ge_int (x y : Int64) : Formula.Comparison.ge.holds (.int x) (.int y) = .ok (decide (y ≤ x)) := by
  simp only [Formula.Comparison.holds, Value.compare, Except.map, Except.ok.injEq, Int64.lt_iff_toInt_lt,
    Int64.le_iff_toInt_le, ← Int64.toInt_inj]
  split_ifs
  · exact (decide_eq_false (by omega)).symm
  · exact (decide_eq_true (by omega)).symm
  · exact (decide_eq_true (by omega)).symm

theorem holds_le_float {x y : Float} :
    Formula.Comparison.le.holds (.float x) (.float y) = .ok true ↔ (x < y || x == y) = true := by
  simp only [Formula.Comparison.holds, Value.compare, Value.compareFloat?]
  by_cases h₁ : x < y
  · simp [h₁, Except.map]
  · by_cases h₂ : x == y
    · simp [h₁, h₂, Except.map]
    · by_cases h₃ : y < x <;> simp [h₁, h₂, h₃, Except.map]

theorem holds_gt_number {x : Float} {i : Int64} :
    Formula.Comparison.gt.holds (.float x) (.int i) = .ok true ↔
      Value.compareFloat? x (Number.ofInt64 i) = some .gt := by
  simp only [Formula.Comparison.holds, Value.compare]
  cases Value.compareFloat? x (Number.ofInt64 i) with
  | none => simp [Except.map]
  | some o => cases o <;> simp [Except.map]

/-! ## Operands -/

namespace Setting

variable {s : Setting} {n : Network} {env : List Value} {b : Builtin}

theorem operand_of (hs : s.view = n.view) (slot : Nat) {x v : Value} (hx : env[slot]? = some x)
    (hv : b.apply n.view [x] = .ok v) : s.operand env (.of b slot) = .ok v := by
  simp [Operand.of, operand, operands, call, hx, hv, hs, bind, Except.bind, pure, Except.pure]

theorem operand_read (hs : s.view = n.view) (slot : Nat) {h : Handle} {e : Element} {v : Value}
    (hx : env[slot]? = some (.element h)) (he : n.element? h = some e) (hv : b.read? h e = some v) :
    s.operand env (.of b slot) = .ok v :=
  operand_of hs slot hx (Builtin.apply_of_read? he hv)

theorem operand_sizeOf {slot : Nat} {items : List Value} (h : s.operand env (.of b slot) = .ok (.list items)) :
    s.operand env (.sizeOf b slot) = .ok (.ofNat items.length) := by
  simp only [Operand.sizeOf, operand, operands, h]
  simp [call, Builtin.apply, bind, Except.bind, pure, Except.pure]

theorem truth_predicate {c : Callee} {args : List Operand} {p : Bool} (vs : List Value)
    (hvs : s.operands env args = .ok vs) (hc : s.call c vs = .ok (.bool p)) :
    s.truth (.predicate c args) env = .ok p := by
  simp [truth, hvs, hc, Value.asBool, bind, Except.bind]

theorem truth_compared (op : Formula.Comparison) {lhs rhs : Operand} {v w : Value}
    (hv : s.operand env lhs = .ok v) (hw : s.operand env rhs = .ok w) :
    s.truth (.compared op lhs rhs) env = op.holds v w := by
  simp [truth, hv, hw, bind, Except.bind]

theorem truth_or {lhs rhs : Code} {p q : Bool} (hp : s.truth lhs env = .ok p) (hq : s.truth rhs env = .ok q) :
    s.truth (.connected .or lhs rhs) env = .ok (p || q) := by
  simp only [truth, hp, hq, bind, Except.bind]
  cases p <;> rfl

theorem truth_and {lhs rhs : Code} {p q : Bool} (hp : s.truth lhs env = .ok p) (hq : s.truth rhs env = .ok q) :
    s.truth (.connected .and lhs rhs) env = .ok (p && q) := by
  simp only [truth, hp, hq, bind, Except.bind]
  cases p <;> rfl

theorem call_exists {kind : Kind} (hb : b.asks? = some kind) (id : ElementId) :
    n.setting.call (.builtin b) [.ofId id] = .ok (.bool (n.resolves kind id)) :=
  Builtin.apply_exists hb id

/-! ## Subformulas -/

/-- is the id of one element among the ids listed by another? -/
theorem truth_listed (hs : s.view = n.view) {list id : Builtin} {g h : Handle} {e f : Element} {ids : List ElementId}
    {x : ElementId} (he : n.element? g = some e) (hf : n.element? h = some f)
    (hl : list.read? g e = some (.ofIds ids)) (hi : id.read? h f = some (.ofId x)) :
    s.truth (.listed list id) [.element g, .element h] = .ok (ids.contains x) := by
  have h₁ : s.operand [.element g, .element h] (.of list 0) = .ok (.ofIds ids) := operand_read hs 0 rfl he hl
  have h₂ : s.operand [.element g, .element h] (.of id 1) = .ok (.ofId x) := operand_read hs 1 rfl hf hi
  refine truth_predicate [.ofIds ids, .ofId x] ?_ ?_
  · simp only [operands, h₁, h₂]; rfl
  · simp [call, Builtin.apply, Value.asList, Value.ofIds, Value.any_looseEq_ofIds, -List.any_map, bind, Except.bind,
      pure, Except.pure]

theorem call_distinct {x y : Handle} {a b : ElementId} (hx : n.idOf? x = some a) (hy : n.idOf? y = some b) :
    n.setting.call (.subformula 0) [.element x, .element y] = .ok (.bool (x == y || a != b)) := by
  obtain ⟨e, he, rfl⟩ := Network.exists_element hx
  obtain ⟨f, hf, rfl⟩ := Network.exists_element hy
  have read : ∀ (g : Handle) (e : Element), Builtin.elementId.read? g e = some (.ofId e.id) := by
    intro g e; cases e <;> rfl
  show (meaning _ _ _).map Value.bool = _
  rw [meaning_eq_truth _ _ _ rfl,
    truth_or (truth_compared _ rfl rfl) (truth_compared _ (operand_read rfl 0 rfl he (read x e))
      (operand_read rfl 1 rfl hf (read y f)))]
  simp [Value.looseEq_ofId, Value.looseEq, Except.map, bne]

theorem call_linksTo {g h : Handle} {l k : Lanelet} (hl : n.element? g = some (.lanelet l))
    (hk : n.element? h = some (.lanelet k)) :
    n.setting.call (.subformula 1) [.element g, .element h] = .ok (.bool (l.successors.toList.contains k.id)) := by
  show (meaning _ _ _).map Value.bool = _
  rw [meaning_eq_truth _ _ _ rfl, truth_listed rfl hl hk rfl rfl]; rfl

theorem call_linksFrom {g h : Handle} {l k : Lanelet} (hl : n.element? g = some (.lanelet l))
    (hk : n.element? h = some (.lanelet k)) :
    n.setting.call (.subformula 2) [.element g, .element h] = .ok (.bool (l.predecessors.toList.contains k.id)) := by
  show (meaning _ _ _).map Value.bool = _
  rw [meaning_eq_truth _ _ _ rfl, truth_listed rfl hl hk rfl rfl]; rfl

theorem call_referencesSign {g h : Handle} {l : Lanelet} {t : TrafficSign} (hl : n.element? g = some (.lanelet l))
    (ht : n.element? h = some (.trafficSign t)) :
    n.setting.call (.subformula 4) [.element g, .element h] = .ok (.bool (l.trafficSignRefs.contains t.id)) := by
  show (meaning _ _ _).map Value.bool = _
  rw [meaning_eq_truth _ _ _ rfl,
    truth_or (truth_listed rfl hl ht rfl rfl) (truth_listed rfl hl ht rfl rfl)]
  simp [Lanelet.trafficSignRefs, Except.map]

theorem call_referencesLight {g h : Handle} {l : Lanelet} {t : TrafficLight} (hl : n.element? g = some (.lanelet l))
    (ht : n.element? h = some (.trafficLight t)) :
    n.setting.call (.subformula 5) [.element g, .element h] = .ok (.bool (l.trafficLightRefs.contains t.id)) := by
  show (meaning _ _ _).map Value.bool = _
  rw [meaning_eq_truth _ _ _ rfl,
    truth_or (truth_listed rfl hl ht rfl rfl) (truth_listed rfl hl ht rfl rfl)]
  simp [Lanelet.trafficLightRefs, Except.map]

end Setting

end RoadRules
