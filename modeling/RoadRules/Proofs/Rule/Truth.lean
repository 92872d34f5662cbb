/-
When the code of each rule is true.

Rules of one shape have one lemma (`truth_allOf`, `truth_allOfGroups`, `truth_distinct`, `truth_answered`,
`truth_someLanelet`), and the rules about one element alone have one each, named for the rule.
-/
import RoadRules.Proofs.Rule.Reading
import RoadRules.Proofs.Rule.Fault

namespace RoadRules

namespace Setting

variable {n : Network} {h : Handle} {e : Element}

theorem items_read {s : Setting} (hs : s.view = n.view) {b : Builtin} {vs : List Value}
    (he : n.element? h = some e) (hv : b.read? h e = some (.list vs)) (rest : List Value) :
    s.items (.element h :: rest) (.operand (.of b 0)) = .ok vs := by
  simp only [items, operand_read hs 0 (List.getElem?_cons_zero) he hv, bind, Except.bind]; rfl

theorem truth_allOf {list predicate : Builtin} {kind : Kind} {ids : List ElementId} (he : n.element? h = some e)
    (hl : list.read? h e = some (.ofIds ids)) (hp : predicate.asks? = some kind) :
    n.setting.truth (.allOf list predicate) [.element h] = .ok true ↔ ∀ id ∈ ids, n.resolves kind id = true := by
  rw [Code.allOf, truth_every _ (items_read n.view_setting he hl [])]
  simp only [List.forall_mem_map]
  refine forall₂_congr fun id _ => ?_
  rw [truth_predicate [.ofId id] rfl (call_exists hp id)]
  simp

theorem truth_distinct {id : ElementId} (hid : n.idOf? h = some id) :
    n.setting.truth .distinct [.element h] = .ok true ↔ ∀ y, n.idOf? y = some id → y = h := by
  have hr : n.setting.items [.element h] (.domain .all) = .ok (n.allHandles.map .element) := by
    rw [← NetworkIndex.all_build]; rfl
  rw [Code.distinct, truth_every _ hr, List.forall_mem_map]
  constructor
  · intro hall y hy
    have := hall y (Network.mem_allHandles.2 ⟨id, hy⟩)
    rw [List.singleton_append, Code.pair, truth_predicate [.element h, .element y] rfl (call_distinct hid hy)] at this
    have : h = y := by simpa using this
    exact this.symm
  · intro hall y hm
    obtain ⟨other, hy⟩ := Network.mem_allHandles.1 hm
    rw [List.singleton_append, Code.pair, truth_predicate [.element h, .element y] rfl (call_distinct hid hy)]
    by_cases ho : id = other
    · subst ho; simp [hall y hy]
    · simp [ho]

/-- the domain of lanelets holds the lanelets -/
theorem forall_lanelets {p : Value → Prop} :
    (∀ v ∈ (n.view.index.domain .lanelets).map Value.element, p v) ↔
      ∀ y k, n.element? y = some (.lanelet k) → p (.element y) := by
  have hd : n.view.index.domain .lanelets = n.handles .lanelet := rfl
  simp only [List.forall_mem_map, hd, Network.mem_handles]
  constructor
  · intro hall y k hk
    obtain ⟨key, rfl, hkey⟩ := Network.element?_eq_lanelet.1 hk
    exact hall _ ⟨rfl, _, Network.idOf?_of_element? hk⟩
  · rintro hall ⟨kind, key⟩ ⟨rfl, id, hid⟩
    obtain ⟨e, he, -⟩ := Network.exists_element hid
    cases hl : n.lanelets.get? key with
    | none => simp [hl] at hid
    | some l => exact hall _ l (Network.element?_eq_lanelet.2 ⟨key, rfl, hl⟩)

theorem truth_answered {l : Lanelet} {there back : Lanelet → IdSet} {sub sub' : Nat}
    (ht : ∀ y k, n.element? y = some (.lanelet k) →
      n.setting.truth (.pair sub 0 1) [.element h, .element y] = .ok ((there l).toList.contains k.id))
    (hb : ∀ y k, n.element? y = some (.lanelet k) →
      n.setting.truth (.pair sub' 1 0) [.element h, .element y] = .ok ((back k).toList.contains l.id)) :
    n.setting.truth (.answered (.pair sub 0 1) (.pair sub' 1 0)) [.element h] = .ok true ↔
      ∀ y k, n.element? y = some (.lanelet k) → k.id ∈ there l → l.id ∈ back k := by
  rw [Code.answered, truth_every _ rfl]
  refine forall_lanelets.trans (forall₃_congr fun y k hk => ?_)
  simp only [truth, List.cons_append, List.nil_append, ht y k hk, hb y k hk, bind, Except.bind, ← SortedSet.mem_toList]
  cases hc : (there l).toList.contains k.id
  · have : ¬ k.id ∈ (there l).toList := by simpa using hc
    simp [this, pure, Except.pure]
  · have : k.id ∈ (there l).toList := by simpa using hc
    simp [this]

/-- some lanelet refers to the outer element -/
theorem truth_someLanelet {refs : Lanelet → List ElementId} {sub : Nat} {id : ElementId}
    (hc : ∀ y k, n.element? y = some (.lanelet k) →
      n.setting.call (.subformula sub) [.element y, .element h] = .ok (.bool ((refs k).contains id))) :
    n.setting.truth (.someLanelet sub) [.element h] = .ok true ↔
      ∃ y k, n.element? y = some (.lanelet k) ∧ id ∈ refs k := by
  have hp : ∀ y k, n.element? y = some (.lanelet k) →
      n.setting.truth (.pair sub 1 0) [.element h, .element y] = .ok ((refs k).contains id) := fun y k hk =>
    truth_predicate [.element y, .element h] rfl (hc y k hk)
  rw [Code.someLanelet, truth_some _ rfl (forall_lanelets.2 fun y k hk => ⟨_, hp y k hk⟩)]
  refine not_iff_not.1 ?_
  push Not
  refine forall_lanelets.trans (forall₃_congr fun y k hk => ?_)
  rw [List.singleton_append, hp y k hk]
  simp

/-! ## Elements that are right in themselves -/

variable {s : Setting}

theorem operand_count (hs : s.view = n.view) {b : Builtin} {items : List Value} (he : n.element? h = some e)
    (hb : b.read? h e = some (.list items)) : s.operand [.element h] (.sizeOf b 0) = .ok (.int (itemCount items)) :=
  operand_sizeOf (operand_read hs 0 rfl he hb)

theorem itemCount_map {α β : Type} (f : α → β) (items : List α) : itemCount (items.map f) = itemCount items := by
  rw [itemCount, itemCount, List.length_map]

section Lanelet

variable {l : Lanelet} (hl : n.element? h = some (.lanelet l))

include hl

theorem operand_leftSize (hs : s.view = n.view) :
    s.operand [.element h] (.sizeOf .leftPolyline 0) = .ok (.int (itemCount l.left)) := by
  rw [operand_count hs hl rfl, itemCount_map]

theorem operand_rightSize (hs : s.view = n.view) :
    s.operand [.element h] (.sizeOf .rightPolyline 0) = .ok (.int (itemCount l.right)) := by
  rw [operand_count hs hl rfl, itemCount_map]

theorem truth_sameVerticesSize :
    n.setting.truth RuleId.sameVerticesSize.standardCode [.element h] = .ok true ↔ l.hasEvenBorders = true := by
  rw [RuleId.standardCode, truth_compared _ (operand_leftSize hl rfl) (operand_rightSize hl rfl)]
  simp [Formula.Comparison.holds, Value.looseEq, Lanelet.hasEvenBorders]

theorem truth_verticesMoreThanOne :
    n.setting.truth RuleId.verticesMoreThanOne.standardCode [.element h] = .ok true ↔ l.hasBorders = true := by
  rw [RuleId.standardCode, truth_and
    ((truth_compared _ (operand_leftSize hl rfl) rfl).trans (holds_gt_int _ _))
    ((truth_compared _ (operand_rightSize hl rfl) rfl).trans (holds_gt_int _ _)), Except.ok.injEq]
  rfl

theorem call_nonemptyBoundaries : n.setting.call (.subformula 3) [.element h] =
    .ok (.bool (0 < itemCount l.left && 0 < itemCount l.right)) := by
  show (meaning _ _ _).map Value.bool = _
  rw [meaning_eq_truth _ _ _ rfl, truth_and
    ((truth_compared _ (operand_leftSize hl rfl) rfl).trans (holds_gt_int _ _))
    ((truth_compared _ (operand_rightSize hl rfl) rfl).trans (holds_gt_int _ _))]
  rfl

theorem operand_leftPoints : n.setting.operand [.element h] (.of .leftPolyline 0) = .ok (.ofPoints l.left) :=
  operand_read n.view_setting 0 rfl hl rfl

theorem operand_rightPoints : n.setting.operand [.element h] (.of .rightPolyline 0) = .ok (.ofPoints l.right) :=
  operand_read n.view_setting 0 rfl hl rfl

omit hl in
theorem getElem?_of_count {α : Type} {items : List α} (h : 0 < itemCount items) : ∃ a, items[0]? = some a := by
  cases items with
  | nil => exact absurd h (show ¬ (0 : Int64) < Int64.ofNat 0 by decide)
  | cons a rest => exact ⟨a, rfl⟩

omit hl in
theorem operand_first {t : Operand} {points : List Point} {a : Point}
    (ht : n.setting.operand [.element h] t = .ok (.ofPoints points)) (ha : points[0]? = some a) :
    n.setting.operand [.element h] (.first t) = .ok (.point a) := by
  obtain ⟨b, rest, rfl⟩ : ∃ b rest, points = b :: rest := by
    cases points with
    | nil => cases ha
    | cons b rest => exact ⟨b, rest, rfl⟩
  cases ha
  simp [Operand.first, Operand.number, operand, operands, ht, call, Builtin.apply, Value.asList, Value.asInt,
    Value.ofPoints, Builtin.itemAt, bind, Except.bind, pure, Except.pure]

omit hl in
theorem operand_reversed {t : Operand} {points : List Point}
    (ht : n.setting.operand [.element h] t = .ok (.ofPoints points)) :
    n.setting.operand [.element h] (.reversed t) = .ok (.ofPoints points.reverse) := by
  simp [Operand.reversed, operand, operands, ht, call, Builtin.apply, Value.asList, Value.ofPoints, bind, Except.bind,
    pure, Except.pure]

omit hl in
/-- Stated by itself: in a longer term the kernel would look into the distance. -/
theorem call_distance (n : Network) (a b : Point) :
    n.setting.call (.builtin .distance) [.point a, .point b] = .ok (.float (a.distance b)) := rfl

omit hl in
theorem operand_distance {t u : Operand} {a b : Point} (ht : n.setting.operand [.element h] t = .ok (.point a))
    (hu : n.setting.operand [.element h] u = .ok (.point b)) :
    n.setting.operand [.element h] (.call (.builtin .distance) [t, u]) = .ok (.float (a.distance b)) := by
  simp only [operand, operands, ht, hu, call_distance, bind, Except.bind, pure, Except.pure]

/-- the ends of the borders are compared, if both borders have any -/
theorem truth_borderEnds :
    (0 < itemCount l.left && 0 < itemCount l.right) = false ∧
      n.setting.truth RuleId.polylinesSameDirection.standardCode [.element h] = .ok true ∨
    (0 < itemCount l.left && 0 < itemCount l.right) = true ∧
      ∃ a b z, l.left[0]? = some a ∧ l.right[0]? = some b ∧ l.right.reverse[0]? = some z ∧
        n.setting.truth RuleId.polylinesSameDirection.standardCode [.element h] =
          Formula.Comparison.le.holds (.float (a.distance b)) (.float (a.distance z)) := by
  have hcond : n.setting.truth (.predicate (.subformula 3) [.slot 0]) [.element h] =
      .ok (0 < itemCount l.left && 0 < itemCount l.right) :=
    truth_predicate [.element h] rfl (call_nonemptyBoundaries hl)
  rw [RuleId.standardCode, truth, hcond]
  cases hc : (decide (0 < itemCount l.left) && decide (0 < itemCount l.right)) with
  | false => exact Or.inl ⟨rfl, rfl⟩
  | true =>
    have hpos : 0 < itemCount l.left ∧ 0 < itemCount l.right := by simpa using hc
    obtain ⟨a, ha⟩ := getElem?_of_count hpos.1
    obtain ⟨b, hb⟩ := getElem?_of_count hpos.2
    obtain ⟨z, hz⟩ : ∃ z, l.right.reverse[0]? = some z :=
      getElem?_of_count (by rw [itemCount, List.length_reverse]; exact hpos.2)
    have hleft := operand_first (operand_leftPoints hl) ha
    have hright := operand_first (operand_rightPoints hl) hb
    have hend := operand_first (operand_reversed (operand_rightPoints hl)) hz
    exact Or.inr ⟨rfl, a, b, z, ha, hb, hz,
      truth_compared .le (operand_distance hleft hright) (operand_distance hleft hend)⟩

theorem truth_polylinesSameDirection :
    n.setting.truth RuleId.polylinesSameDirection.standardCode [.element h] = .ok true ↔
      l.hasAlignedBorders = true := by
  rw [Lanelet.hasAlignedBorders]
  rcases truth_borderEnds hl with ⟨hc, htruth⟩ | ⟨hc, a, b, z, ha, hb, hz, htruth⟩
  · simp [htruth, hc]
  · simp only [htruth, hc, if_true, ha, hb, hz]
    exact holds_le_float

omit hl in
theorem call_selfIntersecting (points : List Point) : n.setting.call (.builtin .selfIntersecting) [.ofPoints points] =
    .ok (.bool (Polyline.isSelfCrossing Vec2.crossing? points)) := by
  have hp : (points.map Value.point).mapM (Value.asPoint Builtin.selfIntersecting.name) = .ok points := by
    induction points with
    | nil => rfl
    | cons p rest ih =>
      rw [List.map_cons, List.mapM_cons, ih]; rfl
  simp only [call, Builtin.apply, Builtin.pointsOf, Value.ofPoints, Value.asList, List.getElem?_cons_zero, hp, bind,
    Except.bind, pure, Except.pure]

omit hl in
theorem truth_not {inner : Code} {env : List Value} {p : Bool} (hp : s.truth inner env = .ok p) :
    s.truth (.not inner) env = .ok (!p) := by
  simp [truth, hp, bind, Except.bind, pure, Except.pure]

theorem truth_leftSelfIntersection :
    n.setting.truth RuleId.leftSelfIntersection.standardCode [.element h] = .ok true ↔ l.hasSimpleLeft = true := by
  have hargs : n.setting.operands [.element h] [.of .leftPolyline 0] = .ok [.ofPoints l.left] := by
    simp only [operands, operand_leftPoints hl]; rfl
  rw [RuleId.standardCode, truth_not (truth_predicate _ hargs (call_selfIntersecting l.left)), Except.ok.injEq]
  rfl

theorem truth_rightSelfIntersection :
    n.setting.truth RuleId.rightSelfIntersection.standardCode [.element h] = .ok true ↔ l.hasSimpleRight = true := by
  have hargs : n.setting.operands [.element h] [.of .rightPolyline 0] = .ok [.ofPoints l.right] := by
    simp only [operands, operand_rightPoints hl]; rfl
  rw [RuleId.standardCode, truth_not (truth_predicate _ hargs (call_selfIntersecting l.right)), Except.ok.injEq]
  rfl

theorem truth_includedStopLineTrafficSigns :
    n.setting.truth RuleId.includedStopLineTrafficSigns.standardCode [.element h] = .ok true ↔
      l.includesStopLineSigns = true := by
  rw [RuleId.standardCode, truth_every _ (items_read n.view_setting (b := .stopLineTrafficSigns) hl rfl []),
    Lanelet.includesStopLineSigns, List.all_eq_true, List.forall_mem_map]
  refine forall₂_congr fun id _ => ?_
  have hlist : n.setting.operand [.element h, .ofId id] (.of .trafficSigns 0) = .ok (.ofIds l.trafficSigns.toList) :=
    operand_read n.view_setting 0 rfl hl rfl
  have hargs : n.setting.operands [.element h, .ofId id] [.of .trafficSigns 0, .slot 1] =
      .ok [.ofIds l.trafficSigns.toList, .ofId id] := by
    simp only [operands, hlist]; rfl
  have hcall : n.setting.call (.builtin .contains) [.ofIds l.trafficSigns.toList, .ofId id] =
      .ok (.bool (l.trafficSigns.toList.contains id)) := by
    simp [call, Builtin.apply, Value.asList, Value.ofIds, Value.any_looseEq_ofIds, -List.any_map, bind, Except.bind,
      pure, Except.pure]
  rw [List.singleton_append, truth_predicate _ hargs hcall, Except.ok.injEq]

end Lanelet

section Sign

variable {t : TrafficSign} (ht : n.element? h = some (.trafficSign t))

include ht

theorem truth_atLeastOneTrafficSignElement :
    n.setting.truth RuleId.atLeastOneTrafficSignElement.standardCode [.element h] = .ok true ↔
      t.hasPlates = true := by
  have hsize : n.setting.operand [.element h] (.sizeOf .signElements 0) = .ok (.int (itemCount t.plates)) := by
    rw [operand_count n.view_setting ht rfl, itemCount_map, itemCount, List.length_range]; rfl
  rw [RuleId.standardCode, (truth_compared _ hsize rfl).trans (holds_ge_int _ _), Except.ok.injEq]
  rfl

/-- code about every plate of a sign -/
theorem truth_everyPlate {body : Code} {right : SignPlate → Bool}
    (hb : ∀ (x : Value) (p : SignPlate), (∀ b v, Builtin.readPlate? b p = some v → b.apply n.view [x] = .ok v) →
      (n.setting.truth body [.element h, x] = .ok true ↔ right p = true)) :
    n.setting.truth (.quantified .every 1 (.operand (.of .signElements 0)) body) [.element h] = .ok true ↔
      t.plates.all right = true := by
  obtain ⟨k, rfl, hk⟩ := Network.element?_eq_trafficSign.1 ht
  rw [truth_every _ (items_read n.view_setting (b := .signElements) ht rfl []), List.forall_mem_map, List.all_eq_true]
  have one : ∀ i (hi : i < t.plates.length),
      (n.setting.truth body [.element ⟨.trafficSign, k⟩, .part ⟨⟨.trafficSign, k⟩, .signPlate, i⟩] = .ok true ↔
        right t.plates[i] = true) := fun i hi =>
    hb _ _ fun b v hv => Builtin.apply_of_readPlate? hk (List.getElem?_eq_getElem hi) hv
  constructor
  · intro hall p hp
    obtain ⟨i, hi, rfl⟩ := List.getElem_of_mem hp
    exact (one i hi).1 (hall i (List.mem_range.2 hi))
  · intro hall i hi
    exact (one i (List.mem_range.1 hi)).2 (hall _ (List.getElem_mem _))

omit ht in
/-- a condition on plates of some codes -/
theorem truth_plateImplies {b : Builtin} {test right : Bool} {body : Code} {x : Value} {p : SignPlate}
    (hx : ∀ b v, Builtin.readPlate? b p = some v → b.apply n.view [x] = .ok v)
    (hb : n.setting.call (.builtin b) [.str p.code] = .ok (.bool test))
    (hr : n.setting.truth body [.element h, x] = .ok true ↔ right = true) :
    n.setting.truth (.connected .implies (.predicate (.builtin b) [.of .elementCode 1]) body) [.element h, x] =
      .ok true ↔ (!test || right) = true := by
  have hcode : n.setting.operand [.element h, x] (.of .elementCode 1) = .ok (.str p.code) :=
    operand_of n.view_setting 1 rfl (hx _ _ rfl)
  have hcond : n.setting.truth (.predicate (.builtin b) [.of .elementCode 1]) [.element h, x] = .ok test :=
    truth_predicate [.str p.code] (by simp only [operands, hcode]; rfl) hb
  rw [truth, hcond]
  cases test with
  | false => simp [bind, Except.bind, pure, Except.pure]
  | true => simpa [bind, Except.bind] using hr

theorem truth_givenAdditionalValue :
    n.setting.truth RuleId.givenAdditionalValue.standardCode [.element h] = .ok true ↔ t.hasValues = true := by
  refine truth_everyPlate ht fun x p hx => truth_plateImplies hx rfl ?_
  have hvalues : n.setting.operand [.element h, x] (.of .additionalValues 1) = .ok (.list (p.values.map .float)) :=
    operand_of n.view_setting 1 rfl (hx _ _ rfl)
  rw [(truth_compared _ (operand_sizeOf hvalues) rfl).trans (holds_gt_int _ _), Except.ok.injEq, List.length_map]
  rfl

theorem truth_validAdditionalValueSpeedSign :
    n.setting.truth RuleId.validAdditionalValueSpeedSign.standardCode [.element h] = .ok true ↔
      t.hasPositiveSpeeds = true := by
  refine truth_everyPlate ht fun x p hx => truth_plateImplies hx rfl ?_
  have hvalues : n.setting.operand [.element h, x] (.of .additionalValues 1) = .ok (.list (p.values.map .float)) :=
    operand_of n.view_setting 1 rfl (hx _ _ rfl)
  have hitems : n.setting.items [.element h, x] (.operand (.of .additionalValues 1)) = .ok (p.values.map .float) := by
    simp only [items, hvalues]; rfl
  rw [truth_every _ hitems, List.all_eq_true, List.forall_mem_map]
  refine forall₂_congr fun v _ => ?_
  rw [truth_compared .gt (v := .float v) (w := .int 0) rfl rfl, holds_gt_number, beq_iff_eq]

end Sign

section Light

variable {t : TrafficLight} (ht : n.element? h = some (.trafficLight t))

include ht

theorem truth_atLeastOneCycleElement :
    n.setting.truth RuleId.atLeastOneCycleElement.standardCode [.element h] = .ok true ↔ t.hasCycle = true := by
  have hsize : n.setting.operand [.element h] (.sizeOf .phases 0) = .ok (.int (itemCount t.cycle)) := by
    rw [operand_count n.view_setting ht rfl, itemCount_map]
  rw [RuleId.standardCode, (truth_compared _ hsize rfl).trans (holds_ge_int _ _), Except.ok.injEq]
  rfl

theorem truth_nonZeroDuration :
    n.setting.truth RuleId.nonZeroDuration.standardCode [.element h] = .ok true ↔ t.hasLastingPhases = true := by
  rw [RuleId.standardCode, truth_every _ (items_read n.view_setting (b := .durations) ht rfl []),
    TrafficLight.hasLastingPhases, List.all_eq_true, List.forall_mem_map]
  refine forall₂_congr fun c _ => ?_
  rw [(truth_compared .gt (v := .ofNat c.duration.toNat) (w := .int 0) rfl rfl).trans (holds_gt_int _ _),
    Except.ok.injEq]

/-- the first and the last place of a phase are compared; the last one is found from behind -/
theorem truth_places (p : Value) :
    n.setting.truth (.compared .eq (.call (.builtin .index) [.of .phases 0, .slot 1])
      (.call (.builtin .sub) [.call (.builtin .sub) [.sizeOf .phases 0, .number 1],
        .call (.builtin .index) [.reversed (.of .phases 0), .slot 1]])) [.element h, p] = (do
      let phases : List Value := t.cycle.map fun c => .str c.phase.name
      let minus := Builtin.arithmetic Builtin.sub.name (· - ·) (· - ·)
      let first ← TrafficLight.firstPlace phases p
      let last ← minus (.int (itemCount phases)) (.int 1)
      let behind ← TrafficLight.firstPlace phases.reverse p
      return first.looseEq (← minus last behind)) := by
  have hphases : n.setting.operand [.element h, p] (.of .phases 0) =
      .ok (.list (t.cycle.map fun c => .str c.phase.name)) :=
    operand_read n.view_setting 0 rfl ht rfl
  have hsize := operand_sizeOf hphases
  have hreversed : n.setting.operand [.element h, p] (.reversed (.of .phases 0)) =
      .ok (.list (t.cycle.map fun c => .str c.phase.name).reverse) := by
    simp [Operand.reversed, operand, operands, hphases, call, Builtin.apply, Value.asList, bind, Except.bind, pure,
      Except.pure]
  have hindex : ∀ {u : Operand} {vs : List Value}, n.setting.operand [.element h, p] u = .ok (.list vs) →
      n.setting.operand [.element h, p] (.call (.builtin .index) [u, .slot 1]) = TrafficLight.firstPlace vs p := by
    intro u vs hu
    cases hplace : vs.findIdx? (·.looseEq p) <;>
      simp [operand, operands, hu, call, Builtin.apply, Value.asList, TrafficLight.firstPlace, bind, Except.bind, pure,
        Except.pure, hplace]
  have hminus : ∀ u w : Operand, n.setting.operand [.element h, p] (.call (.builtin .sub) [u, w]) = (do
      let a ← n.setting.operand [.element h, p] u
      let b ← n.setting.operand [.element h, p] w
      Builtin.arithmetic Builtin.sub.name (· - ·) (· - ·) a b) := by
    intro u w
    simp only [operand, operands]
    cases n.setting.operand [.element h, p] u with
    | error e => rfl
    | ok a => cases n.setting.operand [.element h, p] w <;> rfl
  have hone : n.setting.operand [.element h, p] (.number 1) = .ok (.int 1) := rfl
  simp only [truth, hminus, hindex hphases, hindex hreversed, hsize, hone, Formula.Comparison.holds, bind_assoc]
  rfl

theorem truth_uniqueStateInCycle :
    n.setting.truth RuleId.uniqueStateInCycle.standardCode [.element h] = .ok true ↔ t.hasDistinctPhases = true := by
  rw [RuleId.standardCode, truth_every _ (items_read n.view_setting (b := .phases) ht rfl []),
    TrafficLight.hasDistinctPhases, List.all_eq_true]
  refine forall₂_congr fun p _ => ?_
  rw [List.singleton_append, truth_places ht]
  split
  · next b hb => simp only [hb, Except.ok.injEq]
  · next e he => simp only [he, reduceCtorEq]

end Light

section Intersection

variable {i : Intersection} (hi : n.element? h = some (.intersection i))

include hi

theorem truth_atLeastTwoIncomingElements :
    n.setting.truth RuleId.atLeastTwoIncomingElements.standardCode [.element h] = .ok true ↔
      i.hasIncomings = true := by
  have hsize : n.setting.operand [.element h] (.sizeOf .incomings 0) = .ok (.int (itemCount i.incomings)) := by
    rw [operand_count n.view_setting hi rfl, itemCount_map, itemCount, List.length_range]; rfl
  rw [RuleId.standardCode, (truth_compared _ hsize rfl).trans (holds_ge_int _ _), Except.ok.injEq]
  rfl

/-- code about every incoming group of an intersection -/
theorem truth_everyGroup {body : Code} {r : IncomingGroup → Prop}
    (hb : ∀ (x : Value) (g : IncomingGroup),
      (∀ b ids, Builtin.readGroup? b g = some ids → b.apply n.view [x] = .ok (.ofIds ids)) →
      (n.setting.truth body [.element h, x] = .ok true ↔ r g)) :
    n.setting.truth (.quantified .every 1 (.operand (.of .incomings 0)) body) [.element h] = .ok true ↔
      ∀ g ∈ i.incomings, r g := by
  obtain ⟨k, rfl, hk⟩ := Network.element?_eq_intersection.1 hi
  rw [truth_every _ (items_read n.view_setting (b := .incomings) hi rfl []), List.forall_mem_map]
  have one : ∀ j (hj : j < i.incomings.length),
      (n.setting.truth body [.element ⟨.intersection, k⟩, .part ⟨⟨.intersection, k⟩, .incomingGroup, j⟩] = .ok true ↔
        r i.incomings[j]) := fun j hj =>
    hb _ _ fun b ids hv => Builtin.apply_of_readGroup? hk (List.getElem?_eq_getElem hj) hv
  constructor
  · intro hall g hg
    obtain ⟨j, hj, rfl⟩ := List.getElem_of_mem hg
    exact (one j hj).1 (hall j (List.mem_range.2 hj))
  · intro hall j hj
    exact (one j (List.mem_range.1 hj)).2 (hall _ (List.getElem_mem _))

theorem truth_allOfGroups {list : Builtin} {ids : IncomingGroup → List ElementId}
    (hl : ∀ g, list.readGroup? g = some (ids g)) :
    n.setting.truth (.allOfGroups list) [.element h] = .ok true ↔
      ∀ id ∈ i.incomings.flatMap ids, n.resolves .lanelet id = true := by
  rw [Code.allOfGroups, truth_everyGroup hi (r := fun g => ∀ id ∈ ids g, n.resolves .lanelet id = true)]
  · simp only [List.mem_flatMap]
    exact ⟨fun hall id ⟨g, hg, hid⟩ => hall g hg id hid, fun hall g hg id hid => hall id ⟨g, hg, hid⟩⟩
  · intro x g hx
    have hread : n.setting.operand [.element h, x] (.of list 1) = .ok (.ofIds (ids g)) :=
      operand_of n.view_setting 1 rfl (hx _ _ (hl g))
    have hitems : n.setting.items [.element h, x] (.operand (.of list 1)) = .ok ((ids g).map Value.ofId) := by
      simp only [items, hread]; rfl
    rw [truth_every _ hitems, List.forall_mem_map]
    refine forall₂_congr fun id _ => ?_
    rw [truth_predicate [.ofId id] rfl (call_exists (b := .laneletExists) rfl id), Except.ok.injEq]

theorem truth_atLeastOneRoadConnection :
    n.setting.truth RuleId.atLeastOneRoadConnection.standardCode [.element h] = .ok true ↔
      i.hasConnections = true := by
  rw [Intersection.hasConnections, List.all_eq_true]
  refine truth_everyGroup hi fun x g hx => ?_
  have size : ∀ b ids, Builtin.readGroup? b g = some ids →
      n.setting.truth (.compared .gt (.sizeOf b 1) (.number 0)) [.element h, x] = .ok (0 < itemCount ids) := by
    intro b ids hb
    have hlist : n.setting.operand [.element h, x] (.of b 1) = .ok (.list (ids.map Value.ofId)) :=
      operand_of n.view_setting 1 rfl (hx _ _ hb)
    rw [(truth_compared _ (operand_sizeOf hlist) rfl).trans (holds_gt_int _ _), List.length_map]
    rfl
  rw [truth_or (truth_or (size .successorsLeft _ rfl) (size .successorsRight _ rfl)) (size .successorsStraight _ rfl),
    Except.ok.injEq]

end Intersection

end Setting

end RoadRules
