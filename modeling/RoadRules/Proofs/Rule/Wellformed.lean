/-
Elements that are right in themselves, in plain terms.

A rule about a single element is a formula on counts of 64 bits, on doubles and on places in lists. For elements whose
lists can be counted (`Network.Representable`) it says what it is meant to say:

- `hasEvenBorders_iff`, `hasBorders_iff`, `hasAlignedBorders_iff`, `includesStopLineSigns_iff`: the borders of lanelets
  and the signs of stop lines.
- `hasPlates_iff`, `hasValues_iff`, `hasPositiveSpeeds_iff`: the plates of signs.
- `hasCycle_iff`, `hasLastingPhases_iff`, `hasDistinctPhases_iff`: the cycles of lights.
- `hasIncomings_iff`, `hasConnections_iff`: the incoming groups of intersections.
-/
import Mathlib
import RoadRules.Proofs.Geometry.Loops
import RoadRules.Proofs.Network.Nearest
import RoadRules.Proofs.Rule.Fault
import RoadRules.Rule.Builtin

namespace RoadRules

/-! ## Counting items -/

/-- can a count of 64 bits hold the number of items? -/
def FitsCount {α : Type} (items : List α) : Prop := items.length < 2 ^ 63

instance {α : Type} (items : List α) : Decidable (FitsCount items) := inferInstanceAs (Decidable (_ < _))

theorem lt_itemCount_iff {α : Type} {items : List α} (h : FitsCount items) {k : Nat} (hk : k < 2 ^ 63) :
    Int64.ofNat k < itemCount items ↔ k < items.length := by
  rw [itemCount, Int64.lt_iff_toInt_lt, Int64.toInt_ofNat_of_lt hk, Int64.toInt_ofNat_of_lt h, Nat.cast_lt]

theorem le_itemCount_iff {α : Type} {items : List α} (h : FitsCount items) {k : Nat} (hk : k < 2 ^ 63) :
    Int64.ofNat k ≤ itemCount items ↔ k ≤ items.length := by
  rw [itemCount, Int64.le_iff_toInt_le, Int64.toInt_ofNat_of_lt hk, Int64.toInt_ofNat_of_lt h, Nat.cast_le]

theorem FitsCount.sublist {α : Type} {l m : List α} (h : FitsCount m) (hs : l.Sublist m) : FitsCount l :=
  Nat.lt_of_le_of_lt hs.length_le h

/-- there are fewer ids than a count can hold -/
theorem fitsCount_ids (s : IdSet) : FitsCount s.toList := by
  have hnodup : (s.toList.map UInt32.toNat).Nodup := by
    refine List.Nodup.map (fun a b h => UInt32.toNat_inj.1 h) (s.sorted.imp fun {a b} hab heq => ?_)
    exact UInt32.lt_irrefl b (heq ▸ hab)
  have hsub : s.toList.map UInt32.toNat ⊆ List.range (2 ^ 32) := by
    intro k hk
    obtain ⟨id, -, rfl⟩ := List.mem_map.1 hk
    exact List.mem_range.2 id.toNat_lt
  have hle := (List.subperm_of_subset hnodup hsub).length_le
  rw [List.length_map, List.length_range] at hle
  exact Nat.lt_of_le_of_lt hle (by decide)

theorem itemCount_pos_iff (s : IdSet) : 0 < itemCount s.toList ↔ s.isEmpty = false := by
  refine (lt_itemCount_iff (fitsCount_ids s) (by decide : 0 < 2 ^ 63)).trans ?_
  rw [List.length_pos_iff, SortedSet.isEmpty, List.isEmpty_eq_false_iff]

theorem itemCount_inj {α β : Type} {l : List α} {m : List β} (hl : FitsCount l) (hm : FitsCount m) :
    itemCount l = itemCount m ↔ l.length = m.length := by
  rw [itemCount, itemCount, ← Int64.toInt_inj, Int64.toInt_ofNat_of_lt hl, Int64.toInt_ofNat_of_lt hm, Nat.cast_inj]

/-! ## Lanelets -/

namespace Lanelet

/-- are both borders short enough to be counted? -/
def FitsCounts (l : Lanelet) : Prop := FitsCount l.left ∧ FitsCount l.right

instance (l : Lanelet) : Decidable l.FitsCounts := inferInstanceAs (Decidable (_ ∧ _))

theorem hasEvenBorders_iff {l : Lanelet} (h : l.FitsCounts) :
    l.hasEvenBorders = true ↔ l.left.length = l.right.length := by
  rw [hasEvenBorders, decide_eq_true_iff, itemCount_inj h.1 h.2]

theorem hasBorders_iff {l : Lanelet} (h : l.FitsCounts) :
    l.hasBorders = true ↔ 1 < l.left.length ∧ 1 < l.right.length := by
  have hleft : 1 < itemCount l.left ↔ 1 < l.left.length := lt_itemCount_iff h.1 (by decide)
  have hright : 1 < itemCount l.right ↔ 1 < l.right.length := lt_itemCount_iff h.2 (by decide)
  rw [hasBorders, Bool.and_eq_true, decide_eq_true_iff, decide_eq_true_iff, hleft, hright]

theorem hasAlignedBorders_of {l : Lanelet} (h : ∀ a b z, l.left.head? = some a → l.right.head? = some b →
    l.right.getLast? = some z → a.distance b < a.distance z ∨ (a.distance b == a.distance z) = true) :
    l.hasAlignedBorders = true := by
  unfold hasAlignedBorders
  split_ifs with hcount
  · have nonempty {items : List Point} (h : 0 < itemCount items) : items ≠ [] := by
      rintro rfl
      exact absurd h (by decide)
    simp only [Bool.and_eq_true, decide_eq_true_eq] at hcount
    obtain ⟨a, left, hleft⟩ := List.exists_cons_of_ne_nil (nonempty hcount.1)
    obtain ⟨b, right, hright⟩ := List.exists_cons_of_ne_nil (nonempty hcount.2)
    obtain ⟨z, hz⟩ : ∃ z, l.right.getLast? = some z := ⟨_, List.getLast?_eq_some_getLast (nonempty hcount.2)⟩
    have ha : l.left[0]? = some a := by rw [hleft]; rfl
    have hb : l.right[0]? = some b := by rw [hright]; rfl
    have hz' : l.right.reverse[0]? = some z := by rw [← List.head?_eq_getElem?, List.head?_reverse, hz]
    have hdistance := h a b z (by rw [hleft]; rfl) (by rw [hright]; rfl) hz
    simp only [ha, hb, hz']
    simpa using hdistance
  · rfl

/-- the left border starts no farther from the start of the right one than from its end -/
theorem hasAlignedBorders_iff {l : Lanelet} (h : l.FitsCounts) : l.hasAlignedBorders = true ↔
    ∀ a b z, l.left.head? = some a → l.right.head? = some b → l.right.getLast? = some z →
      a.distance b ≤ a.distance z := by
  constructor
  · intro haligned a b z ha hb hz
    have counted {items : List Point} {p : Point} (hf : FitsCount items) (hp : p ∈ items) : 0 < itemCount items :=
      (lt_itemCount_iff hf (by decide : 0 < 2 ^ 63)).2 (List.length_pos_of_mem hp)
    have hleft := counted h.1 (List.mem_of_head? ha)
    have hright := counted h.2 (List.mem_of_head? hb)
    rw [List.head?_eq_getElem?] at ha hb
    have hz' : l.right.reverse[0]? = some z := by rw [← List.head?_eq_getElem?, List.head?_reverse, hz]
    simp only [hasAlignedBorders, hleft, hright, ha, hb, hz', decide_true, Bool.and_self, if_true, Bool.or_eq_true,
      decide_eq_true_eq] at haligned
    exact Double.le_iff.2 haligned
  · exact fun h => hasAlignedBorders_of fun a b z ha hb hz => Double.le_iff.1 (h a b z ha hb hz)

theorem includesStopLineSigns_iff {l : Lanelet} :
    l.includesStopLineSigns = true ↔ ∀ stop ∈ l.stopLine, ∀ id ∈ stop.trafficSigns, id ∈ l.trafficSigns := by
  cases hs : l.stopLine <;> simp [includesStopLineSigns, stopLineSigns, hs, SortedSet.mem_toList]

end Lanelet

/-! ## Signs -/

namespace TrafficSign

/-- are there few enough plates, and values on each of them, to be counted? -/
def FitsCounts (s : TrafficSign) : Prop := FitsCount s.plates ∧ ∀ p ∈ s.plates, FitsCount p.values

instance (s : TrafficSign) : Decidable s.FitsCounts := inferInstanceAs (Decidable (_ ∧ _))

theorem hasPlates_iff {s : TrafficSign} (hs : s.FitsCounts) : s.hasPlates = true ↔ s.plates ≠ [] := by
  have hcount : 1 ≤ itemCount s.plates ↔ 1 ≤ s.plates.length := le_itemCount_iff hs.1 (by decide)
  rw [hasPlates, decide_eq_true_iff, hcount, Nat.one_le_iff_ne_zero, ne_eq, List.length_eq_zero_iff]

/-- plates that need a value are counted as having one if they have one -/
theorem hasValues_iff {s : TrafficSign} (hs : ∀ p ∈ s.plates, FitsCount p.values) :
    s.hasValues = true ↔ ∀ p ∈ s.plates, needsValue p.code = true → p.values ≠ [] := by
  rw [hasValues, List.all_eq_true]
  refine forall₂_congr fun p hp => ?_
  have hcount : 0 < itemCount p.values ↔ 0 < p.values.length := lt_itemCount_iff (hs p hp) (by decide : 0 < 2 ^ 63)
  rw [Bool.or_eq_true, Bool.not_eq_true', decide_eq_true_iff, hcount, List.length_pos_iff, ← Bool.not_eq_true,
    imp_iff_not_or]

theorem compareFloat?_of_pos {v : Float} (h : 0.0 < v) : Value.compareFloat? v (Number.ofInt64 0) = some .gt := by
  have hzero : Number.ofInt64 0 = 0.0 := by decide +kernel
  rw [hzero, Value.compareFloat?, if_neg (Double.lt_asymm h), if_neg (by simp [Double.not_beq_of_lt h]), if_pos h]

/-- only what is above zero is greater than zero for a formula -/
theorem compareFloat?_iff {v : Float} : Value.compareFloat? v (Number.ofInt64 0) = some .gt ↔ 0.0 < v := by
  refine ⟨fun h => ?_, compareFloat?_of_pos⟩
  have hzero : Number.ofInt64 0 = 0.0 := by decide +kernel
  rw [hzero, Value.compareFloat?] at h
  split_ifs at h with hlt heq hgt <;> first | exact hgt | cases h

/-- speed limits are greater than zero for a formula if they are above zero -/
theorem hasPositiveSpeeds_iff {s : TrafficSign} : s.hasPositiveSpeeds = true ↔
    ∀ p ∈ s.plates, isSpeedLimitCode p.code = true → ∀ v ∈ p.values, 0.0 < v := by
  simp only [hasPositiveSpeeds, List.all_eq_true, Bool.or_eq_true, Bool.not_eq_true', beq_iff_eq, compareFloat?_iff]
  refine forall₂_congr fun p hp => ?_
  rw [imp_iff_not_or, Bool.not_eq_true]

end TrafficSign

/-! ## Lights -/

namespace TrafficLight

theorem hasCycle_iff {t : TrafficLight} (ht : FitsCount t.cycle) : t.hasCycle = true ↔ t.cycle ≠ [] := by
  have hcount : 1 ≤ itemCount t.cycle ↔ 1 ≤ t.cycle.length := le_itemCount_iff ht (by decide)
  rw [hasCycle, decide_eq_true_iff, hcount, Nat.one_le_iff_ne_zero, ne_eq, List.length_eq_zero_iff]

/-- a duration is positive for a formula if it is -/
theorem lasts_iff {d : UInt32} : 0 < Int64.ofNat d.toNat ↔ 0 < d := by
  have hd : d.toNat < 2 ^ 63 := Nat.lt_of_lt_of_le d.toNat_lt (by decide)
  rw [Int64.lt_iff_toInt_lt, Int64.toInt_ofNat_of_lt hd, UInt32.lt_iff_toNat_lt]
  exact Int.natCast_pos

theorem hasLastingPhases_iff {t : TrafficLight} : t.hasLastingPhases = true ↔ ∀ c ∈ t.cycle, 0 < c.duration := by
  simp only [hasLastingPhases, List.all_eq_true, decide_eq_true_eq, lasts_iff]

/-- the phases of a cycle, as formulas see them -/
def phaseValues (phases : List Phase) : List Value := phases.map fun p => .str p.name

/-- the first place of a phase that occurs -/
theorem exists_firstPlace {phases : List Phase} {p : Phase} (hp : p ∈ phases) : ∃ i, phases[i]? = some p ∧
    (∀ j, phases[j]? = some p → i ≤ j) ∧ firstPlace (phaseValues phases) (.str p.name) = .ok (.ofNat i) := by
  have hname : Function.Injective Phase.name := by
    intro a b
    cases a <;> cases b <;> decide
  have same : ∀ q : Phase, (Value.str q.name).looseEq (.str p.name) = true ↔ q = p := fun q => by
    simpa [Value.looseEq] using hname.eq_iff
  obtain ⟨i, hi⟩ : ∃ i, (phaseValues phases).findIdx? (·.looseEq (.str p.name)) = some i := by
    rw [← Option.isSome_iff_exists, List.findIdx?_isSome]
    exact List.any_eq_true.2 ⟨_, List.mem_map_of_mem hp, (same p).2 rfl⟩
  obtain ⟨hlt, hat, hbefore⟩ := List.findIdx?_eq_some_iff_getElem.1 hi
  simp only [phaseValues, List.getElem_map, List.length_map, same] at hlt hat hbefore
  refine ⟨i, List.getElem?_eq_some_iff.2 ⟨hlt, hat⟩, fun j hj => ?_, by rw [firstPlace, hi]⟩
  obtain ⟨_, hj⟩ := List.getElem?_eq_some_iff.1 hj
  exact Nat.le_of_not_lt fun hji => hbefore j hji hj

theorem minus_ofNat {a b : Nat} (h : b ≤ a) (ha : a < 2 ^ 63) :
    Builtin.arithmetic Builtin.sub.name (· - ·) (· - ·) (.ofNat a) (.ofNat b) = .ok (.ofNat (a - b)) := by
  have hsub : (a : Int) - b = ((a - b : Nat) : Int) := (Nat.cast_sub h).symm
  have hmin : Int64.minValue.toInt ≤ ((a - b : Nat) : Int) :=
    Int.le_trans (by decide : Int64.minValue.toInt ≤ 0) (Int.natCast_nonneg _)
  have hmax : ((a - b : Nat) : Int) ≤ Int64.maxValue.toInt := by
    have : Int64.maxValue.toInt = 2 ^ 63 - 1 := by decide
    omega
  simp only [Builtin.arithmetic, Value.ofNat, Int64.toInt_ofNat_of_lt ha,
    Int64.toInt_ofNat_of_lt (Nat.lt_of_le_of_lt h ha), hsub]
  rw [if_pos ⟨hmin, hmax⟩, Int64.ofInt_eq_ofNat]

theorem looseEq_ofNat {a b : Nat} (ha : a < 2 ^ 63) (hb : b < 2 ^ 63) :
    (Value.ofNat a).looseEq (.ofNat b) = true ↔ a = b := by
  rw [Value.ofNat, Value.ofNat, Value.looseEq, beq_iff_eq, ← Int64.toInt_inj, Int64.toInt_ofNat_of_lt ha,
    Int64.toInt_ofNat_of_lt hb, Nat.cast_inj]

/-- a list has no repetitions if each of its items is in one place only -/
theorem nodup_iff_places {phases : List Phase} :
    phases.Nodup ↔ ∀ p ∈ phases, ∀ i j : Nat, phases[i]? = some p → phases[j]? = some p → i = j := by
  rw [List.nodup_iff_getElem?_ne_getElem?]
  constructor
  · intro h p _ i j hi hj
    rcases Nat.lt_trichotomy i j with hlt | heq | hgt
    · exact absurd (hi.trans hj.symm) (h i j hlt (List.getElem?_eq_some_iff.1 hj).1)
    · exact heq
    · exact absurd (hj.trans hi.symm) (h j i hgt (List.getElem?_eq_some_iff.1 hi).1)
  · intro h i j hij hj heq
    have hjp : phases[j]? = some phases[j] := List.getElem?_eq_getElem hj
    exact Nat.ne_of_lt hij (h _ (List.getElem_mem hj) i j (heq.trans hjp) hjp)

/-- Each phase of a cycle has its first place where it has its last one if no phase occurs twice. -/
theorem hasDistinctPhases_iff {t : TrafficLight} (ht : FitsCount t.cycle) :
    t.hasDistinctPhases = true ↔ (t.cycle.map (·.phase)).Nodup := by
  have hvalues : (t.cycle.map fun c => Value.str c.phase.name) = phaseValues (t.cycle.map (·.phase)) := by
    rw [phaseValues, List.map_map]
    rfl
  have hshort : (t.cycle.map (·.phase)).length < 2 ^ 63 := by rwa [List.length_map]
  unfold hasDistinctPhases
  simp only [hvalues]
  generalize t.cycle.map (·.phase) = phases at hshort
  rw [nodup_iff_places, List.all_eq_true, phaseValues, List.forall_mem_map, ← phaseValues]
  refine forall₂_congr fun p hp => ?_
  obtain ⟨i, hi, hfirst, hplace⟩ := exists_firstPlace hp
  obtain ⟨k, hk, hlast, hbehind⟩ := exists_firstPlace (List.mem_reverse.2 hp)
  have hreverse : (phaseValues phases).reverse = phaseValues phases.reverse := List.map_reverse.symm
  have hlength : itemCount (phaseValues phases) = Int64.ofNat phases.length := by
    rw [itemCount, phaseValues, List.length_map]
  -- counted from behind, the last place of the phase is `k`
  have hilt : i < phases.length := (List.getElem?_eq_some_iff.1 hi).1
  have hk' : k < phases.length := by simpa using (List.getElem?_eq_some_iff.1 hk).1
  have hlast' : ∀ j, phases[j]? = some p → j ≤ phases.length - 1 - k := by
    intro j hj
    have hjlt := (List.getElem?_eq_some_iff.1 hj).1
    have := hlast (phases.length - 1 - j) (by
      rw [List.getElem?_reverse (by omega), show phases.length - 1 - (phases.length - 1 - j) = j by omega, hj])
    omega
  have hkp : phases[phases.length - 1 - k]? = some p := by rwa [List.getElem?_reverse hk'] at hk
  have hone := minus_ofNat (a := phases.length) (b := 1) (by omega) hshort
  have hminus := minus_ofNat (a := phases.length - 1) (b := k) (by omega) (by omega)
  rw [hplace, hreverse, hbehind, hlength, show Value.int (Int64.ofNat phases.length) = .ofNat phases.length from rfl,
    show Value.int 1 = .ofNat 1 from rfl, hone]
  simp only [bind, Except.bind, pure, Except.pure, hminus]
  rw [looseEq_ofNat (by omega) (by omega)]
  constructor
  · intro heq j j' hj hj'
    have := hfirst j hj
    have := hlast' j hj
    have := hfirst j' hj'
    have := hlast' j' hj'
    omega
  · exact fun honly => honly i _ hi hkp

/-- in a cycle without repeated phases the first place of each phase is the last one -/
theorem hasDistinctPhases_of {t : TrafficLight} (h : (t.cycle.map (·.phase)).Nodup) : t.hasDistinctPhases = true := by
  refine (hasDistinctPhases_iff ?_).2 h
  -- there are five phases
  have hsub : t.cycle.map (·.phase) ⊆ Phase.values := fun p _ => by cases p <;> decide
  have hle := (List.subperm_of_subset h hsub).length_le
  rw [List.length_map] at hle
  exact Nat.lt_of_le_of_lt hle (by decide)

end TrafficLight

/-! ## Intersections -/

namespace Intersection

theorem hasIncomings_iff {i : Intersection} (hi : FitsCount i.incomings) :
    i.hasIncomings = true ↔ 2 ≤ i.incomings.length := by
  have hcount : 2 ≤ itemCount i.incomings ↔ 2 ≤ i.incomings.length := le_itemCount_iff hi (by decide)
  rw [hasIncomings, decide_eq_true_iff, hcount]

/-- groups that lead somewhere are seen to do so -/
theorem hasConnections_iff {i : Intersection} : i.hasConnections = true ↔ ∀ g ∈ i.incomings, g.successors ≠ [] := by
  have counted (s : IdSet) : 0 < itemCount s.toList ↔ s.toList ≠ [] := by
    rw [itemCount_pos_iff, SortedSet.isEmpty, List.isEmpty_eq_false_iff]
  simp only [hasConnections, List.all_eq_true, Bool.or_eq_true, decide_eq_true_eq, counted, IncomingGroup.successors,
    ne_eq, List.append_eq_nil_iff, not_and_or]

end Intersection

/-! ## Networks -/

/-- Are the lists that the elements consist of ones that a memory can hold? None of them is longer than 64 bits can
count, however many elements the network has. -/
structure Network.Representable (n : Network) : Prop where
  lanelets : ∀ l ∈ n.lanelets.values, l.FitsCounts
  trafficSigns : ∀ s ∈ n.trafficSigns.values, s.FitsCounts
  trafficLights : ∀ t ∈ n.trafficLights.values, FitsCount t.cycle
  intersections : ∀ i ∈ n.intersections.values, FitsCount i.incomings

end RoadRules
