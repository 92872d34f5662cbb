/-
The fewest digits of a double stand for a number in its interval.

A point of a decimal grid is taken only if it lies in the interval. With seventeen digits the step of the grid is
smaller than twice the distance to either end, so the nearer neighbour of the double lies inside: the search always
finds something.

- `magnitude_le`: the double has at least as many digits in front of the point as its magnitude says.
- `onGrid_inside`, `onGrid_isSome`: what is taken from a grid, and when there is something to take.
- `shortest_roundsTo`: the shortest digits are rounded to the double.
-/
import RoadRules.Proofs.Number.Reading

namespace RoadRules.Number

/-! ## Quotients -/

/-- the quotient that a mantissa and an exponent stand for -/
theorem fraction_value (m : Nat) (e : Int) :
    ((fraction m e).1 / (fraction m e).2 : ℚ) = m * 2 ^ e ∧ 0 < (fraction m e).2 := by
  cases e with
  | ofNat e =>
    refine ⟨?_, one_pos⟩
    rw [fraction, Nat.shiftLeft_eq, Int.ofNat_eq_natCast, zpow_natCast]
    push_cast
    ring
  | negSucc e =>
    refine ⟨?_, by simp [fraction, Nat.one_shiftLeft]⟩
    rw [fraction, Nat.one_shiftLeft, zpow_negSucc]
    push_cast
    ring

/-- a number is not smaller than the power of ten that its magnitude says -/
theorem magnitude_le {num den : Nat} (hnum : 0 < num) (hden : 0 < den) :
    (10 : ℚ) ^ (magnitude num den - 1) ≤ num / den := by
  have hden' : (0 : ℚ) < den := by exact_mod_cast hden
  have hnum' : (0 : ℚ) < num := by exact_mod_cast hnum
  unfold magnitude
  split_ifs with hle
  · exact (length_text (Nat.div_pos hle hden)).1.trans Nat.cast_div_le
  · -- the reciprocal is smaller than the power of ten
    have hpos : 0 < (den - 1) / num := Nat.div_pos (by omega) hnum
    have hlt := (length_text hpos).2
    rw [zpow_natCast] at hlt
    have hlt : (den - 1) / num < 10 ^ (toString ((den - 1) / num)).length := by exact_mod_cast hlt
    have hden : den ≤ 10 ^ (toString ((den - 1) / num)).length * num := by
      have := (Nat.div_lt_iff_lt_mul hnum).1 hlt
      omega
    have hden : (den : ℚ) ≤ 10 ^ (toString ((den - 1) / num)).length * num := by exact_mod_cast hden
    rw [sub_right_comm, sub_self, zero_sub, zpow_neg, zpow_natCast, le_div_iff₀ hden', inv_mul_le_iff₀ (by positivity)]
    exact hden

/-! ## Grids -/

namespace Interval

variable {i : Interval} {unit num den n : Nat} {exponent : Int}

theorem of_holds (hunit : 0 < unit) (hden : 0 < den) (h : i.holds unit num den = true) :
    (i.low / unit : ℚ) ≤ num / den ∧ (num / den : ℚ) ≤ i.high / unit ∧
      (i.closed = false → (i.low / unit : ℚ) < num / den ∧ (num / den : ℚ) < i.high / unit) := by
  have hunit : (0 : ℚ) < unit := by exact_mod_cast hunit
  have hden : (0 : ℚ) < den := by exact_mod_cast hden
  rw [div_le_div_iff₀ hunit hden, div_le_div_iff₀ hden hunit, div_lt_div_iff₀ hunit hden, div_lt_div_iff₀ hden hunit]
  norm_cast
  unfold holds at h
  split_ifs at h with hclosed
  · simp only [Bool.and_eq_true, decide_eq_true_eq] at h
    exact ⟨h.1, h.2, fun hopen => absurd hclosed (by simp [hopen])⟩
  · simp only [Bool.and_eq_true, decide_eq_true_eq] at h
    exact ⟨h.1.le, h.2.le, fun _ => h⟩

theorem holds_of_lt (hunit : 0 < unit) (hden : 0 < den) (hlow : (i.low / unit : ℚ) < num / den)
    (hhigh : (num / den : ℚ) < i.high / unit) : i.holds unit num den = true := by
  have hunit : (0 : ℚ) < unit := by exact_mod_cast hunit
  have hden : (0 : ℚ) < den := by exact_mod_cast hden
  rw [div_lt_div_iff₀ hunit hden] at hlow
  rw [div_lt_div_iff₀ hden hunit] at hhigh
  norm_cast at hlow hhigh
  unfold holds
  split_ifs
  · simp only [Bool.and_eq_true, decide_eq_true_eq]
    exact ⟨hlow.le, hhigh.le⟩
  · simp only [Bool.and_eq_true, decide_eq_true_eq]
    exact ⟨hlow, hhigh⟩

/-- the two points of a grid that are tried -/
theorem onGrid_eq (i : Interval) (unit : Nat) (exponent : Int) :
    ∃ a b : Nat, 0 < a ∧ 0 < b ∧ (a / b : ℚ) = 10 ^ exponent ∧
      ∃ near far, near = (if 2 * (i.value * b % (unit * a)) < unit * a then i.value * b / (unit * a)
          else i.value * b / (unit * a) + 1) ∧
        i.onGrid unit exponent = if i.holds unit (near * a) b then some near
          else if i.holds unit (far * a) b then some far else none := by
  cases exponent with
  | ofNat k => exact ⟨10 ^ k, 1, by positivity, one_pos, by simp, _, _, rfl, rfl⟩
  | negSucc k =>
    refine ⟨1, 10 ^ (k + 1), one_pos, by positivity, ?_, _, _, rfl, rfl⟩
    rw [zpow_negSucc]
    push_cast
    ring

/-- what is taken from a grid lies in the interval -/
theorem onGrid_inside (hunit : 0 < unit) (h : i.onGrid unit exponent = some n) :
    (i.low / unit : ℚ) ≤ n * 10 ^ exponent ∧ (n * 10 ^ exponent : ℚ) ≤ i.high / unit ∧
      (i.closed = false → (i.low / unit : ℚ) < n * 10 ^ exponent ∧ (n * 10 ^ exponent : ℚ) < i.high / unit) := by
  obtain ⟨a, b, -, hb, hstep, near, far, -, heq⟩ := onGrid_eq i unit exponent
  have hholds : i.holds unit (n * a) b = true := by
    rw [heq] at h
    split_ifs at h <;> cases h <;> assumption
  have hvalue : (n * 10 ^ exponent : ℚ) = (n * a : Nat) / b := by
    rw [← hstep]
    push_cast
    ring
  rw [hvalue]
  exact of_holds hunit hb hholds

/-- the integer nearest to a quotient -/
theorem near_spec (hden : 0 < den) (hn : n = if 2 * (num % den) < den then num / den else num / den + 1) :
    (n : ℚ) - 1 / 2 ≤ num / den ∧ (num / den : ℚ) ≤ n + 1 / 2 := by
  have hdiv := Nat.div_add_mod num den
  have hlt := Nat.mod_lt num hden
  have hden' : (0 : ℚ) < den := by exact_mod_cast hden
  have hnat : 2 * (n * den) ≤ 2 * num + den ∧ 2 * num ≤ 2 * (n * den) + den := by
    rw [mul_comm n den, hn]
    split_ifs
    · omega
    · rw [Nat.mul_succ]
      omega
  have hlow : (2 * (n * den) : ℚ) ≤ 2 * num + den := by exact_mod_cast hnat.1
  have hhigh : (2 * num : ℚ) ≤ 2 * (n * den) + den := by exact_mod_cast hnat.2
  rw [le_div_iff₀ hden', div_le_iff₀ hden']
  constructor <;> nlinarith

/-- a grid with steps of less than twice the distance to either end has a point in the interval -/
theorem onGrid_isSome (hunit : 0 < unit) (hlow : (10 : ℚ) ^ exponent / 2 < i.value / unit - i.low / unit)
    (hhigh : (10 : ℚ) ^ exponent / 2 < i.high / unit - i.value / unit) : (i.onGrid unit exponent).isSome = true := by
  obtain ⟨a, b, ha, hb, hstep, near, far, hnear, heq⟩ := onGrid_eq i unit exponent
  have hpow : (0 : ℚ) < 10 ^ exponent := by positivity
  obtain ⟨hbelow, habove⟩ := near_spec (Nat.mul_pos hunit ha) hnear
  have hquotient : ((i.value * b : Nat) / (unit * a : Nat) : ℚ) = i.value / unit / 10 ^ exponent := by
    rw [← hstep]
    push_cast
    field_simp
  rw [hquotient, le_div_iff₀ hpow] at hbelow
  rw [hquotient, div_le_iff₀ hpow] at habove
  have hvalue : ((near * a : Nat) / b : ℚ) = near * 10 ^ exponent := by
    rw [← hstep]
    push_cast
    ring
  have hholds : i.holds unit (near * a) b = true := by
    refine holds_of_lt hunit hb ?_ ?_
    · rw [hvalue]
      linarith
    · rw [hvalue]
      linarith
  rw [heq, if_pos hholds]
  rfl

end Interval

/-! ## The fewest digits -/

/-- the interval of a double with whole numbers for ends, and the number that they are divided by -/
def scaled (m : Nat) (e : Int) : Interval × Nat :=
  let (unitNum, unit) := fraction 1 (e - 2)
  let i := interval m e
  (⟨i.low * unitNum, i.value * unitNum, i.high * unitNum, i.closed⟩, unit)

/-- the magnitude of a double -/
def top (m : Nat) (e : Int) : Int :=
  let (num, den) := fraction (interval m e).value (e - 2)
  magnitude num den

/-- a point with `count` digits in the interval of a double -/
def ofLength (m : Nat) (e : Int) (count : Nat) : Option Decimal :=
  ((scaled m e).1.onGrid (scaled m e).2 (top m e - count)).map fun n => ⟨n, top m e - count⟩

section Shortest

variable {m : Nat} {e : Int}

theorem shortest_eq (m : Nat) (e : Int) : shortest m e =
    ((List.range 18).findSome? fun k => ofLength m e (k + 1)).getD ⟨0, 0⟩ := by
  unfold shortest
  dsimp only
  split
  · next d hfound => exact (congrArg (Option.getD · ⟨0, 0⟩) hfound).symm
  · next hnone => exact (congrArg (Option.getD · ⟨0, 0⟩) hnone).symm

/-- the ends of the scaled interval are those of the interval -/
theorem scaled_eq (m : Nat) (e : Int) : 0 < (scaled m e).2 ∧ (scaled m e).1.closed = decide (m % 2 = 0) ∧
    ((scaled m e).1.low / (scaled m e).2 : ℚ) = (interval m e).low * 2 ^ (e - 2) ∧
    ((scaled m e).1.value / (scaled m e).2 : ℚ) = (interval m e).value * 2 ^ (e - 2) ∧
    ((scaled m e).1.high / (scaled m e).2 : ℚ) = (interval m e).high * 2 ^ (e - 2) := by
  obtain ⟨hscale, hunit⟩ := fraction_value 1 (e - 2)
  rw [Nat.cast_one, one_mul] at hscale
  have hscaled (n : Nat) : ((n * (fraction 1 (e - 2)).1 : Nat) / (fraction 1 (e - 2)).2 : ℚ) = n * 2 ^ (e - 2) := by
    rw [← hscale]
    push_cast
    ring
  exact ⟨hunit, rfl, hscaled _, hscaled _, hscaled _⟩

theorem ofLength_roundsTo {count : Nat} {d : Decimal} (h : ofLength m e count = some d) :
    RoundsTo m e (d.digits * 10 ^ d.exponent) := by
  obtain ⟨n, hn, rfl⟩ := Option.map_eq_some_iff.1 h
  obtain ⟨hunit, hclosed, hlow, -, hhigh⟩ := scaled_eq m e
  have hinside := Interval.onGrid_inside hunit hn
  rw [hlow, hhigh, hclosed] at hinside
  exact ⟨hinside.1, hinside.2.1, fun hodd => hinside.2.2 (by simp [hodd])⟩

/-- a step of `10 ^ -16` of a double is less than twice the distance to either end of its interval -/
theorem half_step_lt (hc : Canonical m e) {step quarter : ℚ} (hq : 0 < quarter)
    (hstep : step * 10 ^ 16 ≤ (interval m e).value * quarter) :
    step / 2 < ((interval m e).value - (interval m e).low) * quarter ∧
      step / 2 < ((interval m e).high - (interval m e).value) * quarter := by
  have hpos := hc.pos
  have hm : (m : ℚ) + 1 ≤ 2 ^ 53 := by exact_mod_cast hc.lt
  simp only [interval, Nat.one_shiftLeft] at hstep ⊢
  push_cast at hstep
  constructor
  · split_ifs with hpower
    · have hm : (m : ℚ) = 2 ^ 52 := by exact_mod_cast hpower.1
      push_cast [show 1 ≤ 4 * m by omega]
      nlinarith
    · push_cast [show 2 ≤ 4 * m by omega]
      nlinarith
  · push_cast
    nlinarith

/-- a double is not smaller than the power of ten that its magnitude says -/
theorem top_le (hc : Canonical m e) : (10 : ℚ) ^ (top m e - 1) ≤ (interval m e).value * 2 ^ (e - 2) := by
  obtain ⟨hquotient, hden⟩ := fraction_value (interval m e).value (e - 2)
  have hvalue : (0 : ℚ) < (interval m e).value := by exact_mod_cast Nat.mul_pos (by decide : 0 < 4) hc.pos
  have hnum : 0 < (fraction (interval m e).value (e - 2)).1 := by
    by_contra h
    rw [Nat.eq_zero_of_not_pos h, Nat.cast_zero, zero_div] at hquotient
    exact absurd hquotient (by positivity)
  exact hquotient ▸ magnitude_le hnum hden

/-- seventeen digits are enough -/
theorem ofLength_isSome (hc : Canonical m e) : (ofLength m e 17).isSome = true := by
  obtain ⟨hunit, -, hlow, hvalue, hhigh⟩ := scaled_eq m e
  have hstep : (10 : ℚ) ^ (top m e - (17 : Nat)) * 10 ^ 16 ≤ (interval m e).value * 2 ^ (e - 2) := by
    refine Eq.trans_le ?_ (top_le hc)
    rw [← zpow_natCast (10 : ℚ) 16, ← zpow_add₀ (by norm_num)]
    congr 1
    push_cast
    ring
  obtain ⟨hbelow, habove⟩ := half_step_lt hc (by positivity) hstep
  unfold ofLength
  rw [Option.isSome_map]
  exact Interval.onGrid_isSome hunit (by rwa [hvalue, hlow, ← sub_mul]) (by rwa [hvalue, hhigh, ← sub_mul])

/-- **Shortest digits.** They stand for a number that is rounded to the double. -/
theorem shortest_roundsTo (hc : Canonical m e) :
    RoundsTo m e ((shortest m e).digits * 10 ^ (shortest m e).exponent) := by
  rw [shortest_eq]
  cases h : (List.range 18).findSome? fun k => ofLength m e (k + 1) with
  | none =>
    have hnone := List.findSome?_eq_none_iff.1 h 16 (by decide)
    have hsome := ofLength_isSome hc
    rw [hnone] at hsome
    cases hsome
  | some d =>
    obtain ⟨k, -, hk⟩ := List.exists_of_findSome?_eq_some h
    exact ofLength_roundsTo hk

end Shortest

end RoadRules.Number
