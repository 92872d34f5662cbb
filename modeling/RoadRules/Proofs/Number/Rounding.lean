/-
What is rounded to a double.

Each positive finite double is the one to which the numbers of an interval around it are rounded (`RoundsTo`). Quotients
are computed with two bits for what is left (`Extends`), so they are rounded like the exact number.

- `roundWithAccuracy_eq`: a quotient in the interval of a double is rounded to it.
- `div_eq`: two doubles divide to the double in whose interval their quotient lies.
-/
import RoadRules.Proofs.Number.Bits

namespace RoadRules.Number

open Float.Model Float.Model.UnpackedFloat

/-! ## Rounding -/

/-- The quotient `num / den` as an integer and two bits: is at least a half left, and is there anything else than
nothing and a half? -/
structure Extends (num den : Nat) (m : ExtendedMantissa) : Prop where
  mantissa : m.mantissa = num / den
  roundBit : m.roundBit = decide (den ≤ 2 * (num % den))
  stickyBit : m.stickyBit = decide (num % den ≠ 0 ∧ 2 * (num % den) ≠ den)

namespace Extends

variable {num den : Nat} {m : ExtendedMantissa}

theorem ofFraction (hden : 0 < den) :
    Extends num den (.ofMantissaAndAccuracy (num / den) (accuracyOfFraction (num % den) den)) := by
  unfold accuracyOfFraction
  split_ifs with hzero
  · refine ⟨rfl, ?_, ?_⟩ <;> simp [ExtendedMantissa.ofMantissaAndAccuracy, hzero, hden.ne']
  · rcases lt_trichotomy (2 * (num % den)) den with h | h | h
    · rw [Nat.compare_eq_lt.2 h]
      refine ⟨rfl, ?_, ?_⟩ <;> simp [ExtendedMantissa.ofMantissaAndAccuracy] <;> omega
    · rw [Nat.compare_eq_eq.2 h]
      refine ⟨rfl, ?_, ?_⟩ <;> simp [ExtendedMantissa.ofMantissaAndAccuracy] <;> omega
    · rw [Nat.compare_eq_gt.2 h]
      refine ⟨rfl, ?_, ?_⟩ <;> simp [ExtendedMantissa.ofMantissaAndAccuracy] <;> omega

/-- one place less is half the quotient -/
theorem shiftRightOne (h : Extends num den m) (hden : 0 < den) : Extends num (den * 2) m.shiftRightOne := by
  have hlt := Nat.mod_lt num hden
  have hmod : num % (den * 2) = num % den + den * (num / den % 2) := Nat.mod_mul
  refine ⟨?_, ?_, ?_⟩
  · rw [ExtendedMantissa.shiftRightOne, h.mantissa, Nat.div_div_eq_div_mul]
  · rw [hmod]
    simp only [ExtendedMantissa.shiftRightOne, h.mantissa]
    rcases Nat.mod_two_eq_zero_or_one (num / den) with hq | hq <;> simp [hq] <;> omega
  · rw [hmod]
    simp only [ExtendedMantissa.shiftRightOne, h.roundBit, h.stickyBit]
    rcases Nat.mod_two_eq_zero_or_one (num / den) with hq | hq <;>
      simp only [hq, ← Bool.decide_or, decide_eq_decide] <;> omega

theorem shiftRight (h : Extends num den m) (hden : 0 < den) (s : Nat) : Extends num (den * 2 ^ s) (m >>> s) := by
  change Extends num (den * 2 ^ s) (s.repeat ExtendedMantissa.shiftRightOne m)
  induction s with
  | zero => simpa [Nat.repeat] using h
  | succ s ih =>
    rw [pow_succ, ← mul_assoc]
    exact ih.shiftRightOne (by positivity)

theorem roundedMantissa (h : Extends num den m) (hden : 0 < den) : m.roundedMantissa = roundHalfEven num den := by
  obtain ⟨mantissa, roundBit, stickyBit⟩ := m
  obtain ⟨rfl, rfl, rfl⟩ := h
  unfold ExtendedMantissa.roundedMantissa ExtendedMantissa.accuracy roundHalfEven
  have hlt := Nat.mod_lt num hden
  dsimp only
  split_ifs <;> split <;> simp_all [Accuracy.roundToNearestEven] <;> omega

end Extends

/-- a quotient is rounded to an integer that is not more than a half away, and to an odd one only if it is nearer -/
theorem roundHalfEven_eq {num den m : Nat} (hden : 0 < den) (hlow : (m : ℚ) - 1 / 2 ≤ num / den)
    (hhigh : (num : ℚ) / den ≤ m + 1 / 2)
    (hodd : m % 2 = 1 → (m : ℚ) - 1 / 2 < num / den ∧ (num : ℚ) / den < m + 1 / 2) : roundHalfEven num den = m := by
  have hden' : (0 : ℚ) < den := by exact_mod_cast hden
  have hlow : 2 * (m * den) ≤ 2 * num + den := by
    rw [le_div_iff₀ hden'] at hlow
    have : (2 * (m * den) : ℚ) ≤ 2 * num + den := by linarith
    exact_mod_cast this
  have hhigh : 2 * num ≤ 2 * (m * den) + den := by
    rw [div_le_iff₀ hden'] at hhigh
    have : (2 * num : ℚ) ≤ 2 * (m * den) + den := by linarith
    exact_mod_cast this
  have hodd : m % 2 = 1 → 2 * (m * den) < 2 * num + den ∧ 2 * num < 2 * (m * den) + den := by
    intro h
    obtain ⟨h₁, h₂⟩ := hodd h
    rw [lt_div_iff₀ hden'] at h₁
    rw [div_lt_iff₀ hden'] at h₂
    have h₁ : (2 * (m * den) : ℚ) < 2 * num + den := by linarith
    have h₂ : (2 * num : ℚ) < 2 * (m * den) + den := by linarith
    exact ⟨by exact_mod_cast h₁, by exact_mod_cast h₂⟩
  have hnum := Nat.div_add_mod num den
  have hlt := Nat.mod_lt num hden
  unfold roundHalfEven
  generalize num / den = q at *
  generalize num % den = r at *
  subst hnum
  -- the integer is the quotient or one more
  have hle : q ≤ m := by
    by_contra h
    nlinarith
  have hge : m ≤ q + 1 := by
    by_contra h
    nlinarith
  obtain rfl | rfl : m = q ∨ m = q + 1 := by omega
  · dsimp only
    rw [mul_comm m den] at hlow hhigh hodd
    split_ifs <;> omega
  · dsimp only
    have hprod : (q + 1) * den = den * q + den := by ring
    rw [hprod] at hlow hhigh hodd
    split_ifs <;> omega

theorem two_zpow_add (j : Nat) (k : Int) : (2 : ℚ) ^ ((j : Int) + k) = 2 ^ j * 2 ^ k := by
  rw [zpow_add₀ (by norm_num), zpow_natCast]

/-- does a number lie in the interval of the numbers that are rounded to `m * 2 ^ e`? -/
structure RoundsTo (m : Nat) (e : Int) (v : ℚ) : Prop where
  low : ((interval m e).low : ℚ) * 2 ^ (e - 2) ≤ v
  high : v ≤ ((interval m e).high : ℚ) * 2 ^ (e - 2)
  odd : m % 2 = 1 → ((interval m e).low : ℚ) * 2 ^ (e - 2) < v ∧ v < ((interval m e).high : ℚ) * 2 ^ (e - 2)

namespace RoundsTo

variable {m : Nat} {e : Int} {v : ℚ}

/-- a number in the interval is at most half a place away -/
theorem near (h : RoundsTo m e v) (hpos : 0 < m) : (m : ℚ) - 1 / 2 ≤ v / 2 ^ e ∧ v / 2 ^ e ≤ m + 1 / 2 ∧
    (m % 2 = 1 → (m : ℚ) - 1 / 2 < v / 2 ^ e ∧ v / 2 ^ e < m + 1 / 2) := by
  have hpow : (0 : ℚ) < 2 ^ e := by positivity
  have hsplit : (2 : ℚ) ^ (e - 2) = 2 ^ e / 4 := by
    rw [zpow_sub₀ (by norm_num)]
    norm_num
  obtain ⟨hlow, hhigh, hodd⟩ := h
  rw [hsplit] at hlow hhigh hodd
  have hbelow : (4 * m - 2 : ℚ) ≤ ((interval m e).low : ℚ) := by
    simp only [interval]
    split_ifs
    · push_cast [show 1 ≤ 4 * m by omega]
      linarith
    · push_cast [show 2 ≤ 4 * m by omega]
      linarith
  have habove : ((interval m e).high : ℚ) = 4 * m + 2 := by
    simp [interval]
  rw [habove] at hhigh hodd
  rw [le_div_iff₀ hpow, div_le_iff₀ hpow, lt_div_iff₀ hpow, div_lt_iff₀ hpow]
  refine ⟨by nlinarith, by nlinarith, fun hm => ?_⟩
  obtain ⟨h₁, h₂⟩ := hodd hm
  exact ⟨by nlinarith, by nlinarith⟩

/-- a number in the interval of a double is larger than zero -/
theorem ge (h : RoundsTo m e v) (hm : 0 < m) : 2 ^ (e - 1) ≤ v := by
  obtain ⟨hlow, -, -⟩ := h.near hm
  have hpow : (0 : ℚ) < 2 ^ e := by positivity
  have hm : (1 : ℚ) ≤ m := by exact_mod_cast hm
  rw [le_div_iff₀ hpow] at hlow
  rw [zpow_sub₀ (by norm_num), zpow_one]
  nlinarith

/-- a number in the interval of a double is smaller than the powers of two that are not doubles -/
theorem lt (h : RoundsTo m e v) (hc : Canonical m e) : v < 2 ^ (53 + e) := by
  obtain ⟨-, hhigh, -⟩ := h.near hc.pos
  have hpow : (0 : ℚ) < 2 ^ e := by positivity
  have hm : (m : ℚ) + 1 ≤ 2 ^ 53 := by exact_mod_cast hc.lt
  rw [div_le_iff₀ hpow] at hhigh
  have hsplit : (2 : ℚ) ^ (53 + e) = 2 ^ 53 * 2 ^ e := two_zpow_add 53 e
  rw [hsplit]
  nlinarith

/-- below a power of two the interval ends after a quarter of a place -/
theorem near_power (h : RoundsTo (2 ^ 52) e v) (he : e ≠ -1074) : (2 : ℚ) ^ 52 - 1 / 4 ≤ v / 2 ^ e := by
  have hpow : (0 : ℚ) < 2 ^ e := by positivity
  have hlow := h.low
  rw [zpow_sub₀ (by norm_num)] at hlow
  simp only [interval, Nat.one_shiftLeft, true_and, he, ne_eq, not_false_eq_true, if_true] at hlow
  rw [le_div_iff₀ hpow]
  norm_num at hlow ⊢
  linarith

end RoundsTo

/-! ### The last place that is kept -/

theorem targetExponent_eq (t : Int) : Format.binary64.targetExponent t = max (t - 53) (-1074) := rfl

section Target

variable {q : Nat} {e j : Int} {v : ℚ}

/-- a number below `2 ^ (53 + j)` keeps its places from the one of `2 ^ j` on, or lower ones -/
theorem targetExponent_le (hv : v < 2 ^ (53 + j)) (hj : -1074 ≤ j) (hq : (q : ℚ) * 2 ^ e ≤ v)
    (he : e ≤ Format.binary64.targetExponent (totalExponent q e)) :
    Format.binary64.targetExponent (totalExponent q e) ≤ j := by
  rw [targetExponent_eq] at *
  unfold totalExponent at *
  rcases Nat.eq_zero_or_pos q with rfl | hpos
  · rw [Nat.log2_zero] at *
    omega
  · have hlog : ((2 ^ q.log2 : Nat) : ℚ) ≤ q := by exact_mod_cast Nat.log2_self_le hpos.ne'
    have hpow : (0 : ℚ) < 2 ^ e := by positivity
    have hlt : (2 : ℚ) ^ ((q.log2 : Int) + e) < 2 ^ (53 + j) := by
      rw [two_zpow_add]
      push_cast at hlog
      nlinarith
    have hexp := (zpow_lt_zpow_iff_right₀ (by norm_num : (1 : ℚ) < 2)).1 hlt
    omega

/-- a number from `2 ^ (52 + j)` on keeps no place below that of `2 ^ j` -/
theorem le_targetExponent (hv : 2 ^ (52 + j) ≤ v) (hq : v < (q + 1) * 2 ^ e) :
    j ≤ Format.binary64.targetExponent (totalExponent q e) := by
  rw [targetExponent_eq]
  unfold totalExponent
  have hlog : (q + 1 : ℚ) ≤ ((2 ^ (q.log2 + 1) : Nat) : ℚ) := by exact_mod_cast Nat.lt_log2_self
  have hpow : (0 : ℚ) < 2 ^ e := by positivity
  have hlt : (2 : ℚ) ^ (52 + j) < 2 ^ (((q.log2 + 1 : Nat) : Int) + e) := by
    rw [two_zpow_add (q.log2 + 1)]
    push_cast at hlog
    nlinarith
  have hexp := (zpow_lt_zpow_iff_right₀ (by norm_num : (1 : ℚ) < 2)).1 hlt
  push_cast at hexp
  omega

/-- A number that is rounded to `m * 2 ^ k` keeps its places from that of `2 ^ k` on, or one more when it lies below the
power of two that it is rounded to. -/
theorem targetExponent_of_roundsTo {m : Nat} {k : Int} (hc : Canonical m k) (hr : RoundsTo m k v)
    (hq : (q : ℚ) * 2 ^ e ≤ v) (hq' : v < (q + 1) * 2 ^ e)
    (he : e ≤ Format.binary64.targetExponent (totalExponent q e)) :
    Format.binary64.targetExponent (totalExponent q e) = k ∨
      Format.binary64.targetExponent (totalExponent q e) = k - 1 ∧ m = 2 ^ 52 ∧ v < 2 ^ (52 + k) := by
  obtain ⟨hlow, -, -⟩ := hr.near hc.pos
  have hpow : (0 : ℚ) < 2 ^ k := by positivity
  rw [le_div_iff₀ hpow] at hlow
  have hle := targetExponent_le (hr.lt hc) hc.least hq he
  rcases eq_or_lt_of_le hc.least with rfl | hleast
  · exact Or.inl (le_antisymm hle (le_max_right _ _))
  have hnormal : 2 ^ 52 ≤ m := hc.normal.resolve_right hleast.ne'
  rcases le_or_gt (2 ^ (52 + k)) v with hbig | hsmall
  · exact Or.inl (le_antisymm hle (le_targetExponent hbig hq'))
  -- only the lower half of the interval of a power of two is below it
  have hm : m = 2 ^ 52 := by
    by_contra hne
    have hm : (2 : ℚ) ^ 52 + 1 ≤ m := by exact_mod_cast Nat.lt_of_le_of_ne hnormal (Ne.symm hne)
    have hsplit : (2 : ℚ) ^ (52 + k) = 2 ^ 52 * 2 ^ k := two_zpow_add 52 k
    rw [hsplit] at hsmall
    nlinarith
  have hhalf : (2 : ℚ) ^ (52 + (k - 1)) ≤ v := by
    rw [show (52 + (k - 1) : Int) = ((51 : Nat) : Int) + k by push_cast; ring, two_zpow_add]
    have hm : (m : ℚ) = 2 ^ 52 := by exact_mod_cast hm
    rw [hm] at hlow
    nlinarith
  refine Or.inr ⟨le_antisymm (targetExponent_le ?_ (by omega) hq he) (le_targetExponent hhalf hq'), hm, hsmall⟩
  rwa [show (53 + (k - 1) : Int) = 52 + k by ring]

end Target

/-! ### Rounding -/

theorem shiftToTargetExponent_eq (m : Nat) (e : Int) (a : Accuracy) :
    shiftToTargetExponent .binary64 m e a =
      (ExtendedMantissa.ofMantissaAndAccuracy m a >>>
          (Format.binary64.targetExponent (totalExponent m e) - e).toNat,
        e + (Format.binary64.targetExponent (totalExponent m e) - e).toNat) := rfl

/-- a mantissa of at most 53 bits is in its place -/
theorem shiftToTargetExponent_of_lt {m : Nat} {e : Int} (hpos : 0 < m) (hm : m < 2 ^ 53) (he : -1074 ≤ e) :
    shiftToTargetExponent .binary64 m e .exact = (.ofMantissaAndAccuracy m .exact, e) := by
  have hlog : m.log2 < 53 := (Nat.log2_lt hpos.ne').2 hm
  have hnone : (Format.binary64.targetExponent (totalExponent m e) - e).toNat = 0 := by
    rw [targetExponent_eq]
    unfold totalExponent
    omega
  rw [shiftToTargetExponent_eq, hnone, Nat.cast_zero, add_zero]
  rfl

/-- rounding may bring about a mantissa of 54 bits, which is moved by one place -/
theorem shiftToTargetExponent_carry {e : Int} (he : -1074 ≤ e) :
    shiftToTargetExponent .binary64 (2 ^ 53) e .exact = (.ofMantissaAndAccuracy (2 ^ 52) .exact, e + 1) := by
  have hone : (Format.binary64.targetExponent (totalExponent (2 ^ 53) e) - e).toNat = 1 := by
    rw [targetExponent_eq]
    unfold totalExponent
    rw [Nat.log2_two_pow]
    omega
  rw [shiftToTargetExponent_eq, hone]
  rfl

/-- what is rounded in the end: a quotient by the last place that is kept, and then by one more if there is a carry -/
theorem roundWithAccuracy_of {s : Sign} {m r m' : Nat} {e t e' : Int} {a : Accuracy} (hpos : 0 < m')
    (hfirst : (shiftToTargetExponent .binary64 m e a).1.roundedMantissa = r)
    (ht : (shiftToTargetExponent .binary64 m e a).2 = t)
    (hsecond : shiftToTargetExponent .binary64 r t .exact = (.ofMantissaAndAccuracy m' .exact, e')) :
    roundWithAccuracy .binary64 s m e a = .finite s m' e' hpos := by
  have hmantissa : (ExtendedMantissa.ofMantissaAndAccuracy m' .exact).mantissa = m' := rfl
  unfold roundWithAccuracy
  simp only [hfirst, ht, hsecond, hmantissa, hpos.ne', dif_neg, not_false_eq_true]

section Quotients

variable {num den : Nat} {e t : Int}

/-- the places of a quotient that are kept, rounded -/
theorem roundedMantissa_of_target (hden : 0 < den)
    (ht : Format.binary64.targetExponent (totalExponent (num / den) e) = t) (he : e ≤ t) {r : Nat}
    (hlow : (r : ℚ) - 1 / 2 ≤ num / den * 2 ^ e / 2 ^ t) (hhigh : num / den * 2 ^ e / 2 ^ t ≤ (r : ℚ) + 1 / 2)
    (hodd : r % 2 = 1 → (r : ℚ) - 1 / 2 < num / den * 2 ^ e / 2 ^ t ∧ num / den * 2 ^ e / 2 ^ t < (r : ℚ) + 1 / 2) :
    (shiftToTargetExponent .binary64 (num / den) e (accuracyOfFraction (num % den) den)).1.roundedMantissa = r ∧
      (shiftToTargetExponent .binary64 (num / den) e (accuracyOfFraction (num % den) den)).2 = t := by
  have hshift : (((t - e).toNat : Nat) : Int) = t - e := Int.toNat_of_nonneg (by omega)
  have hquotient : (num / den * 2 ^ e / 2 ^ t : ℚ) = num / (den * 2 ^ (t - e).toNat : Nat) := by
    rw [Nat.cast_mul, Nat.cast_pow, Nat.cast_ofNat, ← zpow_natCast, hshift, zpow_sub₀ (by norm_num)]
    field_simp
  rw [hquotient] at hlow hhigh hodd
  have hpos : 0 < den * 2 ^ (t - e).toNat := by positivity
  rw [shiftToTargetExponent_eq, ht]
  refine ⟨?_, by rw [hshift]; ring⟩
  rw [((Extends.ofFraction hden).shiftRight hden _).roundedMantissa hpos]
  exact roundHalfEven_eq hpos hlow hhigh hodd

/-- **Rounding.** A quotient in the interval of a double is rounded to it. -/
theorem roundWithAccuracy_eq {s : Sign} {m : Nat} {k : Int} (hden : 0 < den) (hc : Canonical m k)
    (hr : RoundsTo m k (num / den * 2 ^ e))
    (he : e ≤ Format.binary64.targetExponent (totalExponent (num / den) e)) :
    roundWithAccuracy .binary64 s (num / den) e (accuracyOfFraction (num % den) den) = .finite s m k hc.pos := by
  have hden' : (0 : ℚ) < den := by exact_mod_cast hden
  have hpow : (0 : ℚ) < 2 ^ e := by positivity
  have hfloor : ((num / den : Nat) : ℚ) * 2 ^ e ≤ num / den * 2 ^ e :=
    mul_le_mul_of_nonneg_right Nat.cast_div_le hpow.le
  have hfloor' : (num / den * 2 ^ e : ℚ) < ((num / den : Nat) + 1) * 2 ^ e := by
    refine mul_lt_mul_of_pos_right ?_ hpow
    rw [div_lt_iff₀ hden']
    have := Nat.lt_mul_div_succ num hden
    rw [mul_comm] at this
    exact_mod_cast this
  obtain ⟨hlow, hhigh, hodd⟩ := hr.near hc.pos
  rcases targetExponent_of_roundsTo hc hr hfloor hfloor' he with ht | ⟨ht, rfl, hsmall⟩
  · obtain ⟨hfirst, hplace⟩ := roundedMantissa_of_target hden ht (ht ▸ he) hlow hhigh hodd
    exact roundWithAccuracy_of hc.pos hfirst hplace (shiftToTargetExponent_of_lt hc.pos hc.lt hc.least)
  · -- with one place more the quotient is rounded up to the power of two
    have hleast : -1074 ≤ k - 1 := ht ▸ le_max_right _ _
    have hdouble : (num / den * 2 ^ e / 2 ^ (k - 1) : ℚ) = 2 * (num / den * 2 ^ e / 2 ^ k) := by
      rw [zpow_sub₀ (by norm_num)]
      field_simp
    have hbelow := hr.near_power (by omega)
    have habove : (num / den * 2 ^ e / 2 ^ k : ℚ) < 2 ^ 52 := by
      rw [div_lt_iff₀ (by positivity)]
      exact hsmall.trans_eq (two_zpow_add 52 k)
    obtain ⟨hfirst, hplace⟩ := roundedMantissa_of_target (r := 2 ^ 53) hden ht (ht ▸ he)
      (by rw [hdouble]; push_cast; linarith) (by rw [hdouble]; push_cast; linarith) fun h => absurd h (by decide)
    have hcarry := shiftToTargetExponent_carry hleast
    rw [sub_add_cancel] at hcarry
    exact roundWithAccuracy_of hc.pos hfirst hplace hcarry

end Quotients

/-! ### Division -/

/-- dividing leaves as many places as are kept -/
theorem divCore_spec {m₁ m₂ : Nat} {e₁ e₂ : Int} (h₁ : 0 < m₁) (h₂ : 0 < m₂) : ∃ num t,
    divCore .binary64 m₁ e₁ m₂ e₂ = (num / m₂, t, accuracyOfFraction (num % m₂) m₂) ∧
    (num / m₂ * 2 ^ t : ℚ) = m₁ * 2 ^ e₁ / (m₂ * 2 ^ e₂) ∧
    t ≤ Format.binary64.targetExponent (totalExponent (num / m₂) t) := by
  obtain ⟨t, ht⟩ : ∃ t, t = min (e₁ - e₂)
    (Format.binary64.targetExponent (totalExponent m₁ e₁ - totalExponent m₂ e₂)) := ⟨_, rfl⟩
  obtain ⟨s, hs⟩ : ∃ s : Nat, (s : Int) = e₁ - e₂ - t := ⟨(e₁ - e₂ - t).toNat, Int.toNat_of_nonneg (by omega)⟩
  refine ⟨m₁ * 2 ^ s, t, ?_, ?_, ?_⟩
  · have hshift : (e₁ - e₂ - t).toNat = s := by omega
    unfold divCore
    simp only [← ht, hshift, Nat.shiftLeft_eq]
  · have hexp : e₁ = s + t + e₂ := by omega
    have hm₂ : (m₂ : ℚ) ≠ 0 := by exact_mod_cast h₂.ne'
    rw [hexp, zpow_add₀ (by norm_num), zpow_add₀ (by norm_num), zpow_natCast]
    push_cast
    field_simp
  · rw [targetExponent_eq] at ht ⊢
    unfold totalExponent at ht ⊢
    rcases le_or_gt t (-1074) with hleast | hgreater
    · exact le_max_of_le_right hleast
    -- the quotient has 53 bits or more
    have hlog₁ := Nat.log2_self_le h₁.ne'
    have hlog₂ : m₂ < 2 ^ (m₂.log2 + 1) := Nat.lt_log2_self
    have hroom : m₂.log2 + 1 + 52 ≤ m₁.log2 + s := by omega
    have hquotient : 2 ^ 52 ≤ m₁ * 2 ^ s / m₂ := by
      rw [Nat.le_div_iff_mul_le h₂]
      calc 2 ^ 52 * m₂ ≤ 2 ^ 52 * 2 ^ (m₂.log2 + 1) := Nat.mul_le_mul_left _ hlog₂.le
        _ = 2 ^ (m₂.log2 + 1 + 52) := by rw [← pow_add, add_comm]
        _ ≤ 2 ^ (m₁.log2 + s) := Nat.pow_le_pow_right (by decide) hroom
        _ = 2 ^ m₁.log2 * 2 ^ s := pow_add _ _ _
        _ ≤ m₁ * 2 ^ s := Nat.mul_le_mul_right _ hlog₁
    have hlog : 52 ≤ (m₁ * 2 ^ s / m₂).log2 := (Nat.le_log2 (by omega)).2 hquotient
    omega

/-- **Division.** Two positive doubles divide to the double in whose interval their quotient lies. -/
theorem div_eq {m₁ m₂ m : Nat} {e₁ e₂ k : Int} (h₁ : 0 < m₁) (h₂ : 0 < m₂) (hc : Canonical m k)
    (hr : RoundsTo m k (m₁ * 2 ^ e₁ / (m₂ * 2 ^ e₂))) :
    UnpackedFloat.div .binary64 (.finite .positive m₁ e₁ h₁) (.finite .positive m₂ e₂ h₂) =
      .finite .positive m k hc.pos := by
  obtain ⟨num, t, hcore, hvalue, ht⟩ := @divCore_spec m₁ m₂ e₁ e₂ h₁ h₂
  unfold UnpackedFloat.div
  simp only [hcore]
  rw [← hvalue] at hr
  exact roundWithAccuracy_eq h₂ hc hr ht

end RoadRules.Number
