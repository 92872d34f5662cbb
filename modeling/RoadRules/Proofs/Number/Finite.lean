/-
Computations with doubles whose outcome is finite.

Packing makes an infinite double only of what has too large an exponent, and rounding raises the exponent of a number
by no more than the number has bits.

- `isFinite_unpack_pack`: a number whose exponent is in the range of doubles stays finite when it is packed.
- `isFinite_neg`: so does a finite double with its sign turned.
- `inRange_roundWithAccuracy`, `inRange_mul`: rounding and multiplying small numbers stays in the range.
- `isFinite_ofDecimal`: the double nearest to an integer of at most 64 bits is finite.
- `isFinite_of_number`: what is a number and not infinite is finite.
-/
import RoadRules.Proofs.Number.Distance

namespace RoadRules.Number

open Float.Model Float.Model.UnpackedFloat

/-! ## Packing -/

/-- zero, or a number with an exponent that a double can have -/
def InRange : UnpackedFloat → Prop
  | .zero _ => True
  | .finite _ _ e _ => e ≤ 971
  | .infinity _ | .notANumber => False

theorem isFinite_packComponents (s : Sign) (e : BitVec 11) (m : BitVec 52) :
    (UnpackedFloat.unpack .binary64 (packComponents .binary64 s e m)).isFinite = decide (e ≠ -1#11) := by
  have hexponent : @unpackExponent .binary64 (packComponents .binary64 s e m) = e := unpackExponent_packComponents
  have hmantissa : @unpackMantissa .binary64 (packComponents .binary64 s e m) = m := unpackMantissa_packComponents
  unfold UnpackedFloat.unpack
  simp only [hexponent, hmantissa]
  split_ifs with h₁ h₂ h₃ h₄ <;> simp_all [UnpackedFloat.isFinite]

/-- packing keeps a number in the range finite -/
theorem isFinite_unpack_pack {f : UnpackedFloat} (hf : InRange f) :
    (UnpackedFloat.unpack .binary64 (UnpackedFloat.pack .binary64 f)).isFinite = true := by
  cases f with
  | notANumber => exact hf.elim
  | infinity s => exact hf.elim
  | zero s => exact (isFinite_packComponents s _ _).trans (decide_eq_true (by decide))
  | finite s m e hm =>
    have he : e ≤ 971 := hf
    have hbias : (e + Format.binary64.exponentBias + Format.binary64.mantissaBitsWithoutImplicit).toNat =
        (e + 1075).toNat := congrArg Int.toNat (add_assoc e 1023 52)
    unfold UnpackedFloat.pack
    dsimp only
    rw [hbias]
    split_ifs with hlarge hnormal
    · have hlarge : 2 ^ 11 ≤ (e + 1075).toNat + 1 := hlarge
      omega
    · refine (isFinite_packComponents s _ _).trans (decide_eq_true fun h => ?_)
      have h := congrArg BitVec.toNat h
      rw [BitVec.toNat_ofNat, Nat.mod_eq_of_lt (by omega), show (-1#11).toNat = 2047 from rfl] at h
      omega
    · exact (isFinite_packComponents s _ _).trans (decide_eq_true (by decide))

/-- what a finite double is unpacked to -/
theorem inRange_unpack {x : Float} (hx : x.isFinite = true) : InRange x.toModel.unpack := by
  have hx : x.toModel.unpack.isFinite = true := hx
  rw [unpack_parts] at hx ⊢
  cases h : parts x with
  | nan => rw [h] at hx; cases hx
  | infinite negative => rw [h] at hx; cases hx
  | finite negative m e =>
    dsimp only
    split_ifs with hm
    · trivial
    · exact (canonical_of_parts h hm).greatest

/-- a finite double with its sign turned -/
theorem isFinite_neg {x : Float} (hx : x.isFinite = true) : (-x).isFinite = true := by
  refine isFinite_unpack_pack (f := x.toModel.unpack.neg) ?_
  have h := inRange_unpack hx
  cases hu : x.toModel.unpack <;> rw [hu] at h <;> exact h

/-! ## Rounding -/

/-- rounding to an integer goes up by one at most -/
theorem roundedMantissa_le (m : ExtendedMantissa) : m.roundedMantissa ≤ m.mantissa + 1 := by
  obtain ⟨mantissa, round, sticky⟩ := m
  cases round <;> cases sticky
  · exact Nat.le_succ mantissa
  · exact Nat.le_succ mantissa
  · exact Nat.add_le_add_left (Nat.le_of_lt_succ (Nat.mod_lt mantissa two_pos)) mantissa
  · exact le_rfl

theorem mantissa_shiftRight_le (m : ExtendedMantissa) (k : Nat) : (m >>> k).mantissa ≤ m.mantissa := by
  induction k with
  | zero => exact le_rfl
  | succ k ih => exact (Nat.div_le_self (m >>> k).mantissa 2).trans ih

section Exponents

variable {m b : Nat} {e t : Int}

/-- places that are not kept raise the exponent, up to as many as the number has bits -/
theorem exponent_shiftToTargetExponent_le (a : Accuracy) (hm : m < 2 ^ b) (he : e ≤ t) (ht : -1074 ≤ t) :
    (shiftToTargetExponent .binary64 m e a).2 ≤ t + b := by
  have hlog : m.log2 ≤ b := by
    rcases Nat.eq_zero_or_pos m with rfl | hpos
    · exact Nat.zero_le b
    · exact ((Nat.log2_lt hpos.ne').2 hm).le
  rw [shiftToTargetExponent_eq, targetExponent_eq]
  unfold totalExponent
  omega

theorem mantissa_shiftToTargetExponent_le (m : Nat) (e : Int) :
    (shiftToTargetExponent .binary64 m e .exact).1.mantissa ≤ m :=
  mantissa_shiftRight_le _ _

/-- a small number that is rounded -/
theorem inRange_roundWithAccuracy (s : Sign) (hm : m < 2 ^ 128) (he : e ≤ 64) :
    InRange (roundWithAccuracy .binary64 s m e .exact) := by
  have hfirst := exponent_shiftToTargetExponent_le .exact hm he (by decide)
  have hrounded : (shiftToTargetExponent .binary64 m e .exact).1.roundedMantissa < 2 ^ 129 := by
    have := roundedMantissa_le (shiftToTargetExponent .binary64 m e .exact).1
    have := mantissa_shiftToTargetExponent_le m e
    omega
  -- rounding may bring about one bit more, hence the second shift
  have hsecond := exponent_shiftToTargetExponent_le .exact hrounded hfirst (by decide)
  unfold roundWithAccuracy
  dsimp only
  split_ifs
  · trivial
  · exact hsecond.trans (by decide)

/-- a product of small numbers -/
theorem inRange_mul {s₁ s₂ : Sign} {m₁ m₂ : Nat} {e₁ e₂ : Int} (h₁ : 0 < m₁) (h₂ : 0 < m₂)
    (hm : m₁ * m₂ < 2 ^ 128) (he : e₁ + e₂ ≤ 64) :
    InRange (UnpackedFloat.mul .binary64 (.finite s₁ m₁ e₁ h₁) (.finite s₂ m₂ e₂ h₂)) :=
  inRange_roundWithAccuracy _ hm he

end Exponents

/-! ## Integers -/

theorem parts_one : parts Float.exactlyRepresentablePowersOfTen[0] = .finite false (2 ^ 52) (-52) := by
  decide +kernel

theorem unpack_one : Float.exactlyRepresentablePowersOfTen[0].toModel.unpack =
    .finite .positive (2 ^ 52) (-52) (by decide) := by
  rw [unpack_parts, parts_one]
  rfl

/-- the double nearest to an integer of at most 64 bits, without a sign -/
theorem isFinite_ofScientific {n : Nat} (hpos : 0 < n) (hn : n ≤ 2 ^ 64) :
    (Float.ofScientific n false 0).isFinite = true := by
  unfold Float.ofScientific
  by_cases hfast : n < 2 ^ 53 ∧ 0 ≤ 22
  · -- an exact integer times one
    obtain ⟨m, e, hc, hvalue, hunpack⟩ := unpack_toFloat hpos hfast.1
    have he : e < 53 := by
      refine (zpow_lt_zpow_iff_right₀ (by norm_num : (1 : ℚ) < 2)).1 ?_
      have hm : (1 : ℚ) ≤ m := by exact_mod_cast hc.pos
      have hn : (n : ℚ) < 2 ^ (53 : Int) := by exact_mod_cast hfast.1
      have hpow : (0 : ℚ) < 2 ^ e := by positivity
      nlinarith
    rw [dif_pos hfast]
    refine isFinite_unpack_pack (f := .mul .binary64 n.toUInt64.toFloat.toModel.unpack
      Float.exactlyRepresentablePowersOfTen[0].toModel.unpack) ?_
    rw [hunpack, unpack_one]
    have hlt := hc.lt
    exact inRange_mul _ _ (by omega) (by omega)
  · rw [dif_neg hfast]
    refine isFinite_unpack_pack (f := .ofScientific .binary64 n 0) ?_
    unfold UnpackedFloat.ofScientific
    rw [dif_neg hpos.ne', if_neg (by decide), if_neg (by change ¬(0 : Int) < -(2 ^ 11 + n.log2); omega),
      if_pos le_rfl]
    have hplaces : Format.binary64.mantissaBits = 53 := rfl
    simp only [hplaces, Nat.shiftLeft_eq, Int.toNat_zero, pow_zero]
    exact inRange_mul _ _ (by omega) (by decide)

/-- **Integers.** The double nearest to an integer of at most 64 bits is finite. -/
theorem isFinite_ofDecimal {n : Nat} (hn : n ≤ 2 ^ 64) : (ofDecimal n 0).isFinite = true := by
  have hlength : (toString n).length ≤ 20 := (Nat.length_repr_le_iff (by decide)).2 (by omega)
  unfold ofDecimal
  by_cases hzero : n = 0
  · rw [if_pos hzero]
    decide +kernel
  · rw [if_neg hzero, if_neg (by omega), if_neg (by omega)]
    change (Float.ofScientific (n * 1) false 0).isFinite = true
    rw [Nat.mul_one]
    exact isFinite_ofScientific (Nat.pos_of_ne_zero hzero) hn

/-! ## Numbers -/

/-- a number is finite or infinite -/
theorem isFinite_of_number {x : Float} (hnumber : x.isNaN = false) (hbounded : x.isInf = false) :
    x.isFinite = true := by
  have hnumber : x.toModel.unpack.isNaN = false := hnumber
  have hbounded : x.toModel.unpack.isInf = false := hbounded
  change x.toModel.unpack.isFinite = true
  cases hu : x.toModel.unpack with
  | notANumber =>
    rw [hu] at hnumber
    cases hnumber
  | infinity s =>
    rw [hu] at hbounded
    cases hbounded
  | zero s => rfl
  | finite s m e hm => rfl

end RoadRules.Number
