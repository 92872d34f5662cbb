/-
Decimal numbers read as doubles.

A decimal number is divided by its power of ten: in doubles where both are exact, in the unpacked format otherwise.
Either way it becomes the double in whose interval it lies.

- `unpack_toFloat`, `unpack_powerOfTen`: integers below `2 ^ 53` and powers of ten up to the twenty-second are exact.
- `ofScientific_eq`: a decimal number in the interval of a double is read as it.
- `ofDecimal_eq`: so is one whose size is looked at first.
-/
import RoadRules.Proofs.Number.Rounding

namespace RoadRules.Number

open Float.Model Float.Model.UnpackedFloat

/-! ## Exact numbers -/

/-- a double lies in its own interval -/
theorem RoundsTo.self {m : Nat} (hm : 0 < m) (e : Int) : RoundsTo m e (m * 2 ^ e) := by
  have hvalue : (m * 2 ^ e : ℚ) = (4 * m : Nat) * 2 ^ (e - 2) := by
    rw [zpow_sub₀ (by norm_num)]
    push_cast
    ring
  have hpow : (0 : ℚ) < 2 ^ (e - 2) := by positivity
  have hlow : (interval m e).low < 4 * m := by
    simp only [interval]
    split_ifs <;> omega
  have hhigh : 4 * m < (interval m e).high := by
    simp [interval]
  have hlow : ((interval m e).low : ℚ) * 2 ^ (e - 2) < m * 2 ^ e := by
    rw [hvalue]
    exact mul_lt_mul_of_pos_right (by exact_mod_cast hlow) hpow
  have hhigh : (m * 2 ^ e : ℚ) < ((interval m e).high : ℚ) * 2 ^ (e - 2) := by
    rw [hvalue]
    exact mul_lt_mul_of_pos_right (by exact_mod_cast hhigh) hpow
  exact ⟨hlow.le, hhigh.le, fun _ => ⟨hlow, hhigh⟩⟩

/-- an integer of at most 53 bits is moved up to its place without loss -/
theorem round_eq {n : Nat} (hpos : 0 < n) (hn : n < 2 ^ 53) : ∃ m e, ∃ hc : Canonical m e, (m * 2 ^ e : ℚ) = n ∧
    UnpackedFloat.round .binary64 .positive n 0 = .finite .positive m e hc.pos := by
  obtain ⟨s, hs⟩ : ∃ s, s + n.log2 = 52 := ⟨52 - n.log2, by
    have := (Nat.log2_lt hpos.ne').2 hn
    omega⟩
  have hlow : 2 ^ 52 ≤ n * 2 ^ s := by
    calc 2 ^ 52 = 2 ^ n.log2 * 2 ^ s := by rw [← pow_add, add_comm, hs]
      _ ≤ n * 2 ^ s := Nat.mul_le_mul_right _ (Nat.log2_self_le hpos.ne')
  have hhigh : n * 2 ^ s < 2 ^ 53 := by
    calc n * 2 ^ s < 2 ^ (n.log2 + 1) * 2 ^ s := Nat.mul_lt_mul_of_pos_right Nat.lt_log2_self (by positivity)
      _ = 2 ^ 53 := by rw [← pow_add, show n.log2 + 1 + s = 53 by omega]
  have hc : Canonical (n * 2 ^ s) (-s) := ⟨by positivity, hhigh, by omega, by omega, Or.inl hlow⟩
  have hvalue : ((n * 2 ^ s : Nat) * 2 ^ (-(s : Int)) : ℚ) = n := by
    rw [zpow_neg, zpow_natCast]
    push_cast
    field_simp
  refine ⟨_, _, hc, hvalue, ?_⟩
  have htarget : Format.binary64.targetExponent (totalExponent n 0) = -s := by
    rw [targetExponent_eq]
    unfold totalExponent
    omega
  have hself : RoundsTo (n * 2 ^ s) (-s) ((n * 2 ^ s : Nat) / (1 : Nat) * 2 ^ (-(s : Int))) := by
    rw [Nat.cast_one, div_one]
    exact RoundsTo.self hc.pos (-s)
  have hplaces : -(s : Int) ≤ Format.binary64.targetExponent (totalExponent (n * 2 ^ s / 1) (-s)) := by
    have hlog : 52 ≤ (n * 2 ^ s).log2 := (Nat.le_log2 (by omega)).2 hlow
    rw [targetExponent_eq, Nat.div_one]
    unfold totalExponent
    omega
  have hrounded := roundWithAccuracy_eq (s := .positive) one_pos hc hself hplaces
  rw [Nat.div_one, Nat.mod_one] at hrounded
  unfold UnpackedFloat.round decreaseExponent
  simp only [htarget, zero_sub, neg_neg, Int.toNat_natCast, Nat.shiftLeft_eq]
  exact hrounded

/-- integers of at most 53 bits are doubles -/
theorem unpack_toFloat {n : Nat} (hpos : 0 < n) (hn : n < 2 ^ 53) : ∃ m e, ∃ hc : Canonical m e, (m * 2 ^ e : ℚ) = n ∧
    n.toUInt64.toFloat.toModel.unpack = .finite .positive m e hc.pos := by
  obtain ⟨m, e, hc, hvalue, hround⟩ := round_eq hpos hn
  refine ⟨m, e, hc, hvalue, ?_⟩
  have hnat : n.toUInt64.toNat = n := by
    rw [Nat.toUInt64_eq, UInt64.toNat_ofNat']
    omega
  have hmodel : n.toUInt64.toFloat.toModel.unpack =
      UnpackedFloat.unpack .binary64 (UnpackedFloat.pack .binary64 (UnpackedFloat.ofNat .binary64 n)) := by
    conv_rhs => rw [← hnat]
    rfl
  have hcompare : compare (n : Int) 0 = .gt := compare_gt_iff_gt.2 (by omega)
  rw [hmodel]
  unfold UnpackedFloat.ofNat UnpackedFloat.ofInt UnpackedFloat.normalize
  simp only [hcompare, Int.toNat_natCast, hround]
  exact unpack_pack hc false

/-- are these the parts of a power of ten? -/
def isPowerOfTen (k : Nat) : Parts → Bool
  | .finite false m e => 0 < m && -52 ≤ e && m * 2 ^ (e + 52).toNat == 10 ^ k * 2 ^ 52
  | _ => false

theorem isPowerOfTen_table : ∀ k : Fin Float.exactlyRepresentablePowersOfTen.size,
    isPowerOfTen k (parts Float.exactlyRepresentablePowersOfTen[k]) = true := by
  decide +kernel

/-- the powers of ten that are doubles -/
theorem unpack_powerOfTen {k : Nat} (hk : k < Float.exactlyRepresentablePowersOfTen.size) :
    ∃ m : Nat, ∃ e, ∃ hm : 0 < m, (m * 2 ^ e : ℚ) = 10 ^ k ∧
      Float.exactlyRepresentablePowersOfTen[k].toModel.unpack = .finite .positive m e hm := by
  have htable : isPowerOfTen k (parts Float.exactlyRepresentablePowersOfTen[k]) = true := isPowerOfTen_table ⟨k, hk⟩
  have hparts := unpack_parts Float.exactlyRepresentablePowersOfTen[k]
  cases h : parts Float.exactlyRepresentablePowersOfTen[k] with
  | nan => simp [h, isPowerOfTen] at htable
  | infinite negative => simp [h, isPowerOfTen] at htable
  | finite negative m e =>
    cases negative with
    | true => simp [h, isPowerOfTen] at htable
    | false =>
      simp only [h, isPowerOfTen, Bool.and_eq_true, decide_eq_true_eq, beq_iff_eq] at htable
      obtain ⟨⟨hm, he⟩, hvalue⟩ := htable
      refine ⟨m, e, hm, ?_, ?_⟩
      · have hvalue : (m * 2 ^ (e + 52).toNat : ℚ) = 10 ^ k * 2 ^ 52 := by exact_mod_cast hvalue
        rw [← zpow_natCast, Int.toNat_of_nonneg (by omega), zpow_add₀ (by norm_num)] at hvalue
        norm_num at hvalue ⊢
        linarith
      · rw [hparts, h]
        simp only [hm.ne', dif_neg, not_false_eq_true]
        rfl

/-! ## Reading -/

section Reading

variable {digits places m : Nat} {e : Int}

/-- so many places need so many digits -/
theorem places_le (hc : Canonical m e) (hr : RoundsTo m e (digits / 10 ^ places)) :
    (places : Int) ≤ digits.log2 + 1075 := by
  have hlog : (digits : ℚ) < 2 ^ ((digits.log2 + 1 : Nat) : Int) := by
    rw [zpow_natCast]
    exact_mod_cast Nat.lt_log2_self
  have hten : (2 : ℚ) ^ (places : Int) ≤ 10 ^ places := by
    rw [zpow_natCast]
    exact pow_le_pow_left₀ (by norm_num) (by norm_num) _
  have hlt : (2 : ℚ) ^ (e - 1) < 2 ^ (((digits.log2 + 1 : Nat) : Int) - places) := by
    refine (hr.ge hc.pos).trans_lt ?_
    rw [zpow_sub₀ (by norm_num)]
    exact div_lt_div₀ hlog hten (by positivity) (by positivity)
  have hexp := (zpow_lt_zpow_iff_right₀ (by norm_num : (1 : ℚ) < 2)).1 hlt
  have hleast := hc.least
  push_cast at hexp
  omega

theorem RoundsTo.digits_pos (hr : RoundsTo m e (digits / 10 ^ places)) (hm : 0 < m) : 0 < digits := by
  have hpos : (0 : ℚ) < digits / 10 ^ places := lt_of_lt_of_le (by positivity) (hr.ge hm)
  by_contra h
  rw [Nat.eq_zero_of_not_pos h, Nat.cast_zero, zero_div] at hpos
  exact absurd hpos (lt_irrefl 0)

/-- dividing by the power of ten in the unpacked format -/
theorem unpackedOfScientific_eq (hplaces : 0 < places) (hc : Canonical m e)
    (hr : RoundsTo m e (digits / 10 ^ places)) :
    UnpackedFloat.ofScientific .binary64 digits (Int.negOfNat places) = .finite .positive m e hc.pos := by
  have hdigits := hr.digits_pos hc.pos
  have hnegative : Int.negOfNat places = -(places : Int) := by
    cases places <;> rfl
  have hbits : ((2 : Int) ^ Format.binary64.exponentBits) = 2048 := rfl
  have hsize := places_le hc hr
  have hvalue : ((digits : ℚ) * 2 ^ (0 : Int) / ((10 ^ places : Nat) * 2 ^ (0 : Int))) = digits / 10 ^ places := by
    push_cast
    ring
  unfold UnpackedFloat.ofScientific
  rw [dif_neg hdigits.ne', hnegative, hbits, if_neg (by omega), if_neg (by omega), if_neg (by omega)]
  simp only [neg_neg, Int.toNat_natCast]
  exact div_eq hdigits (by positivity) hc (hvalue ▸ hr)

/-- **Decimal numbers.** One in the interval of a double is read as it. -/
theorem ofScientific_eq (hplaces : 0 < places) (hc : Canonical m e) (hr : RoundsTo m e (digits / 10 ^ places)) :
    Float.ofScientific digits true places = Float.ofModel (.pack (.finite .positive m e hc.pos)) := by
  unfold Float.ofScientific
  by_cases hfast : digits < 2 ^ 53 ∧ places ≤ 22
  · obtain ⟨m₁, e₁, hc₁, hvalue₁, hunpack₁⟩ := unpack_toFloat (hr.digits_pos hc.pos) hfast.1
    have htable : places < Float.exactlyRepresentablePowersOfTen.size := Nat.lt_succ_of_le hfast.2
    obtain ⟨m₂, e₂, hm₂, hvalue₂, hunpack₂⟩ := unpack_powerOfTen htable
    have hdiv := div_eq hc₁.pos hm₂ hc (hvalue₁ ▸ hvalue₂ ▸ hr)
    rw [← hunpack₁, ← hunpack₂] at hdiv
    rw [dif_pos hfast, if_pos rfl, ← hdiv]
    rfl
  · rw [dif_neg hfast, ← unpackedOfScientific_eq hplaces hc hr]
    rfl

/-- a number has as many digits as its text is long -/
theorem length_text {n : Nat} (hn : 0 < n) :
    (10 : ℚ) ^ (((toString n).length : Int) - 1) ≤ n ∧ (n : ℚ) < 10 ^ ((toString n).length : Int) := by
  obtain ⟨l, hl⟩ : ∃ l, (toString n).length = l + 1 := ⟨_, (Nat.succ_pred_eq_of_pos Nat.length_repr_pos).symm⟩
  have hhigh : n < 10 ^ (l + 1) := (Nat.length_repr_le_iff (by omega)).1 hl.le
  have hlow : 10 ^ l ≤ n := by
    rcases Nat.eq_zero_or_pos l with rfl | hpos
    · exact Nat.succ_le_of_lt hn
    · by_contra h
      have := (Nat.length_repr_le_iff hpos).2 (not_le.1 h)
      change (toString n).length ≤ l at this
      omega
  rw [hl]
  refine ⟨?_, ?_⟩
  · rw [Nat.cast_succ, add_sub_cancel_right, zpow_natCast]
    exact_mod_cast hlow
  · rw [zpow_natCast]
    exact_mod_cast hhigh

/-- three places of two make up less than one of ten -/
theorem two_zpow_le_ten (n : Nat) : (2 : ℚ) ^ ((3 * n : Nat) : Int) ≤ 10 ^ (n : Int) := by
  rw [zpow_natCast, zpow_natCast, pow_mul]
  exact pow_le_pow_left₀ (by norm_num) (by norm_num) n

/-- **Reading.** A decimal number with digits behind the point is read as the double in whose interval it lies. -/
theorem ofDecimal_eq {k : Nat} (hc : Canonical m e) (hr : RoundsTo m e (digits / 10 ^ (k + 1))) :
    ofDecimal digits (.negSucc k) = Float.ofModel (.pack (.finite .positive m e hc.pos)) := by
  have hdigits := hr.digits_pos hc.pos
  obtain ⟨hlow, hhigh⟩ := length_text hdigits
  have hten : (0 : ℚ) < 10 ^ ((k + 1 : Nat) : Int) := by positivity
  have hr' : RoundsTo m e (digits / 10 ^ ((k + 1 : Nat) : Int)) := by
    rwa [zpow_natCast]
  have hleast := hc.least
  have hgreatest := hc.greatest
  -- a double is between the powers of ten with these exponents
  have hsmall : ((toString digits).length : Int) - 1 - (k + 1 : Nat) < (342 : Nat) := by
    refine (zpow_lt_zpow_iff_right₀ (by norm_num : (1 : ℚ) < 10)).1 ?_
    calc (10 : ℚ) ^ (((toString digits).length : Int) - 1 - (k + 1 : Nat))
        = 10 ^ (((toString digits).length : Int) - 1) / 10 ^ ((k + 1 : Nat) : Int) := zpow_sub₀ (by norm_num) _ _
      _ ≤ digits / 10 ^ ((k + 1 : Nat) : Int) := div_le_div_of_nonneg_right hlow hten.le
      _ ≤ 2 ^ (53 + e) := (hr'.lt hc).le
      _ < 2 ^ ((3 * 342 : Nat) : Int) := zpow_lt_zpow_right₀ (by norm_num) (by omega)
      _ ≤ 10 ^ ((342 : Nat) : Int) := two_zpow_le_ten 342
  have hlarge : -((359 : Nat) : Int) < ((toString digits).length : Int) - (k + 1 : Nat) := by
    refine (zpow_lt_zpow_iff_right₀ (by norm_num : (1 : ℚ) < 10)).1 ?_
    calc (10 : ℚ) ^ (-((359 : Nat) : Int)) ≤ 2 ^ (-((3 * 359 : Nat) : Int)) := by
          rw [zpow_neg, zpow_neg]
          exact inv_anti₀ (by positivity) (two_zpow_le_ten 359)
      _ ≤ 2 ^ (e - 1) := zpow_le_zpow_right₀ (by norm_num) (by omega)
      _ ≤ digits / 10 ^ ((k + 1 : Nat) : Int) := hr'.ge hc.pos
      _ < 10 ^ ((toString digits).length : Int) / 10 ^ ((k + 1 : Nat) : Int) := div_lt_div_of_pos_right hhigh hten
      _ = 10 ^ (((toString digits).length : Int) - (k + 1 : Nat)) := (zpow_sub₀ (by norm_num) _ _).symm
  unfold ofDecimal
  rw [if_neg hdigits.ne', if_neg (by rw [Int.negSucc_eq]; omega), if_neg (by rw [Int.negSucc_eq]; omega)]
  exact ofScientific_eq (Nat.succ_pos k) hc hr

end Reading

end RoadRules.Number
