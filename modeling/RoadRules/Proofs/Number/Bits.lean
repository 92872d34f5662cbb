/-
The bits of doubles.

Packing puts sign, exponent and mantissa of a number into the 64 bits of a double, and unpacking takes them out again.

- `unpack_parts`: what `parts` reads off the bits is what they are unpacked to.
- `canonical_of_parts`: the mantissas and exponents that finite doubles have.
- `unpack_pack`, `pack_unpack`: each undoes the other.
- `ofModel_sign`: the sign apart, a finite double is put together from its mantissa and exponent.
-/
import Mathlib
import RoadRules.Number.Decimal

namespace RoadRules.Number

open Float.Model Float.Model.UnpackedFloat

/-! ## Fields of the bits -/

theorem toNat_packComponents (s : Sign) (e : BitVec 11) (m : BitVec 52) :
    (packComponents .binary64 s e m).toNat = s.toBitVec.toNat * 2 ^ 63 + e.toNat * 2 ^ 52 + m.toNat := by
  unfold packComponents
  rw [BitVec.toNat_append, BitVec.toNat_append, ← Nat.shiftLeft_add_eq_or_of_lt e.isLt,
    ← Nat.shiftLeft_add_eq_or_of_lt m.isLt, Nat.shiftLeft_eq, Nat.shiftLeft_eq]
  ring

section Fields

variable (b : BitVec Format.binary64.numBits)

theorem toNat_unpackMantissa : (@unpackMantissa .binary64 b).toNat = b.toNat % 2 ^ 52 := by
  simp [unpackMantissa]

theorem toNat_unpackExponent : (@unpackExponent .binary64 b).toNat = b.toNat / 2 ^ 52 % 2 ^ 11 := by
  simp [unpackExponent, Nat.shiftRight_eq_div_pow]

theorem toNat_unpackSign : (@unpackSign .binary64 b).toNat = b.toNat / 2 ^ 63 := by
  have hlt : b.toNat < 2 ^ 64 := b.isLt
  simp [unpackSign, Nat.shiftRight_eq_div_pow]
  omega

end Fields

/-! ## Packing and unpacking -/

/-- mantissa and exponent of a positive finite double -/
structure Canonical (m : Nat) (e : Int) : Prop where
  pos : 0 < m
  lt : m < 2 ^ 53
  least : -1074 ≤ e
  greatest : e ≤ 971
  normal : 2 ^ 52 ≤ m ∨ e = -1074

/-- the fields of a canonical double -/
theorem pack_finite {m : Nat} {e : Int} (hc : Canonical m e) (s : Sign) :
    UnpackedFloat.pack .binary64 (.finite s m e hc.pos) = packComponents .binary64 s
      (if m < 2 ^ 52 then 0#11 else BitVec.ofNat 11 (e + 1075).toNat) (BitVec.ofNat 52 m) := by
  have hlog : m.log2 + 1 = 53 ↔ ¬ m < 2 ^ 52 := by
    have h₁ := Nat.log2_lt (k := 53) hc.pos.ne'
    have h₂ := Nat.log2_lt (k := 52) hc.pos.ne'
    have := hc.lt
    omega
  have hbias : (e + (Format.binary64.exponentBias : Int) + (52 : Nat)).toNat = (e + 1075).toNat := by
    have : (Format.binary64.exponentBias : Int) = 1023 := rfl
    omega
  have hsmall : ¬ 2 ^ 11 ≤ (e + 1075).toNat + 1 := by
    have := hc.greatest
    omega
  unfold UnpackedFloat.pack
  simp only [hbias, hsmall, if_false]
  change (if m.log2 + 1 = 53 then _ else _) = _
  simp only [hlog]
  split_ifs <;> rfl

/-- the sign of a double by its sign bit -/
def signOf (negative : Bool) : Sign := if negative then .negative else .positive

/-- what a double is, by the three fields of its bits -/
theorem unpack_eq (b : BitVec Format.binary64.numBits) : UnpackedFloat.unpack .binary64 b =
    let s := signOf (decide (b.toNat / 2 ^ 63 = 1))
    let exponent : Nat := b.toNat / 2 ^ 52 % 2 ^ 11
    let fraction : Nat := b.toNat % 2 ^ 52
    if exponent = 2047 then if fraction = 0 then .infinity s else .notANumber
    else if exponent = 0 then if h : fraction = 0 then .zero s else .finite s fraction (-1074) (Nat.pos_of_ne_zero h)
    else .finite s (2 ^ 52 + fraction) ((exponent : Int) - 1075) (by positivity) := by
  have hexponent := toNat_unpackExponent b
  have hfraction := toNat_unpackMantissa b
  have hsign : Sign.ofBitVec (@unpackSign .binary64 b) = signOf (decide (b.toNat / 2 ^ 63 = 1)) := by
    rw [← toNat_unpackSign]
    have hbit : ∀ s : BitVec 1, s = 0#1 ∨ s = 1#1 := by decide
    rcases hbit (@unpackSign .binary64 b) with h | h <;> rw [h] <;> rfl
  have hones : @unpackExponent .binary64 b = -1#11 ↔ b.toNat / 2 ^ 52 % 2 ^ 11 = 2047 := by
    rw [← hexponent, ← BitVec.toNat_inj]
    rfl
  have hzero : @unpackExponent .binary64 b = 0#11 ↔ b.toNat / 2 ^ 52 % 2 ^ 11 = 0 := by
    rw [← hexponent, ← BitVec.toNat_inj]
    rfl
  have hnone : @unpackMantissa .binary64 b = 0#52 ↔ b.toNat % 2 ^ 52 = 0 := by
    rw [← hfraction, ← BitVec.toNat_inj]
    rfl
  have himplicit : (1#1 ++ @unpackMantissa .binary64 b).toNat = 2 ^ 52 + b.toNat % 2 ^ 52 := by
    rw [BitVec.toNat_append, ← Nat.shiftLeft_add_eq_or_of_lt (BitVec.isLt _), hfraction]
    rfl
  have hbias : ((Format.binary64.exponentBias : Int) + (52 : Nat)) = 1075 := rfl
  unfold UnpackedFloat.unpack
  simp only [hones, hzero, hnone, hsign, hexponent, hfraction, himplicit, hbias]
  split_ifs with _ _ hleast _
  · rfl
  · rfl
  · rfl
  · have hexp : ((b.toNat / 2 ^ 52 % 2 ^ 11 : Nat) : Int) - 1075 + 1 = -1074 := by omega
    simp only [hexp]
  · rfl

/-- **Parts.** They are what the bits of a double are unpacked to. -/
theorem unpack_parts (x : Float) : x.toModel.unpack = match parts x with
    | .nan => .notANumber
    | .infinite negative => .infinity (signOf negative)
    | .finite negative m e =>
      if h : m = 0 then .zero (signOf negative) else .finite (signOf negative) m e (Nat.pos_of_ne_zero h) := by
  have hbits : x.toModel.toBits.toBitVec.toNat = x.toBits.toNat := rfl
  unfold Float.Model.unpack
  rw [unpack_eq, hbits]
  unfold parts
  simp only [Nat.shiftRight_eq_div_pow, Nat.one_shiftLeft, show 2 ^ 11 = 2048 from rfl]
  generalize x.toBits.toNat / 2 ^ 52 % 2048 = exponent
  generalize x.toBits.toNat % 2 ^ 52 = fraction
  by_cases hones : exponent = 2047
  · by_cases hnone : fraction = 0 <;> simp [hones, hnone]
  · by_cases hzero : exponent = 0 <;> simp [hones, hzero]

/-- the mantissa and the exponent of a finite double that is not zero -/
theorem canonical_of_parts {x : Float} {negative : Bool} {m : Nat} {e : Int} (h : parts x = .finite negative m e)
    (hm : m ≠ 0) : Canonical m e := by
  unfold parts at h
  have hlt : x.toBits.toNat % 2 ^ 52 < 2 ^ 52 := Nat.mod_lt _ (by decide)
  have hexp : x.toBits.toNat / 2 ^ 52 % 2048 < 2048 := Nat.mod_lt _ (by decide)
  simp only [Nat.shiftRight_eq_div_pow, Nat.one_shiftLeft] at h
  split_ifs at h <;> cases h
  · exact ⟨Nat.pos_of_ne_zero hm, by omega, by omega, by omega, Or.inr rfl⟩
  · exact ⟨Nat.pos_of_ne_zero hm, by omega, by omega, by omega, Or.inl (by omega)⟩

theorem toNat_signOf (negative : Bool) : (signOf negative).toBitVec.toNat = negative.toNat := by
  cases negative <;> rfl

/-- the bits of a finite double that is not zero, as a number -/
theorem toNat_pack {m : Nat} {e : Int} (hc : Canonical m e) (negative : Bool) :
    (UnpackedFloat.pack .binary64 (.finite (signOf negative) m e hc.pos)).toNat =
      negative.toNat * 2 ^ 63 + (if m < 2 ^ 52 then m else (e + 1075).toNat * 2 ^ 52 + (m - 2 ^ 52)) := by
  rw [pack_finite hc, toNat_packComponents, toNat_signOf, BitVec.toNat_ofNat]
  have hlt := hc.lt
  have hgreatest := hc.greatest
  have hfraction : m % 2 ^ 52 = if m < 2 ^ 52 then m else m - 2 ^ 52 := by
    split_ifs <;> omega
  rw [hfraction]
  split_ifs
  · simp
  · rw [BitVec.toNat_ofNat, Nat.mod_eq_of_lt (by omega), add_assoc]

/-- unpacking undoes packing -/
theorem unpack_pack {m : Nat} {e : Int} (hc : Canonical m e) (negative : Bool) :
    UnpackedFloat.unpack .binary64 (UnpackedFloat.pack .binary64 (.finite (signOf negative) m e hc.pos)) =
      .finite (signOf negative) m e hc.pos := by
  have hlt := hc.lt
  have hleast := hc.least
  have hgreatest := hc.greatest
  have hpos := hc.pos
  have hnegative : negative.toNat ≤ 1 := Bool.toNat_le negative
  have hsign : decide (negative.toNat = 1) = negative := by cases negative <;> rfl
  rw [unpack_eq, toNat_pack hc]
  obtain ⟨n, hn⟩ : ∃ n, n = negative.toNat * 2 ^ 63 +
    (if m < 2 ^ 52 then m else (e + 1075).toNat * 2 ^ 52 + (m - 2 ^ 52)) := ⟨_, rfl⟩
  rw [← hn]
  split_ifs at hn with hsub
  · have he : e = -1074 := hc.normal.resolve_left (by omega)
    have h₁ : n / 2 ^ 63 = negative.toNat := by omega
    have h₂ : n / 2 ^ 52 % 2 ^ 11 = 0 := by omega
    have h₃ : n % 2 ^ 52 = m := by omega
    subst he
    simp only [h₁, h₂, h₃, hpos.ne', hsign, show ¬ 0 = 2047 by decide, if_false, if_true, dif_neg, not_false_eq_true]
  · have h₁ : n / 2 ^ 63 = negative.toNat := by omega
    have h₂ : n / 2 ^ 52 % 2 ^ 11 = (e + 1075).toNat := by omega
    have h₃ : 2 ^ 52 + n % 2 ^ 52 = m := by omega
    have h₄ : ((e + 1075).toNat : Int) - 1075 = e := by omega
    have h₅ : (e + 1075).toNat ≠ 2047 ∧ (e + 1075).toNat ≠ 0 := by omega
    simp only [h₁, h₂, h₃, h₄, h₅, hsign, if_false]

/-- and packing undoes unpacking, where there is a number to unpack -/
theorem pack_unpack {x : Float} {negative : Bool} {m : Nat} {e : Int} (h : parts x = .finite negative m e) :
    Float.ofModel (.pack x.toModel.unpack) = x := by
  suffices hbits : UnpackedFloat.pack .binary64 x.toModel.unpack = x.toModel.toBits.toBitVec by
    obtain ⟨⟨bits, valid⟩⟩ := x
    simp only [Float.Model.pack, hbits]
  have hn : x.toModel.toBits.toBitVec.toNat = x.toBits.toNat := rfl
  have hlt : x.toBits.toNat < 2 ^ 64 := x.toBits.toNat_lt
  have hnegative : (decide (x.toBits.toNat / 2 ^ 63 = 1)).toNat = x.toBits.toNat / 2 ^ 63 := by
    have hbit : x.toBits.toNat / 2 ^ 63 = 0 ∨ x.toBits.toNat / 2 ^ 63 = 1 := by omega
    rcases hbit with hbit | hbit <;> rw [hbit] <;> rfl
  refine BitVec.eq_of_toNat_eq ?_
  rw [unpack_parts, h, hn]
  dsimp only
  split_ifs with hm
  · refine (toNat_packComponents (signOf negative) 0#11 0#52).trans ?_
    rw [toNat_signOf]
    unfold parts at h
    simp only [Nat.shiftRight_eq_div_pow, Nat.one_shiftLeft] at h
    split_ifs at h <;> cases h
    · rw [hnegative]
      simp only [BitVec.toNat_zero]
      omega
    · exact absurd hm (by positivity)
  · rw [toNat_pack (canonical_of_parts h hm)]
    unfold parts at h
    simp only [Nat.shiftRight_eq_div_pow, Nat.one_shiftLeft] at h
    split_ifs at h <;> cases h
    · rw [hnegative, if_pos (Nat.mod_lt _ (by decide))]
      omega
    · rw [hnegative, if_neg (by omega)]
      omega

/-- a finite double is its sign and the double without it -/
theorem ofModel_sign {x : Float} {negative : Bool} {m : Nat} {e : Int} (h : parts x = .finite negative m e)
    (hc : Canonical m e) :
    (if negative then -Float.ofModel (.pack (.finite .positive m e hc.pos))
      else Float.ofModel (.pack (.finite .positive m e hc.pos))) = x := by
  have hx : Float.ofModel (.pack (.finite (signOf negative) m e hc.pos)) = x := by
    rw [← pack_unpack h, unpack_parts, h]
    simp only [hc.pos.ne', dif_neg, not_false_eq_true]
  cases negative with
  | false => exact hx
  | true =>
    have hneg : -Float.ofModel (.pack (.finite .positive m e hc.pos)) = Float.ofModel (.pack (UnpackedFloat.neg
        (UnpackedFloat.unpack .binary64 (UnpackedFloat.pack .binary64 (.finite (signOf false) m e hc.pos))))) := rfl
    rw [if_pos rfl, hneg, unpack_pack hc false]
    exact hx

end RoadRules.Number
