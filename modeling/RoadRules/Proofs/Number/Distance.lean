/-
Computations with doubles whose outcome is a number.

What is no number comes up where infinite doubles are subtracted or multiplied by zero, and nowhere else on the way from
two points to their distance.

- `isNaN_unpack_pack`: packing makes no number out of what is none, and the other way round.
- `isNaN_ofInt64`, `isNaN_ofDecimal`: the double nearest to an integer or to a decimal number is a number.
- `isNaN_nearest`, `isNaN_hypot`: so is a rounded number, and the length of a vector whose parts are numbers.
- `Vec2.isNaN_distance`: hence the distance of two finite points is one.
-/
import RoadRules.Geometry.Point
import RoadRules.Proofs.Number.Reading

namespace RoadRules

namespace Number

open Float.Model Float.Model.UnpackedFloat

/-! ## Packing -/

theorem isNaN_packComponents (s : Sign) (e : BitVec 11) (m : BitVec 52) :
    (UnpackedFloat.unpack .binary64 (packComponents .binary64 s e m)).isNaN = decide (e = -1#11 ∧ m ≠ 0#52) := by
  have hexponent : @unpackExponent .binary64 (packComponents .binary64 s e m) = e := unpackExponent_packComponents
  have hmantissa : @unpackMantissa .binary64 (packComponents .binary64 s e m) = m := unpackMantissa_packComponents
  unfold UnpackedFloat.unpack
  simp only [hexponent, hmantissa]
  split_ifs with h₁ h₂ h₃ h₄ <;> simp_all [UnpackedFloat.isNaN]

/-- packing makes no number out of what is none, and the other way round -/
theorem isNaN_unpack_pack (f : UnpackedFloat) :
    (UnpackedFloat.unpack .binary64 (UnpackedFloat.pack .binary64 f)).isNaN = f.isNaN := by
  have infinite : ∀ s, (UnpackedFloat.unpack .binary64 (packedInfinity .binary64 s)).isNaN = false := fun s =>
    (isNaN_packComponents s _ _).trans (decide_eq_false fun h => absurd rfl h.2)
  cases f with
  | notANumber => exact (isNaN_packComponents _ _ _).trans (decide_eq_true (by decide))
  | infinity s => exact infinite s
  | zero s => exact (isNaN_packComponents s _ _).trans (decide_eq_false fun h => absurd rfl h.2)
  | finite s m e hm =>
    unfold UnpackedFloat.pack
    dsimp only
    split_ifs with hlarge hnormal
    · exact infinite s
    · refine (isNaN_packComponents s _ _).trans (decide_eq_false fun h => ?_)
      have h := congrArg BitVec.toNat h.1
      have hlarge : ¬ 2 ^ 11 ≤ (e + Format.binary64.exponentBias +
        Format.binary64.mantissaBitsWithoutImplicit).toNat + 1 := hlarge
      rw [BitVec.toNat_ofNat, Nat.mod_eq_of_lt (by omega), show (-1#11).toNat = 2047 from rfl] at h
      omega
    · exact (isNaN_packComponents s _ _).trans (decide_eq_false fun h => absurd h.1 (by decide))

/-- a double put together from what is a number is one -/
theorem isNaN_ofModel_pack (f : UnpackedFloat) : (Float.ofModel (.pack f)).isNaN = f.isNaN := isNaN_unpack_pack f

/-! ## Rounding and arithmetic -/

theorem isNaN_roundWithAccuracy (s : Sign) (m : Nat) (e : Int) (a : Accuracy) :
    (roundWithAccuracy .binary64 s m e a).isNaN = false := by
  unfold roundWithAccuracy
  dsimp only
  split_ifs <;> rfl

theorem isNaN_normalize (m : Int) (e : Int) (s : Sign) : (UnpackedFloat.normalize .binary64 m e s).isNaN = false := by
  unfold UnpackedFloat.normalize
  split
  · exact isNaN_roundWithAccuracy ..
  · rfl
  · exact isNaN_roundWithAccuracy ..

/-- the difference of finite doubles is a number -/
theorem isNaN_sub {x y : Float} (hx : x.isFinite = true) (hy : y.isFinite = true) : (x - y).isNaN = false := by
  have hx : x.toModel.unpack.isFinite = true := hx
  have hy : y.toModel.unpack.isFinite = true := hy
  refine (isNaN_ofModel_pack _).trans ?_
  generalize x.toModel.unpack = u at hx
  generalize y.toModel.unpack = v at hy
  cases u <;> cases v <;> simp only [UnpackedFloat.isFinite, Bool.false_eq_true] at hx hy
  · simp only [UnpackedFloat.sub]; split_ifs <;> rfl
  · rfl
  · rfl
  · exact isNaN_normalize ..

/-- what is no number, by its parts -/
theorem isNaN_iff_parts {x : Float} : x.isNaN = true ↔ parts x = .nan := by
  have h : x.isNaN = x.toModel.unpack.isNaN := rfl
  rw [h, unpack_parts]
  cases parts x with
  | finite s m e => dsimp only; split_ifs <;> simp [UnpackedFloat.isNaN]
  | infinite s => simp [UnpackedFloat.isNaN]
  | nan => simp [UnpackedFloat.isNaN]

/-- a product with a number that is neither zero nor infinite -/
theorem isNaN_mul_finite {u : UnpackedFloat} (hu : u.isNaN = false) (s : Sign) (m : Nat) (e : Int) (hm : 0 < m) :
    (UnpackedFloat.mul .binary64 u (.finite s m e hm)).isNaN = false := by
  cases u with
  | notANumber => cases hu
  | infinity s' => rfl
  | zero s' => rfl
  | finite s' m' e' hm' => exact isNaN_roundWithAccuracy ..

/-- a quotient by a number that is neither zero nor infinite -/
theorem isNaN_div_finite {u : UnpackedFloat} (hu : u.isNaN = false) (s : Sign) (m : Nat) (e : Int) (hm : 0 < m) :
    (UnpackedFloat.div .binary64 u (.finite s m e hm)).isNaN = false := by
  cases u with
  | notANumber => cases hu
  | infinity s' => rfl
  | zero s' => rfl
  | finite s' m' e' hm' => exact isNaN_roundWithAccuracy ..

/-! ## Decimal numbers -/

theorem isNaN_toFloat (n : UInt64) : n.toFloat.isNaN = false :=
  (isNaN_unpack_pack _).trans (isNaN_normalize ..)

/-- a decimal number in the unpacked format -/
theorem isNaN_unpackedOfScientific (digits : Nat) (e : Int) :
    (UnpackedFloat.ofScientific .binary64 digits e).isNaN = false := by
  unfold UnpackedFloat.ofScientific
  split_ifs
  · rfl
  · rfl
  · rfl
  · exact isNaN_mul_finite rfl _ _ _ _
  · exact isNaN_div_finite rfl _ _ _ _

/-- a decimal number, in front of the point or behind it -/
theorem isNaN_ofScientific (digits : Nat) (behind : Bool) (places : Nat) :
    (Float.ofScientific digits behind places).isNaN = false := by
  unfold Float.ofScientific
  by_cases hfast : digits < 2 ^ 53 ∧ places ≤ 22
  · obtain ⟨m, e, hm, -, hten⟩ := unpack_powerOfTen (Nat.lt_succ_of_le hfast.2)
    rw [dif_pos hfast]
    cases behind
    · refine (isNaN_ofModel_pack _).trans ?_
      exact hten ▸ isNaN_mul_finite (isNaN_toFloat _) .positive m e hm
    · refine (isNaN_ofModel_pack _).trans ?_
      exact hten ▸ isNaN_div_finite (isNaN_toFloat _) .positive m e hm
  · rw [dif_neg hfast]
    exact (isNaN_ofModel_pack _).trans (isNaN_unpackedOfScientific digits _)

/-! ## Integers -/

theorem isNaN_ofNat (n : Nat) : (Float.ofNat n).isNaN = false := isNaN_ofScientific n false 0

theorem isNaN_ofInt64 (i : Int64) : (ofInt64 i).isNaN = false := by
  unfold ofInt64 Float.ofInt
  split
  · exact isNaN_ofNat _
  · next n _ =>
    refine (isNaN_ofModel_pack _).trans ?_
    have h : (Float.ofNat n.succ).toModel.unpack.isNaN = false := isNaN_ofNat _
    generalize (Float.ofNat n.succ).toModel.unpack = u at h
    cases u with
    | notANumber => cases h
    | _ => rfl

/-! ## Distances -/

/-- bits whose exponent is not the greatest, or with nothing behind it, are those of a number -/
theorem isNaN_ofBits {b : UInt64} (h : b.toNat / 2 ^ 52 % 2 ^ 11 = 2047 → b.toNat % 2 ^ 52 = 0) :
    (Float.ofBits b).isNaN = false := by
  refine (isNaN_ofModel_pack _).trans ?_
  rw [unpack_eq]
  have hbits : b.toBitVec.toNat = b.toNat := rfl
  simp only [hbits]
  split_ifs <;> first | rfl | exact absurd (h ‹_›) ‹_›

/-- rounding a quotient does not take it beyond an integer above it -/
theorem roundHalfEven_le {num den q : Nat} (h : num < den * q) : roundHalfEven num den ≤ q := by
  have hq : num / den < q := Nat.div_lt_of_lt_mul h
  unfold roundHalfEven
  dsimp only
  split_ifs <;> omega

/-- a number of at most `k` bits, times a power of two -/
theorem fraction_lt {m k : Nat} {e : Int} (hm : m < 2 ^ k) (he : k + e ≤ 53) :
    (fraction m e).1 < (fraction m e).2 * 2 ^ 53 := by
  cases e with
  | ofNat a =>
    change m <<< a < 1 * 2 ^ 53
    have he : (k : Int) + (a : Int) ≤ 53 := he
    have he : k + a ≤ 53 := by omega
    calc m <<< a = m * 2 ^ a := Nat.shiftLeft_eq m a
      _ < 2 ^ k * 2 ^ a := Nat.mul_lt_mul_of_pos_right hm (by positivity)
      _ = 2 ^ (k + a) := (Nat.pow_add 2 k a).symm
      _ ≤ 2 ^ 53 := Nat.pow_le_pow_right (by decide) he
      _ = 1 * 2 ^ 53 := (Nat.one_mul _).symm
  | negSucc a =>
    change m < 1 <<< (a + 1) * 2 ^ 53
    have he : k ≤ a + 1 + 53 := by omega
    calc m < 2 ^ k := hm
      _ ≤ 2 ^ (a + 1 + 53) := Nat.pow_le_pow_right (by decide) he
      _ = 1 <<< (a + 1) * 2 ^ 53 := by rw [Nat.pow_add, Nat.one_shiftLeft]

/-- the double nearest to a decimal number -/
theorem isNaN_ofDecimal (digits : Nat) (exponent : Int) : (ofDecimal digits exponent).isNaN = false := by
  unfold ofDecimal
  dsimp only
  split_ifs
  · rfl
  · exact isNaN_ofBits (by decide)
  · rfl
  · split
    · exact isNaN_ofScientific _ _ _
    · exact isNaN_ofScientific _ _ _

/-- the double nearest to a number -/
theorem isNaN_nearest (m : Nat) (e : Int) : (nearest m e).isNaN = false := by
  unfold nearest
  split_ifs with hm
  · rfl
  · have hbits : m < 2 ^ (m.log2 + 1) := Nat.lt_log2_self
    generalize hlast : max (e + (m.log2 : Int) - 52) (-1074) = last
    have hkept : roundHalfEven (fraction m (e - last)).1 (fraction m (e - last)).2 ≤ 2 ^ 53 :=
      roundHalfEven_le (fraction_lt hbits (by omega))
    dsimp only
    generalize roundHalfEven (fraction m (e - last)).1 (fraction m (e - last)).2 = kept at hkept
    simp only [Nat.one_shiftLeft]
    -- a mantissa that has come to have a bit too many gives it to the exponent
    obtain ⟨kept', last', hpair, hlt, hleast⟩ : ∃ kept' last',
        (if kept = 2 ^ 53 then (2 ^ 52, last + 1) else (kept, last)) = (kept', last') ∧
          kept' < 2 ^ 53 ∧ -1074 ≤ last' := by
      split_ifs with hcarry
      · exact ⟨_, _, rfl, by decide, by omega⟩
      · exact ⟨_, _, rfl, by omega, by omega⟩
    simp only [hpair]
    split_ifs with hlarge hsmall
    · exact isNaN_ofBits (by decide)
    · refine isNaN_ofBits fun h => ?_
      rw [UInt64.toNat_ofNat'] at h
      omega
    · refine isNaN_ofBits fun h => ?_
      rw [UInt64.toNat_ofNat', Nat.shiftLeft_eq] at h
      omega

/-- the length of a vector whose parts are numbers -/
theorem isNaN_hypot {x y : Float} (hx : x.isNaN = false) (hy : y.isNaN = false) : (hypot x y).isNaN = false := by
  have hx : parts x ≠ .nan := fun h => by rw [isNaN_iff_parts.2 h] at hx; cases hx
  have hy : parts y ≠ .nan := fun h => by rw [isNaN_iff_parts.2 h] at hy; cases hy
  unfold hypot
  split
  · exact isNaN_ofBits (by decide)
  · exact isNaN_ofBits (by decide)
  · contradiction
  · contradiction
  · dsimp only
    split_ifs
    · rfl
    · exact isNaN_nearest ..
    · exact isNaN_nearest ..

end Number

/-- are both coordinates finite? -/
def Vec2.isFinite (p : Point) : Bool := p.x.isFinite && p.y.isFinite

/-- **Distances.** The distance of two finite points is a number. -/
theorem Vec2.isNaN_distance {p q : Point} (hp : p.isFinite = true) (hq : q.isFinite = true) :
    (p.distance q).isNaN = false := by
  obtain ⟨hpx, hpy⟩ := (Bool.and_eq_true _ _).mp hp
  obtain ⟨hqx, hqy⟩ := (Bool.and_eq_true _ _).mp hq
  exact Number.isNaN_hypot (Number.isNaN_sub hpx hqx) (Number.isNaN_sub hpy hqy)

end RoadRules
