/-
Floats in formulas are read as they are written.

A finite float is written with digits on both sides of a point. As a decimal number they lie in its interval: an
integral float is written exactly, any other one with its shortest digits.

- `ofDigits_append`: the number that digits stand for, piece by piece.
- `whole_decimals`, `positional_decimals`: the numbers that the two ways of writing stand for.
- `readsBack_of_isFinite`: every finite float reads back.
-/
import RoadRules.Proofs.Formula.Printing
import RoadRules.Proofs.Number.Shortest

namespace RoadRules

namespace Grammar

open Number (Decimal Parts)

/-! ## Digits -/

theorem ofDigits_append (ds es : List Char) : ofDigits (ds ++ es) = 10 ^ es.length * ofDigits ds + ofDigits es :=
  (Nat.ofDigitChars_append 0).trans Nat.ofDigitChars_eq_ofDigitChars_zero

theorem ofDigits_replicate (n : Nat) : ofDigits (List.replicate n '0') = 0 :=
  Nat.ofDigitChars_replicate_zero.trans (Nat.mul_zero _)

theorem toList_pushn (n : Nat) : ("".pushn '0' n).toList = List.replicate n '0' := by
  rw [String.pushn_eq_repeat_push]
  induction n with
  | zero => rfl
  | succ n ih => simp [Nat.repeat, ih, List.replicate_succ']

/-- padded digits are as many as wanted and stand for the same number -/
theorem padded_spec {width n : Nat} (hwidth : 0 < width) (hn : n < 10 ^ width) :
    (Number.padded width n).toList.length = width ∧ ofDigits (Number.padded width n).toList = n ∧
      ∀ c ∈ (Number.padded width n).toList, c.isDigit = true := by
  have htext : (toString n).toList = Nat.toDigits 10 n := by simp
  have hlength : (toString n).length ≤ width := (Nat.length_repr_le_iff hwidth).2 hn
  have hlist : (Number.padded width n).toList =
      List.replicate (width - (toString n).length) '0' ++ Nat.toDigits 10 n := by
    rw [Number.padded, String.toList_append, toList_pushn, htext]
  rw [hlist]
  refine ⟨?_, ?_, ?_⟩
  · rw [List.length_append, List.length_replicate, ← htext, String.length_toList]
    omega
  · rw [ofDigits_append, ofDigits_replicate, ofDigits_toDigits, Nat.mul_zero, Nat.zero_add]
  · intro c hc
    rcases List.mem_append.1 hc with hc | hc
    · rw [List.eq_of_mem_replicate hc]
      rfl
    · exact isDigit_toDigits c hc

/-- zeros at the end, taken away -/
theorem exists_zeros (ds : List Char) :
    ∃ k, ds = (ds.reverse.dropWhile (· == '0')).reverse ++ List.replicate k '0' := by
  refine ⟨(ds.reverse.takeWhile (· == '0')).length, ?_⟩
  have hzeros : (ds.reverse.takeWhile (· == '0')).reverse =
      List.replicate (ds.reverse.takeWhile (· == '0')).length '0' := by
    rw [List.eq_replicate_iff]
    refine ⟨List.length_reverse, fun c hc => ?_⟩
    have hall := List.all_takeWhile (p := (· == '0')) (l := ds.reverse)
    exact beq_iff_eq.1 (List.all_eq_true.1 hall c (List.mem_reverse.1 hc))
  rw [← hzeros, ← List.reverse_append, List.takeWhile_append_dropWhile, List.reverse_reverse]

/-- the digits behind the point: no zeros at the end, but at least one digit -/
def behindPoint (places n : Nat) : List Char :=
  let tail := ((Number.padded places n).toList.reverse.dropWhile (· == '0')).reverse
  if tail.isEmpty then ['0'] else tail

theorem behindPoint_spec {places n : Nat} (hplaces : 0 < places) (hn : n < 10 ^ places) :
    behindPoint places n ≠ [] ∧ (∀ c ∈ behindPoint places n, c.isDigit = true) ∧
      ofDigits (behindPoint places n) * 10 ^ places = n * 10 ^ (behindPoint places n).length := by
  obtain ⟨hlength, hvalue, hdigits⟩ := padded_spec hplaces hn
  obtain ⟨zeros, hzeros⟩ := exists_zeros (Number.padded places n).toList
  unfold behindPoint
  generalize ((Number.padded places n).toList.reverse.dropWhile (· == '0')).reverse = tail at hzeros
  rw [hzeros] at hlength hvalue hdigits
  rw [ofDigits_append, ofDigits_replicate, List.length_replicate, Nat.add_zero] at hvalue
  rw [List.length_append, List.length_replicate] at hlength
  cases tail with
  | nil =>
    have hn : n = 0 := hvalue.symm.trans (Nat.mul_zero _)
    subst hn
    exact ⟨List.cons_ne_nil _ _, by simp, by simp [ofDigits]⟩
  | cons c tail =>
    refine ⟨List.cons_ne_nil _ _, fun d hd => hdigits d (List.mem_append_left _ hd), ?_⟩
    dsimp only
    rw [List.isEmpty_cons, if_neg Bool.false_ne_true, ← hlength, ← hvalue]
    ring

/-! ## Decimal numbers -/

/-- a text of digits with a point between them that stands for the number `v` -/
structure Decimals (n : Numeral) (text : String) (v : ℚ) : Prop where
  proper : n.Proper
  point : n.fraction ≠ []
  text : text.toList = n.digits
  value : (ofDigits (n.whole ++ n.fraction) / 10 ^ n.fraction.length : ℚ) = v

/-- an integer with a zero behind the point -/
theorem whole_decimals (negative : Bool) (k : Nat) :
    Decimals ⟨negative, Nat.toDigits 10 k, ['0']⟩ (toString k ++ ".0") k where
  proper := ⟨Nat.toDigits_ne_nil, isDigit_toDigits, by simp⟩
  point := List.cons_ne_nil _ _
  text := by simp [Numeral.digits]
  value := by
    have hvalue : ofDigits (Nat.toDigits 10 k ++ ['0']) = 10 * k := by
      rw [ofDigits_append, ofDigits_toDigits]
      rfl
    simp only [hvalue, List.length_singleton]
    push_cast
    ring

/-- the digits of a decimal number in front of the point and behind it -/
theorem positional_decimals (negative : Bool) (d : Decimal) :
    ∃ n : Numeral, n.negative = negative ∧ Decimals n d.positional (d.digits * 10 ^ d.exponent) := by
  obtain ⟨digits, exponent⟩ := d
  cases exponent with
  | ofNat k =>
    have h := whole_decimals negative (digits * 10 ^ k)
    push_cast at h
    exact ⟨_, rfl, h⟩
  | negSucc k =>
    have hunit : 0 < 10 ^ (k + 1) := by positivity
    obtain ⟨hne, hdigits, hvalue⟩ := behindPoint_spec (show 0 < k + 1 from Nat.succ_pos k) (Nat.mod_lt digits hunit)
    have hpositional : Decimal.positional ⟨digits, .negSucc k⟩ = toString (digits / 10 ^ (k + 1)) ++ "." ++
        String.ofList (behindPoint (k + 1) (digits % 10 ^ (k + 1))) := by
      unfold Decimal.positional behindPoint
      simp only [Nat.pow_eq]
      split_ifs <;> rfl
    generalize behindPoint (k + 1) (digits % 10 ^ (k + 1)) = tail at hne hdigits hvalue hpositional
    refine ⟨⟨negative, Nat.toDigits 10 (digits / 10 ^ (k + 1)), tail⟩, rfl,
      ⟨Nat.toDigits_ne_nil, isDigit_toDigits, hdigits⟩, hne, ?_, ?_⟩
    · simp [hpositional, Numeral.digits, hne]
    · have hnat : ofDigits (Nat.toDigits 10 (digits / 10 ^ (k + 1)) ++ tail) * 10 ^ (k + 1) =
          digits * 10 ^ tail.length := by
        rw [ofDigits_append, ofDigits_toDigits, add_mul, hvalue]
        conv_rhs => rw [← Nat.div_add_mod digits (10 ^ (k + 1))]
        ring
      have hrat : (ofDigits (Nat.toDigits 10 (digits / 10 ^ (k + 1)) ++ tail) * 10 ^ (k + 1) : ℚ) =
        digits * 10 ^ tail.length := by exact_mod_cast hnat
      rw [zpow_negSucc, div_eq_iff (by positivity)]
      field_simp
      exact hrat

/-! ## Floats -/

section Floats

variable {x : Float} {negative : Bool} {m : Nat} {e : Int}

/-- **Decimal numbers.** A float that is written as a decimal number in its interval reads back. -/
theorem readsBack_of_decimals (hparts : Number.parts x = .finite negative m e) (hm : m ≠ 0) {n : Numeral}
    {text : String} {v : ℚ} (hplain : Number.plain x = Number.sign negative ++ text) (hnegative : n.negative = negative)
    (hd : Decimals n text v) (hr : Number.RoundsTo m e v) : ReadsBack x := by
  have hc := Number.canonical_of_parts hparts hm
  refine ⟨n, hd.proper, hd.point, ?_, ?_⟩
  · rw [hplain, String.toList_append, hd.text, Numeral.chars, hnegative]
    cases negative <;> rfl
  · obtain ⟨k, hk⟩ : ∃ k, n.fraction.length = k + 1 :=
      Nat.exists_eq_succ_of_ne_zero (List.length_pos_iff.2 hd.point).ne'
    have hvalue := hd.value
    rw [hk] at hvalue
    have hread := Number.ofDecimal_eq hc (hvalue ▸ hr)
    have hempty : n.fraction.isEmpty = false := List.isEmpty_eq_false_iff.2 hd.point
    rw [← Number.ofModel_sign hparts hc, ← hread, ← hnegative]
    simp only [Numeral.term?, hempty, Bool.false_eq_true, if_false, hk]
    rfl

/-- zero is written with its sign -/
theorem readsBack_zero (hparts : Number.parts x = .finite negative 0 e) : ReadsBack x := by
  have hx : Float.ofModel (.pack (.zero (Number.signOf negative))) = x := by
    rw [← Number.pack_unpack hparts, Number.unpack_parts, hparts]
    rfl
  have hplain : Number.plain x = Number.sign negative ++ "0" ++ ".0" := by
    have hnum : (Number.fraction 0 e).1 = 0 := by
      cases e <;> simp [Number.fraction]
    unfold Number.plain
    simp only [hparts, hnum, Nat.zero_mod, Nat.zero_div, if_true]
    rfl
  refine ⟨⟨negative, ['0'], ['0']⟩, ⟨List.cons_ne_nil _ _, by simp, by simp⟩, List.cons_ne_nil _ _, ?_, ?_⟩
  · rw [hplain]
    cases negative <;> rfl
  · have hread : Number.ofDecimal (ofDigits ['0', '0']) (-1) = 0.0 := rfl
    have hzero : (if negative then -0.0 else 0.0) = x := by
      rw [← hx]
      cases negative <;> decide +kernel
    rw [← hzero, ← hread]
    rfl

/-- the finite floats are those with a mantissa and an exponent -/
theorem isFinite_iff : x.isFinite = true ↔ ∃ negative m e, Number.parts x = .finite negative m e := by
  have hunpack : x.isFinite = x.toModel.unpack.isFinite := rfl
  rw [hunpack, Number.unpack_parts]
  cases Number.parts x with
  | nan => simp [Float.Model.UnpackedFloat.isFinite]
  | infinite negative => simp [Float.Model.UnpackedFloat.isFinite]
  | finite negative m e =>
    dsimp only
    split_ifs <;> simp [Float.Model.UnpackedFloat.isFinite]

/-- **Floats.** Every finite one is read as it is written. -/
theorem readsBack_of_isFinite (hfinite : x.isFinite = true) : ReadsBack x := by
  obtain ⟨negative, m, e, hparts⟩ := isFinite_iff.1 hfinite
  rcases Nat.eq_zero_or_pos m with rfl | hm
  · exact readsBack_zero hparts
  have hc := Number.canonical_of_parts hparts hm.ne'
  by_cases hwhole : (Number.fraction m e).1 % (Number.fraction m e).2 = 0
  · -- the quotient is an integer and written as it is
    obtain ⟨hvalue, hden⟩ := Number.fraction_value m e
    have hplain : Number.plain x = Number.sign negative ++
        (toString ((Number.fraction m e).1 / (Number.fraction m e).2) ++ ".0") := by
      unfold Number.plain
      simp only [hparts, if_pos hwhole, String.append_assoc]
    have hquotient : (((Number.fraction m e).1 / (Number.fraction m e).2 : Nat) : ℚ) = m * 2 ^ e := by
      rw [← hvalue, Nat.cast_div (Nat.dvd_of_mod_eq_zero hwhole) (by exact_mod_cast hden.ne')]
    exact readsBack_of_decimals hparts hm.ne' hplain rfl (whole_decimals negative _)
      (hquotient ▸ Number.RoundsTo.self hm e)
  · have hplain : Number.plain x = Number.sign negative ++ (Number.shortest m e).positional := by
      unfold Number.plain
      simp only [hparts, if_neg hwhole]
    obtain ⟨n, hnegative, hd⟩ := positional_decimals negative (Number.shortest m e)
    exact readsBack_of_decimals hparts hm.ne' hplain hnegative hd (Number.shortest_roundsTo hc)

end Floats

end Grammar

end RoadRules
