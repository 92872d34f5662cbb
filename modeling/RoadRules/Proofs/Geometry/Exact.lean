/-
Segments with exact coordinates.

On rational numbers the crossing test is right: it finds a point just if the segments share one
(`isSome_crossing?_iff`), and the point that it finds is shared (`on_of_crossing?`). So segments that are parts of
others cross only if these do (`isSome_crossing?_of_parts`).
-/
import Mathlib
import RoadRules.Geometry.Point

namespace RoadRules

/-- exact coordinates -/
instance : Scalar ℚ where
  lt a b := decide (a < b)
  le a b := decide (a ≤ b)
  lesser := min
  greater := max

namespace Vec2

variable {a b p q p1 p2 q1 q2 r : Vec2 ℚ}

theorem eq_of_coordinates (hx : p.x = q.x) (hy : p.y = q.y) : p = q := by
  cases p
  cases q
  cases hx
  cases hy
  rfl

theorem lerp_x (p q : Vec2 ℚ) (t : ℚ) : (p.lerp q t).x = p.x + (q.x - p.x) * t := rfl

theorem lerp_y (p q : Vec2 ℚ) (t : ℚ) : (p.lerp q t).y = p.y + (q.y - p.y) * t := rfl

theorem cross_eq (o a b : Vec2 ℚ) : cross o a b = (a.x - o.x) * (b.y - o.y) - (a.y - o.y) * (b.x - o.x) := rfl

theorem inBox_iff : inBox p a b = true ↔
    (min a.x b.x ≤ p.x ∧ p.x ≤ max a.x b.x) ∧ min a.y b.y ≤ p.y ∧ p.y ≤ max a.y b.y := by
  have unfolded : inBox p a b = (decide (min a.x b.x ≤ p.x) && decide (p.x ≤ max a.x b.x) &&
    decide (min a.y b.y ≤ p.y) && decide (p.y ≤ max a.y b.y)) := rfl
  rw [unfolded]
  simp only [Bool.and_eq_true, decide_eq_true_eq, and_assoc]

/-! ## The points of a segment -/

/-- is `p` a point of the segment from `a` to `b`, ends included? -/
def On (p a b : Vec2 ℚ) : Prop := ∃ t, 0 ≤ t ∧ t ≤ 1 ∧ p = a.lerp b t

theorem lerp_zero (a b : Vec2 ℚ) : a.lerp b 0 = a := eq_of_coordinates (by simp [lerp_x]) (by simp [lerp_y])

theorem lerp_one (a b : Vec2 ℚ) : a.lerp b 1 = b := eq_of_coordinates (by simp [lerp_x]) (by simp [lerp_y])

theorem on_start (a b : Vec2 ℚ) : On a a b := ⟨0, le_rfl, zero_le_one, (lerp_zero a b).symm⟩

theorem on_finish (a b : Vec2 ℚ) : On b a b := ⟨1, zero_le_one, le_rfl, (lerp_one a b).symm⟩

/-- what lies before a point of a segment is on the segment -/
theorem On.before (hp : On p a b) (hq : On q a p) : On q a b := by
  obtain ⟨t, ht0, ht1, rfl⟩ := hp
  obtain ⟨u, hu0, hu1, rfl⟩ := hq
  refine ⟨t * u, mul_nonneg ht0 hu0, mul_le_one₀ ht1 hu0 hu1, eq_of_coordinates ?_ ?_⟩
  all_goals
    simp only [lerp_x, lerp_y]
    ring

/-- what lies behind a point of a segment is on the segment -/
theorem On.behind (hp : On p a b) (hq : On q p b) : On q a b := by
  obtain ⟨t, ht0, ht1, rfl⟩ := hp
  obtain ⟨u, hu0, hu1, rfl⟩ := hq
  refine ⟨t + u * (1 - t), by nlinarith, by nlinarith, eq_of_coordinates ?_ ?_⟩
  all_goals
    simp only [lerp_x, lerp_y]
    ring

/-- a number between two others is where some part of the way from one to the other leads -/
theorem exists_part {u v w : ℚ} (h : u ≠ v) (hw : min u v ≤ w ∧ w ≤ max u v) :
    ∃ t, 0 ≤ t ∧ t ≤ 1 ∧ w = u + (v - u) * t := by
  have hne : v - u ≠ 0 := sub_ne_zero.2 h.symm
  have hw' : w = u + (v - u) * ((w - u) / (v - u)) := by
    field_simp
    ring
  rcases lt_or_gt_of_ne h with h | h
  · rw [min_eq_left h.le, max_eq_right h.le] at hw
    have hpos : 0 < v - u := sub_pos.2 h
    exact ⟨_, div_nonneg (sub_nonneg.2 hw.1) hpos.le, (div_le_one hpos).2 (sub_le_sub_right hw.2 u), hw'⟩
  · rw [min_eq_right h.le, max_eq_left h.le] at hw
    have hneg : v - u < 0 := sub_neg.2 h
    exact ⟨_, div_nonneg_of_nonpos (sub_nonpos.2 hw.2) hneg.le,
      (div_le_one_of_neg hneg).2 (sub_le_sub_right hw.1 u), hw'⟩

theorem between_of_part {u v t : ℚ} (h0 : 0 ≤ t) (h1 : t ≤ 1) :
    min u v ≤ u + (v - u) * t ∧ u + (v - u) * t ≤ max u v := by
  rcases le_total u v with h | h
  · rw [min_eq_left h, max_eq_right h]
    constructor <;> nlinarith
  · rw [min_eq_right h, max_eq_left h]
    constructor <;> nlinarith

/-- **The test for a point of a segment**: it lies on the line through the ends, and in the box between them. -/
theorem on_iff : On p a b ↔ cross a b p = 0 ∧ inBox p a b = true := by
  rw [inBox_iff, cross_eq]
  constructor
  · rintro ⟨t, ht0, ht1, rfl⟩
    exact ⟨by rw [lerp_x, lerp_y]; ring, between_of_part ht0 ht1, between_of_part ht0 ht1⟩
  · rintro ⟨hcross, hx, hy⟩
    by_cases hab : a.x = b.x
    · by_cases hab' : a.y = b.y
      · -- the ends are one point
        rw [← hab, min_self, max_self] at hx
        rw [← hab', min_self, max_self] at hy
        exact (eq_of_coordinates (le_antisymm hx.2 hx.1) (le_antisymm hy.2 hy.1) : p = a) ▸ on_start a b
      · obtain ⟨t, ht0, ht1, ht⟩ := exists_part hab' hy
        refine ⟨t, ht0, ht1, eq_of_coordinates ?_ ht⟩
        have hne : b.y - a.y ≠ 0 := sub_ne_zero.2 (Ne.symm hab')
        have hpx : p.x - a.x = 0 := by
          rw [← hab, sub_self, zero_mul, zero_sub, neg_eq_zero] at hcross
          exact (mul_eq_zero.1 hcross).resolve_left hne
        rw [lerp_x, ← hab, sub_self, zero_mul, add_zero]
        exact sub_eq_zero.1 hpx
    · obtain ⟨t, ht0, ht1, ht⟩ := exists_part hab hx
      refine ⟨t, ht0, ht1, eq_of_coordinates ht ?_⟩
      have hne : b.x - a.x ≠ 0 := sub_ne_zero.2 (Ne.symm hab)
      rw [ht] at hcross
      rw [lerp_y]
      refine mul_left_cancel₀ hne ?_
      linear_combination hcross

/-! ## The crossing test -/

/-- are the two numbers on different sides of zero? -/
def Opposite (u v : ℚ) : Prop := 0 < u ∧ v < 0 ∨ u < 0 ∧ 0 < v

/-- is each segment's line strictly between the ends of the other segment? -/
def Cut (p1 p2 q1 q2 : Vec2 ℚ) : Prop :=
  Opposite (cross q1 q2 p1) (cross q1 q2 p2) ∧ Opposite (cross p1 p2 q1) (cross p1 p2 q2)

instance (u v : ℚ) : Decidable (Opposite u v) := inferInstanceAs (Decidable (_ ∨ _))

instance (p1 p2 q1 q2 : Vec2 ℚ) : Decidable (Cut p1 p2 q1 q2) := inferInstanceAs (Decidable (_ ∧ _))

instance (p a b : Vec2 ℚ) : Decidable (On p a b) := decidable_of_iff _ on_iff.symm

theorem crossing?_eq (p1 p2 q1 q2 : Vec2 ℚ) : crossing? p1 p2 q1 q2 =
    if Cut p1 p2 q1 q2 then some (p1.lerp p2 (cross q1 q2 p1 / (cross q1 q2 p1 - cross q1 q2 p2)))
    else if On p1 q1 q2 then some p1
    else if On p2 q1 q2 then some p2
    else if On q1 p1 p2 then some q1
    else if On q2 p1 p2 then some q2
    else none := by
  have opposite (u v : ℚ) : ((decide (0 < u) && decide (v < 0)) || (decide (u < 0) && decide (0 < v))) =
      decide (Opposite u v) := by
    rw [Bool.eq_iff_iff]
    simp only [Bool.or_eq_true, Bool.and_eq_true, decide_eq_true_eq]
    rfl
  have on (p a b : Vec2 ℚ) : (cross a b p == 0 && inBox p a b) = decide (On p a b) := by
    rw [Bool.eq_iff_iff, Bool.and_eq_true, beq_iff_eq, decide_eq_true_eq]
    exact on_iff.symm
  have unfolded : crossing? p1 p2 q1 q2 =
      if (((decide (0 < cross q1 q2 p1) && decide (cross q1 q2 p2 < 0)) ||
          (decide (cross q1 q2 p1 < 0) && decide (0 < cross q1 q2 p2))) &&
        ((decide (0 < cross p1 p2 q1) && decide (cross p1 p2 q2 < 0)) ||
          (decide (cross p1 p2 q1 < 0) && decide (0 < cross p1 p2 q2)))) = true then
        some (p1.lerp p2 (cross q1 q2 p1 / (cross q1 q2 p1 - cross q1 q2 p2)))
      else if (cross q1 q2 p1 == 0 && inBox p1 q1 q2) = true then some p1
      else if (cross q1 q2 p2 == 0 && inBox p2 q1 q2) = true then some p2
      else if (cross p1 p2 q1 == 0 && inBox q1 p1 p2) = true then some q1
      else if (cross p1 p2 q2 == 0 && inBox q2 p1 p2) = true then some q2
      else none := rfl
  rw [unfolded]
  simp only [opposite, on, Bool.and_eq_true, decide_eq_true_eq]
  rfl

theorem opposite_ne {u v : ℚ} (h : Opposite u v) : u - v ≠ 0 := by
  rcases h with ⟨hu, hv⟩ | ⟨hu, hv⟩
  · exact (sub_pos.2 (hv.trans hu)).ne'
  · exact (sub_neg.2 (hu.trans hv)).ne

theorem opposite_part {u v : ℚ} (h : Opposite u v) : 0 ≤ u / (u - v) ∧ u / (u - v) ≤ 1 := by
  rcases h with ⟨hu, hv⟩ | ⟨hu, hv⟩
  · have hpos : 0 < u - v := sub_pos.2 (hv.trans hu)
    exact ⟨div_nonneg hu.le hpos.le, (div_le_one hpos).2 (by linarith)⟩
  · have hneg : u - v < 0 := sub_neg.2 (hu.trans hv)
    exact ⟨div_nonneg_of_nonpos hu.le hneg.le, (div_le_one_of_neg hneg).2 (by linarith)⟩

/-- Lines through both pairs of ends meet in one point, which is the same part of the way seen from either segment. -/
theorem lerp_eq_of_cut (h : Cut p1 p2 q1 q2) :
    p1.lerp p2 (cross q1 q2 p1 / (cross q1 q2 p1 - cross q1 q2 p2)) =
      q1.lerp q2 (cross p1 p2 q1 / (cross p1 p2 q1 - cross p1 p2 q2)) := by
  have hp := opposite_ne h.1
  have hq := opposite_ne h.2
  -- the two denominators are the same but for the sign
  have hneg : cross p1 p2 q1 - cross p1 p2 q2 = -(cross q1 q2 p1 - cross q1 q2 p2) := by
    simp only [cross_eq]
    ring
  rw [hneg]
  refine eq_of_coordinates ?_ ?_
  all_goals
    simp only [lerp_x, lerp_y, cross_eq] at hp ⊢
    field_simp
    ring

/-- **The point that is found** lies on both segments. -/
theorem on_of_crossing? (h : crossing? p1 p2 q1 q2 = some r) : On r p1 p2 ∧ On r q1 q2 := by
  rw [crossing?_eq] at h
  split_ifs at h with hcut h1 h2 h3 h4
  · cases h
    obtain ⟨hp0, hp1⟩ := opposite_part hcut.1
    obtain ⟨hq0, hq1⟩ := opposite_part hcut.2
    exact ⟨⟨_, hp0, hp1, rfl⟩, ⟨_, hq0, hq1, lerp_eq_of_cut hcut⟩⟩
  · cases h
    exact ⟨on_start _ _, h1⟩
  · cases h
    exact ⟨on_finish _ _, h2⟩
  · cases h
    exact ⟨h3, on_start _ _⟩
  · cases h
    exact ⟨h4, on_finish _ _⟩

/-! ## Nothing is missed -/

theorem cross_lerp (a b p q : Vec2 ℚ) (t : ℚ) :
    cross a b (p.lerp q t) = (1 - t) * cross a b p + t * cross a b q := by
  simp only [cross_eq, lerp_x, lerp_y]
  ring

theorem lerp_lerp (a b : Vec2 ℚ) (u v t : ℚ) : (a.lerp b u).lerp (a.lerp b v) t = a.lerp b (u + (v - u) * t) := by
  refine eq_of_coordinates ?_ ?_
  all_goals
    simp only [lerp_x, lerp_y]
    ring

theorem lerp_injective {u v : ℚ} (h : a ≠ b) (he : a.lerp b u = a.lerp b v) : u = v := by
  by_contra huv
  have coordinate (x y : ℚ) (hxy : x + (y - x) * u = x + (y - x) * v) : x = y := by
    have : (y - x) * (u - v) = 0 := by linear_combination hxy
    exact (sub_eq_zero.1 ((mul_eq_zero.1 this).resolve_right (sub_ne_zero.2 huv))).symm
  exact h (eq_of_coordinates (coordinate _ _ (congrArg Vec2.x he)) (coordinate _ _ (congrArg Vec2.y he)))

/-- a point on the line through two others -/
theorem exists_lerp_of_cross (h : a ≠ b) (hp : cross a b p = 0) : ∃ t, p = a.lerp b t := by
  rw [cross_eq] at hp
  by_cases hx : a.x = b.x
  · have hy : b.y - a.y ≠ 0 := sub_ne_zero.2 fun hy => h (eq_of_coordinates hx hy.symm)
    refine ⟨(p.y - a.y) / (b.y - a.y), eq_of_coordinates ?_ ?_⟩
    · have hpx : p.x - a.x = 0 := by
        rw [← hx, sub_self, zero_mul, zero_sub, neg_eq_zero] at hp
        exact (mul_eq_zero.1 hp).resolve_left hy
      rw [lerp_x, ← hx, sub_self, zero_mul, add_zero]
      exact sub_eq_zero.1 hpx
    · rw [lerp_y, mul_div_cancel₀ _ hy]
      ring
  · have hx : b.x - a.x ≠ 0 := sub_ne_zero.2 (Ne.symm hx)
    refine ⟨(p.x - a.x) / (b.x - a.x), eq_of_coordinates ?_ ?_⟩
    · rw [lerp_x, mul_div_cancel₀ _ hx]
      ring
    · rw [lerp_y]
      field_simp
      linear_combination hp

/-- does an end of one of the segments lie on the other one? -/
def Touch (p1 p2 q1 q2 : Vec2 ℚ) : Prop := On p1 q1 q2 ∨ On p2 q1 q2 ∨ On q1 p1 p2 ∨ On q2 p1 p2

/-- Of two segments on one line that share a point, one has an end on the other. -/
theorem touch_of_collinear (h1 : cross q1 q2 p1 = 0) (h2 : cross q1 q2 p2 = 0) (hp : On r p1 p2) (hq : On r q1 q2) :
    Touch p1 p2 q1 q2 := by
  obtain ⟨s, hs0, hs1, rfl⟩ := hq
  by_cases hne : q1 = q2
  · -- the second segment is the shared point
    have hr : q1.lerp q2 s = q1 := by
      subst hne
      refine eq_of_coordinates ?_ ?_
      · rw [lerp_x, sub_self, zero_mul, add_zero]
      · rw [lerp_y, sub_self, zero_mul, add_zero]
    exact Or.inr (Or.inr (Or.inl (hr ▸ hp)))
  · obtain ⟨u, rfl⟩ := exists_lerp_of_cross hne h1
    obtain ⟨v, rfl⟩ := exists_lerp_of_cross hne h2
    obtain ⟨t, ht0, ht1, ht⟩ := hp
    rw [lerp_lerp] at ht
    have hbetween := between_of_part (u := u) (v := v) ht0 ht1
    rw [← lerp_injective hne ht] at hbetween
    by_cases hu : 0 ≤ u ∧ u ≤ 1
    · exact Or.inl ⟨u, hu.1, hu.2, rfl⟩
    by_cases hv : 0 ≤ v ∧ v ≤ 1
    · exact Or.inr (Or.inl ⟨v, hv.1, hv.2, rfl⟩)
    -- the ends of the first segment are on either side of the second one, so the latter is a part of it
    have around : Opposite u v := by
      rcases lt_or_ge u 0 with hu0 | hu0
      · refine Or.inr ⟨hu0, not_le.1 fun hv0 => ?_⟩
        rcases hv0.lt_or_eq with hv0 | rfl
        · exact absurd (hs0.trans hbetween.2) (not_le.2 (max_lt hu0 hv0))
        · exact hv ⟨le_rfl, zero_le_one⟩
      · have hu1 : 1 < u := not_le.1 fun hu1 => hu ⟨hu0, hu1⟩
        refine Or.inl ⟨one_pos.trans hu1, not_le.1 fun hv0 => ?_⟩
        have hv1 : 1 < v := not_le.1 fun hv1 => hv ⟨hv0, hv1⟩
        exact absurd (hbetween.1.trans hs1) (not_le.2 (lt_min hu1 hv1))
    have hstart : u + (v - u) * (u / (u - v)) = 0 := by
      have hne := opposite_ne around
      field_simp
      ring
    exact Or.inr (Or.inr (Or.inl ⟨u / (u - v), (opposite_part around).1, (opposite_part around).2, by
      rw [lerp_lerp, hstart, lerp_zero]⟩))

theorem Touch.swap (h : Touch q1 q2 p1 p2) : Touch p1 p2 q1 q2 := by
  rcases h with h | h | h | h
  · exact Or.inr (Or.inr (Or.inl h))
  · exact Or.inr (Or.inr (Or.inr h))
  · exact Or.inl h
  · exact Or.inr (Or.inl h)

/-- the ends of a segment that reaches a line strictly inside are on it, or on different sides of it -/
theorem opposite_of_part {u v t : ℚ} (h0 : 0 < t) (h1 : t < 1) (h : (1 - t) * u + t * v = 0) :
    u = 0 ∧ v = 0 ∨ Opposite u v := by
  have hrest : 0 < 1 - t := sub_pos.2 h1
  rcases lt_trichotomy u 0 with hu | rfl | hu
  · refine Or.inr (Or.inr ⟨hu, not_le.1 fun hv => ?_⟩)
    have := mul_neg_of_pos_of_neg hrest hu
    have := mul_nonpos_of_nonneg_of_nonpos h0.le hv
    linarith
  · rw [mul_zero, zero_add] at h
    exact Or.inl ⟨rfl, (mul_eq_zero.1 h).resolve_left h0.ne'⟩
  · refine Or.inr (Or.inl ⟨hu, not_le.1 fun hv => ?_⟩)
    have := mul_pos hrest hu
    have := mul_nonneg h0.le hv
    linarith

/-- **Segments that share a point** cut each other, or one has an end on the other. -/
theorem cut_or_touch (hp : On r p1 p2) (hq : On r q1 q2) : Cut p1 p2 q1 q2 ∨ Touch p1 p2 q1 q2 := by
  have hpr := (on_iff.1 hp).1
  have hqr := (on_iff.1 hq).1
  obtain ⟨t, ht0, ht1, ht⟩ := id hp
  obtain ⟨s, hs0, hs1, hs⟩ := id hq
  rw [hs, cross_lerp] at hpr
  rw [ht, cross_lerp] at hqr
  rcases ht0.lt_or_eq with ht0 | rfl
  · rcases ht1.lt_or_eq with ht1 | rfl
    · rcases hs0.lt_or_eq with hs0 | rfl
      · rcases hs1.lt_or_eq with hs1 | rfl
        · -- the shared point is inside both segments
          rcases opposite_of_part ht0 ht1 hqr with ⟨h1, h2⟩ | hopp
          · exact Or.inr (touch_of_collinear h1 h2 hp hq)
          · rcases opposite_of_part hs0 hs1 hpr with ⟨h3, h4⟩ | hopp'
            · exact Or.inr (touch_of_collinear h3 h4 hq hp).swap
            · exact Or.inl ⟨hopp, hopp'⟩
        · exact Or.inr (Or.inr (Or.inr (Or.inr (lerp_one q1 q2 ▸ hs ▸ hp))))
      · exact Or.inr (Or.inr (Or.inr (Or.inl (lerp_zero q1 q2 ▸ hs ▸ hp))))
    · exact Or.inr (Or.inr (Or.inl (lerp_one p1 p2 ▸ ht ▸ hq)))
  · exact Or.inr (Or.inl (lerp_zero p1 p2 ▸ ht ▸ hq))

/-- **The test is right.** It finds a point if the segments share one. -/
theorem isSome_crossing?_iff : (crossing? p1 p2 q1 q2).isSome = true ↔ ∃ r, On r p1 p2 ∧ On r q1 q2 := by
  constructor
  · intro h
    obtain ⟨r, hr⟩ := Option.isSome_iff_exists.1 h
    exact ⟨r, on_of_crossing? hr⟩
  · rintro ⟨r, hp, hq⟩
    by_contra hnone
    rw [Option.not_isSome_iff_eq_none, crossing?_eq] at hnone
    split_ifs at hnone with hcut h1 h2 h3 h4
    rcases cut_or_touch hp hq with h | h | h | h | h
    · exact absurd h hcut
    · exact absurd h h1
    · exact absurd h h2
    · exact absurd h h3
    · exact absurd h h4

/-! ## Parts of segments -/

/-- is the one segment a part of the other? -/
def Part (s t : Vec2 ℚ × Vec2 ℚ) : Prop := ∀ p, On p s.1 s.2 → On p t.1 t.2

/-- **Parts of segments** cross only if the segments do. -/
theorem isSome_crossing?_of_parts {s s' t t' : Vec2 ℚ × Vec2 ℚ} (hs : Part s' s) (ht : Part t' t)
    (h : (crossing? s'.1 s'.2 t'.1 t'.2).isSome = true) : (crossing? s.1 s.2 t.1 t.2).isSome = true := by
  obtain ⟨r, hr, hr'⟩ := isSome_crossing?_iff.1 h
  exact isSome_crossing?_iff.2 ⟨r, hs r hr, ht r hr'⟩

end Vec2

end RoadRules
