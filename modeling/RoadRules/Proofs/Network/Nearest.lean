/-
The lanelet nearest to a point.

- `lt_iff_before`, `lt_or_beq`: doubles that are numbers are ordered by sign, exponent and mantissa.
- `foldl_nearer`: the search for the nearest of some candidates ends at the first one that all before it are farther
  than and none after it is nearer than.
- `nearestLanelet?_of_subset`: a part of the lanelets that has the nearest one of all has the same nearest one.
-/
import Mathlib
import RoadRules.Network.Neighbourhood
import RoadRules.Proofs.Network.Lookup

namespace RoadRules

/-! ## The order of doubles -/

namespace Double

open Float.Model Float.Model.UnpackedFloat

/-- where a double stands among the numbers: sign and class, then exponent, then mantissa -/
def place? : UnpackedFloat → Option (Int × Int × Int)
  | .notANumber => none
  | .infinity .negative => some (-2, 0, 0)
  | .infinity .positive => some (2, 0, 0)
  | .zero _ => some (0, 0, 0)
  | .finite .negative m e _ => some (-1, -e, -m)
  | .finite .positive m e _ => some (1, e, m)

/-- does one place come before another? -/
def Before (p q : Int × Int × Int) : Prop :=
  p.1 < q.1 ∨ p.1 = q.1 ∧ (p.2.1 < q.2.1 ∨ p.2.1 = q.2.1 ∧ p.2.2 < q.2.2)

theorem before_trans {p q r : Int × Int × Int} (h : Before p q) (h' : Before q r) : Before p r := by
  unfold Before at *; omega

theorem before_cases {p q r : Int × Int × Int} (h : Before p r) : Before p q ∨ Before q r := by
  unfold Before at *; omega

theorem compare_eq_lt (a b : UnpackedFloat) :
    a.compare b = some .lt ↔ ∃ p q, place? a = some p ∧ place? b = some q ∧ Before p q := by
  have lex : ∀ (e₁ e₂ : Int) (m₁ m₂ : Nat), (compare e₁ e₂).then (compare m₁ m₂) = .lt ↔
      e₁ < e₂ ∨ e₁ = e₂ ∧ m₁ < m₂ := by
    intro e₁ e₂ m₁ m₂
    rw [Ordering.then_eq_lt, compare_lt_iff_lt, compare_eq_iff_eq, compare_lt_iff_lt]
  have lex' : ∀ (e₁ e₂ : Int) (m₁ m₂ : Nat), (compare e₁ e₂).then (compare m₁ m₂) = .gt ↔
      e₂ < e₁ ∨ e₁ = e₂ ∧ m₂ < m₁ := by
    intro e₁ e₂ m₁ m₂
    rw [Ordering.then_eq_gt, compare_gt_iff_gt, compare_eq_iff_eq, compare_gt_iff_gt]
  rcases a with (_ | _) | _ | _ | ⟨_ | _, m₁, e₁, _⟩ <;> rcases b with (_ | _) | _ | _ | ⟨_ | _, m₂, e₂, _⟩ <;>
    simp [UnpackedFloat.compare, place?, Before, compare, Ordering.swap_eq_lt]
  · exact lex' e₁ e₂ m₁ m₂
  · exact lex e₁ e₂ m₁ m₂

/-- the place of a double, unless it is not a number -/
def placeOf? (a : Float) : Option (Int × Int × Int) := place? a.toModel.unpack

theorem lt_iff_before {a b : Float} :
    a < b ↔ ∃ p q, placeOf? a = some p ∧ placeOf? b = some q ∧ Before p q := by
  rw [placeOf?, placeOf?, ← compare_eq_lt]
  show (decide (a.toModel < b.toModel)) = true ↔ _
  rw [decide_eq_true_iff]
  show (a.toModel.unpack.compare b.toModel.unpack == some Ordering.lt) = true ↔ _
  rw [beq_iff_eq]

theorem placeOf?_of_le {a b : Float} (h : a ≤ b) : ∃ p, placeOf? a = some p := by
  have hle : ((a.toModel.unpack.compare b.toModel.unpack).any Ordering.isLE) = true := by
    have h : decide (a.toModel ≤ b.toModel) = true := h
    exact of_decide_eq_true h
  unfold placeOf?
  cases ha : a.toModel.unpack with
  | notANumber => simp [ha, UnpackedFloat.compare] at hle
  | infinity s => cases s <;> exact ⟨_, rfl⟩
  | zero s => exact ⟨_, rfl⟩
  | finite s m e _ => cases s <;> exact ⟨_, rfl⟩

theorem lt_trans {a b c : Float} (h : a < b) (h' : b < c) : a < c := by
  obtain ⟨p, q, hp, hq, hpq⟩ := lt_iff_before.1 h
  obtain ⟨q', r, hq', hr, hqr⟩ := lt_iff_before.1 h'
  cases hq.symm.trans hq'
  exact lt_iff_before.2 ⟨p, r, hp, hr, before_trans hpq hqr⟩

/-- a number lies above the lower or below the higher of two -/
theorem lt_or_lt {a b c l : Float} (h : a < c) (hb : b ≤ l) : a < b ∨ b < c := by
  obtain ⟨p, r, hp, hr, hpr⟩ := lt_iff_before.1 h
  obtain ⟨q, hq⟩ := placeOf?_of_le hb
  rcases before_cases (q := q) hpr with h | h
  · exact Or.inl (lt_iff_before.2 ⟨p, q, hp, hq, h⟩)
  · exact Or.inr (lt_iff_before.2 ⟨q, r, hq, hr, h⟩)

theorem compare_cases {a b : UnpackedFloat} (ha : a ≠ .notANumber) (hb : b ≠ .notANumber) :
    a.compare b = some .lt ∨ a.compare b = some .eq ∨ b.compare a = some .lt := by
  have lex (e₁ e₂ : Int) (m₁ m₂ : Nat) : (compare e₁ e₂).then (compare m₁ m₂) = .lt ∨
      (compare e₁ e₂).then (compare m₁ m₂) = .eq ∨ (compare e₂ e₁).then (compare m₂ m₁) = .lt := by
    simp only [Ordering.then_eq_lt, Ordering.then_eq_eq, compare_lt_iff_lt, compare_eq_iff_eq]
    omega
  have lex' (e₁ e₂ : Int) (m₁ m₂ : Nat) : (compare e₁ e₂).then (compare m₁ m₂) = .gt ∨
      (compare e₁ e₂).then (compare m₁ m₂) = .eq ∨ (compare e₂ e₁).then (compare m₂ m₁) = .gt := by
    simp only [Ordering.then_eq_gt, Ordering.then_eq_eq, compare_gt_iff_gt, compare_eq_iff_eq]
    omega
  rcases a with (_ | _) | _ | _ | ⟨_ | _, m₁, e₁, _⟩ <;> rcases b with (_ | _) | _ | _ | ⟨_ | _, m₂, e₂, _⟩ <;>
    simp_all [UnpackedFloat.compare, compare, Ordering.swap_eq_lt, Ordering.swap_eq_eq]

theorem beq_iff_compare {a b : Float} : (a == b) = true ↔ a.toModel.unpack.compare b.toModel.unpack = some .eq := by
  show (a.toModel.unpack.compare b.toModel.unpack == some Ordering.eq) = true ↔ _
  rw [beq_iff_eq]

theorem lt_iff_compare {a b : Float} : a < b ↔ a.toModel.unpack.compare b.toModel.unpack = some .lt := by
  rw [lt_iff_before, compare_eq_lt]
  rfl

theorem le_iff {a b : Float} : a ≤ b ↔ a < b ∨ (a == b) = true := by
  rw [lt_iff_compare, beq_iff_compare]
  have hle : a ≤ b ↔ ((a.toModel.unpack.compare b.toModel.unpack).any Ordering.isLE) = true := by
    show (decide (a.toModel ≤ b.toModel)) = true ↔ _
    rw [decide_eq_true_iff]
    rfl
  rw [hle]
  rcases a.toModel.unpack.compare b.toModel.unpack with _ | _ | _ | _ <;> simp [Ordering.isLE]

/-- of two doubles that are numbers, one is less than the other or they are equal -/
theorem lt_or_beq {a b : Float} (ha : a.isNaN = false) (hb : b.isNaN = false) (h : ¬ b < a) :
    a < b ∨ (a == b) = true := by
  have number {x : Float} (hx : x.isNaN = false) : x.toModel.unpack ≠ .notANumber := by
    intro heq
    have hx : x.toModel.unpack.isNaN = false := hx
    rw [heq] at hx
    cases hx
  rw [lt_iff_compare] at h ⊢
  rw [beq_iff_compare]
  rcases compare_cases (number ha) (number hb) with hlt | heq | hgt
  · exact Or.inl hlt
  · exact Or.inr heq
  · exact absurd hgt h

theorem lt_asymm {a b : Float} (h : a < b) : ¬ b < a := by
  intro h'
  obtain ⟨p, q, hp, hq, hpq⟩ := lt_iff_before.1 (lt_trans h h')
  cases hp.symm.trans hq
  unfold Before at hpq
  omega

theorem not_beq_of_lt {a b : Float} (h : a < b) : (b == a) = false := by
  rw [← Bool.not_eq_true]
  intro heq
  have heq := beq_iff_compare.1 (PartialEquivBEq.symm heq)
  rw [lt_iff_compare.1 h] at heq
  cases heq

end Double

/-! ## The first of the nearest candidates -/

/-- the nearer of two candidates, the earlier one if none is -/
def nearer (best e : Nat × Float) : Nat × Float := if e.2 < best.2 then e else best

theorem foldl_nearer_of_not_lt {r : List (Nat × Float)} {b : Nat × Float} (hr : ∀ e ∈ r, ¬ e.2 < b.2) :
    r.foldl nearer b = b := by
  induction r with
  | nil => rfl
  | cons e r ih =>
    rw [List.foldl_cons, nearer, if_neg (hr e List.mem_cons_self)]
    exact ih fun x hx => hr x (List.mem_cons_of_mem _ hx)

/-- The search ends at a candidate that all before it are farther than and none after it is nearer than. -/
theorem foldl_nearer {l r : List (Nat × Float)} {b x : Nat × Float} (hx : b.2 < x.2) (hl : ∀ e ∈ l, b.2 < e.2)
    (hr : ∀ e ∈ r, ¬ e.2 < b.2) : (l ++ b :: r).foldl nearer x = b := by
  induction l generalizing x with
  | nil =>
    rw [List.nil_append, List.foldl_cons, nearer, if_pos hx]
    exact foldl_nearer_of_not_lt hr
  | cons e l ih =>
    rw [List.cons_append, List.foldl_cons]
    refine ih ?_ fun y hy => hl y (List.mem_cons_of_mem _ hy)
    unfold nearer
    split_ifs
    · exact hl e List.mem_cons_self
    · exact hx

/-- among numbers the search ends at such a candidate -/
theorem exists_nearest {limit : Float} (first : Nat × Float) (rest : List (Nat × Float))
    (hn : ∀ e ∈ first :: rest, e.2 ≤ limit) : ∃ l r, first :: rest = l ++ rest.foldl nearer first :: r ∧
      (∀ e ∈ l, (rest.foldl nearer first).2 < e.2) ∧ ∀ e ∈ r, ¬ e.2 < (rest.foldl nearer first).2 := by
  induction rest generalizing first with
  | nil => exact ⟨[], [], rfl, by simp, by simp⟩
  | cons e rest ih =>
    rw [List.foldl_cons]
    by_cases he : e.2 < first.2
    · rw [show nearer first e = e from if_pos he]
      obtain ⟨l, r, hs, hl, hr⟩ := ih e fun x hx => hn x (List.mem_cons_of_mem _ hx)
      refine ⟨first :: l, r, congrArg (first :: ·) hs, fun x hx => ?_, hr⟩
      rcases List.mem_cons.1 hx with rfl | hx
      · -- the first candidate is farther than the second, which is the nearest or farther than it
        cases l with
        | nil => rw [← (List.cons.inj hs).1]; exact he
        | cons y l => exact Double.lt_trans ((List.cons.inj hs).1 ▸ hl y List.mem_cons_self) he
      · exact hl x hx
    · rw [show nearer first e = first from if_neg he]
      obtain ⟨l, r, hs, hl, hr⟩ := ih first fun x hx => hn x <| by
        rcases List.mem_cons.1 hx with rfl | hx
        · exact List.mem_cons_self
        · exact List.mem_cons_of_mem _ (List.mem_cons_of_mem _ hx)
      cases l with
      | nil =>
        obtain ⟨hf, hs⟩ := List.cons.inj hs
        refine ⟨[], e :: rest, by rw [← hf]; rfl, by simp, fun x hx => ?_⟩
        rcases List.mem_cons.1 hx with rfl | hx
        · rw [← hf]; exact he
        · exact hr x (hs ▸ hx)
      | cons y l =>
        obtain ⟨hy, hrest⟩ := List.cons.inj hs
        subst hy
        refine ⟨first :: e :: l, r, congrArg (fun t => first :: e :: t) hrest, fun x hx => ?_, hr⟩
        have hfirst := hl first List.mem_cons_self
        rcases List.mem_cons.1 hx with rfl | hx
        · exact hfirst
        · rcases List.mem_cons.1 hx with rfl | hx
          · exact (Double.lt_or_lt hfirst (hn x (by simp))).resolve_right he
          · exact hl x (List.mem_cons_of_mem _ hx)

namespace Network

/-- the lanelets within some distance of a point, with their distances -/
def near (n : Network) (p : Point) (limit : Float) : List (Nat × Float) :=
  n.lanelets.entries.filterMap fun e => (e.2.distanceWithin? p limit).map fun d => (e.1, d)

theorem mem_near {n : Network} {p : Point} {limit : Float} {k : Nat} {d : Float} :
    (k, d) ∈ n.near p limit ↔ (n.lanelets.get? k).bind (·.distanceWithin? p limit) = some d := by
  simp only [near, List.mem_filterMap, Option.map_eq_some_iff, Prod.mk.injEq, Option.bind_eq_some_iff,
    Store.get?_eq_some_iff, Prod.exists]
  constructor
  · rintro ⟨k, l, hl, d, hd, rfl, rfl⟩; exact ⟨l, hl, hd⟩
  · rintro ⟨l, hl, hd⟩; exact ⟨k, l, hl, d, hd, rfl, rfl⟩

theorem near_ascending (n : Network) (p : Point) (limit : Float) :
    (n.near p limit).Pairwise fun a b => a.1 < b.1 := by
  refine List.Pairwise.filterMap _ (fun a b hab x hx y hy => ?_) n.lanelets.ascending
  obtain ⟨d, -, rfl⟩ := Option.map_eq_some_iff.1 hx
  obtain ⟨e, -, rfl⟩ := Option.map_eq_some_iff.1 hy
  exact hab

theorem le_of_mem_near {n : Network} {p : Point} {limit : Float} {e : Nat × Float} (h : e ∈ n.near p limit) :
    e.2 ≤ limit := by
  obtain ⟨l, -, hd⟩ := Option.bind_eq_some_iff.1 (mem_near.1 h)
  obtain ⟨r, -, hr⟩ := Option.bind_eq_some_iff.1 hd
  split_ifs at hr with hle
  injection hr with hr
  rw [← hr]
  exact hle

theorem nearestLanelet?_eq (n : Network) (p : Point) (limit : Float) : n.nearestLanelet? p limit =
    match n.near p limit with
    | [] => none
    | first :: rest => some (rest.foldl nearer first).1 := rfl

/-- All lanelets before the one that the search finds are farther than it, and none behind it is nearer. -/
theorem near_of_nearestLanelet? {n : Network} {p : Point} {limit : Float} {k : Nat}
    (h : n.nearestLanelet? p limit = some k) : ∃ before d after, n.near p limit = before ++ (k, d) :: after ∧
      (∀ e ∈ before, d < e.2) ∧ ∀ e ∈ after, ¬ e.2 < d := by
  rw [nearestLanelet?_eq] at h
  cases hnear : n.near p limit with
  | nil =>
    rw [hnear] at h
    cases h
  | cons first rest =>
    rw [hnear] at h
    cases h
    obtain ⟨before, after, hsplit, hbefore, hafter⟩ :=
      exists_nearest first rest fun e he => le_of_mem_near (hnear ▸ he)
    exact ⟨before, _, after, hsplit, hbefore, hafter⟩

theorem nearestLanelet?_of_near {n : Network} {p : Point} {limit : Float} {k : Nat} {d : Float}
    {before after : List (Nat × Float)} (hnear : n.near p limit = before ++ (k, d) :: after)
    (hbefore : ∀ e ∈ before, d < e.2) (hafter : ∀ e ∈ after, ¬ e.2 < d) : n.nearestLanelet? p limit = some k := by
  rw [nearestLanelet?_eq, hnear]
  cases before with
  | nil =>
    change some (after.foldl nearer (k, d)).1 = some k
    rw [foldl_nearer_of_not_lt (b := (k, d)) hafter]
  | cons x before =>
    change some ((before ++ (k, d) :: after).foldl nearer x).1 = some k
    have hrest : ∀ e ∈ before, d < e.2 := fun e he => hbefore e (List.mem_cons_of_mem _ he)
    rw [foldl_nearer (b := (k, d)) (hbefore x List.mem_cons_self) hrest hafter]

theorem nearestLanelet?_eq_none_iff {n : Network} {p : Point} {limit : Float} :
    n.nearestLanelet? p limit = none ↔ n.near p limit = [] := by
  rw [nearestLanelet?_eq]
  cases n.near p limit <;> simp

/-- **The nearest lanelet of a part.** A part of the lanelets that has the nearest one of all has the same nearest
one. -/
theorem nearestLanelet?_of_subset {n m : Network} {p : Point} {limit : Float} (inside : Nat → Bool)
    (hm : ∀ k, (m.lanelets.get? k).bind (·.distanceWithin? p limit) =
      if inside k then (n.lanelets.get? k).bind (·.distanceWithin? p limit) else none)
    (hn : ∀ k, n.nearestLanelet? p limit = some k → inside k = true) :
    m.nearestLanelet? p limit = n.nearestLanelet? p limit := by
  have hfilter : m.near p limit = (n.near p limit).filter fun e => inside e.1 := by
    refine Store.sorted_entries_eq (m.near_ascending p limit) ((n.near_ascending p limit).filter _) ?_
    rintro ⟨k, d⟩
    rw [List.mem_filter, mem_near, mem_near, hm]
    cases inside k <;> simp
  cases hwhole : n.nearestLanelet? p limit with
  | none => rw [nearestLanelet?_eq_none_iff, hfilter, nearestLanelet?_eq_none_iff.1 hwhole, List.filter_nil]
  | some k =>
    obtain ⟨before, d, after, hnear, hbefore, hafter⟩ := near_of_nearestLanelet? hwhole
    rw [hnear, List.filter_append, List.filter_cons, if_pos (hn k hwhole)] at hfilter
    exact nearestLanelet?_of_near hfilter (fun e he => hbefore e (List.mem_of_mem_filter he))
      fun e he => hafter e (List.mem_of_mem_filter he)

end Network

end RoadRules
