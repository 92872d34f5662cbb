/-
How many crossings a line has, before and after a loop is cut off.

- `crossingCount_eq`: crossings are counted over pairs of segments.
- `pairs_le`, `pairs_lt`: a line has no more of them if its segments are, one by one and in order, parts of some
  segments of another line, and fewer if two crossing segments have come to follow each other.
- `crossingCount_cutFirstLoop_lt`: with exact coordinates each cut leaves fewer crossings.
-/
import RoadRules.Proofs.Geometry.Exact
import RoadRules.Proofs.Geometry.Loops

namespace RoadRules

namespace Polyline

open List (SublistForall₂)

variable {α : Type} (cross? : α → α → α → α → Option α)

/-! ## Pairs of segments -/

/-- do two segments cross? -/
def Crosses (s t : α × α) : Bool := (cross? s.1 s.2 t.1 t.2).isSome

/-- how many pairs of segments cross that do not follow each other -/
def pairs : List (α × α) → Nat
  | [] => 0
  | s :: rest => rest.tail.countP (Crosses cross? s) + pairs rest

theorem crossedCount_eq (a b : α) (line : List α) :
    crossedCount cross? a b line = (segments line).countP (Crosses cross? (a, b)) := by
  fun_induction crossedCount cross? a b line with
  | case1 c d rest ih =>
    rw [segments_cons, List.countP_cons, ih, Nat.add_comm]
    rfl
  | case2 line hline =>
    match line, hline with
    | [], _ | [_], _ => rfl
    | c :: d :: rest, hline => exact (hline c d rest rfl).elim

theorem tail_segments_cons (b : α) (rest : List α) : (segments (b :: rest)).tail = segments rest := by
  cases rest <;> rfl

theorem crossingCount_eq (line : List α) : crossingCount cross? line = pairs cross? (segments line) := by
  fun_induction crossingCount cross? line with
  | case1 a b rest ih => rw [segments_cons, pairs, crossedCount_eq, ih, tail_segments_cons]
  | case2 line hline =>
    match line, hline with
    | [], _ | [_], _ => rfl
    | a :: b :: rest, hline => exact (hline a b rest rfl).elim

/-! ## Parts of segments -/

section Parts

variable {R : α × α → α × α → Prop}

theorem sublistForall₂_of_cons {s : α × α} {ss ts : List (α × α)} (h : SublistForall₂ R (s :: ss) ts) :
    SublistForall₂ R ss ts := by
  generalize hl : s :: ss = l at h
  induction h with
  | nil => cases hl
  | cons _ h => cases hl; exact .cons_right h
  | cons_right _ ih => exact .cons_right (ih hl)

theorem sublistForall₂_tail {ss ts : List (α × α)} (h : SublistForall₂ R ss ts) :
    SublistForall₂ R ss.tail ts.tail := by
  cases h with
  | nil => exact .nil
  | cons _ h => exact h
  | cons_right h =>
    cases ss with
    | nil => exact .nil
    | cons s ss => exact sublistForall₂_of_cons h

theorem sublistForall₂_skip (skipped : List (α × α)) {ss ts : List (α × α)} (h : SublistForall₂ R ss ts) :
    SublistForall₂ R ss (skipped ++ ts) := by
  induction skipped with
  | nil => exact h
  | cons _ _ ih => exact .cons_right ih

theorem sublistForall₂_append (hrefl : ∀ s, R s s) (shared : List (α × α)) {ss ts : List (α × α)}
    (h : SublistForall₂ R ss ts) : SublistForall₂ R (shared ++ ss) (shared ++ ts) := by
  induction shared with
  | nil => exact h
  | cons s _ ih => exact .cons (hrefl s) ih

variable {cross?} (hR : ∀ {s s' t t'}, R s' s → R t' t → Crosses cross? s' t' = true → Crosses cross? s t = true)

include hR

theorem countP_crosses_le {s s' : α × α} (hs : R s' s) {ts' ts : List (α × α)} (h : SublistForall₂ R ts' ts) :
    ts'.countP (Crosses cross? s') ≤ ts.countP (Crosses cross? s) := by
  induction h with
  | nil => exact Nat.zero_le _
  | cons ht _ ih =>
    rw [List.countP_cons, List.countP_cons]
    refine Nat.add_le_add ih ?_
    split_ifs with hc hc'
    · exact Nat.le_refl _
    · exact absurd (hR hs ht hc) hc'
    · exact Nat.zero_le _
    · exact Nat.le_refl _
  | cons_right _ ih => exact ih.trans (by rw [List.countP_cons]; exact Nat.le_add_right _ _)

/-- **Parts of segments** in the order of these form no more pairs. -/
theorem pairs_le {ss' ss : List (α × α)} (h : SublistForall₂ R ss' ss) : pairs cross? ss' ≤ pairs cross? ss := by
  induction h with
  | nil => exact Nat.zero_le _
  | cons hs h ih => exact Nat.add_le_add (countP_crosses_le hR hs (sublistForall₂_tail h)) ih
  | cons_right _ ih => exact ih.trans (Nat.le_add_left _ _)

/-- A pair is lost if two segments that cross, with others between them, give way to parts of them that follow each
other. -/
theorem pairs_lt (hrefl : ∀ s, R s s) {s s' t t' x : α × α} (hs : R s' s) (ht : R t' t)
    (hc : Crosses cross? s t = true) (before between after : List (α × α)) :
    pairs cross? (before ++ s' :: t' :: after) < pairs cross? (before ++ s :: x :: (between ++ t :: after)) := by
  have : Std.Refl R := ⟨hrefl⟩
  have hafter : SublistForall₂ R after after := (List.Sublist.refl after).sublistForall₂
  have hrest : SublistForall₂ R (t' :: after) (x :: (between ++ t :: after)) :=
    .cons_right (sublistForall₂_skip between (.cons ht hafter))
  induction before with
  | nil =>
    have hlost : after.countP (Crosses cross? s') < (between ++ t :: after).countP (Crosses cross? s) := by
      have hle := countP_crosses_le hR hs hafter
      rw [List.countP_append, List.countP_cons_of_pos hc]
      omega
    exact Nat.add_lt_add_of_lt_of_le hlost (pairs_le hR hrest)
  | cons b before ih =>
    have hwhole : SublistForall₂ R (before ++ s' :: t' :: after) (before ++ s :: x :: (between ++ t :: after)) :=
      sublistForall₂_append hrefl before (.cons hs hrest)
    exact Nat.add_lt_add_of_le_of_lt (countP_crosses_le hR (hrefl b) (sublistForall₂_tail hwhole)) ih

end Parts

/-! ## The segments of a line -/

theorem segments_append (before : List α) (a : α) (rest : List α) :
    segments (before ++ a :: rest) = segments (before ++ [a]) ++ segments (a :: rest) := by
  induction before with
  | nil => rfl
  | cons b before ih =>
    cases before with
    | nil => rfl
    | cons c before => exact congrArg ((b, c) :: ·) ih

variable {cross?}

theorem Loop.segments_whole (l : Loop cross?) : ∃ x between,
    segments l.whole = segments (l.before ++ [l.start]) ++ (l.start, l.next) :: x :: (between ++
      (l.last, l.finish) :: segments (l.finish :: l.after)) := by
  have hbehind : segments (l.next :: (l.between ++ l.last :: l.finish :: l.after)) =
      segments (l.next :: l.between ++ [l.last]) ++ (l.last, l.finish) :: segments (l.finish :: l.after) :=
    segments_append (l.next :: l.between) l.last (l.finish :: l.after)
  obtain ⟨x, between, hx⟩ : ∃ x between, segments (l.next :: l.between ++ [l.last]) = x :: between := by
    cases l.between <;> exact ⟨_, _, rfl⟩
  refine ⟨x, between, ?_⟩
  rw [whole, segments_append, segments_cons, hbehind, hx, List.cons_append]

theorem Loop.segments_cut (l : Loop cross?) : segments l.cut = segments (l.before ++ [l.start]) ++
    (l.start, l.point) :: (l.point, l.finish) :: segments (l.finish :: l.after) :=
  segments_append l.before l.start _

/-- Points that are repeated leave segments without length behind; no other segment changes. -/
theorem segments_dropRepeats_sublist [BEq α] [LawfulBEq α] (line : List α) :
    (segments (dropRepeats line)).Sublist (segments line) := by
  have drop : ∀ (a : α) (rest : List α),
      (segments (a :: dropRepeats.dropEqual a rest)).Sublist (segments (a :: rest)) := by
    intro a rest
    induction rest generalizing a with
    | nil => exact List.Sublist.refl _
    | cons b rest ih =>
      unfold dropRepeats.dropEqual
      split_ifs with hba
      · obtain rfl := eq_of_beq hba
        exact (ih b).cons _
      · exact (ih b).cons_cons _
  cases line with
  | nil => exact List.Sublist.refl _
  | cons a rest => exact drop a rest

end Polyline

/-! ## Exact coordinates -/

instance : LawfulBEq (Vec2 ℚ) where
  eq_of_beq {p q} h := by
    obtain ⟨hx, hy⟩ := Bool.and_eq_true_iff.1 h
    exact Vec2.eq_of_coordinates (beq_iff_eq.1 hx) (beq_iff_eq.1 hy)
  rfl {p} := Bool.and_eq_true_iff.2 ⟨beq_self_eq_true p.x, beq_self_eq_true p.y⟩

namespace Polyline

open Vec2 (Part)

/-- **Cutting a loop takes crossings away.** With exact coordinates a line has fewer crossings after its first loop is
cut off. -/
theorem crossingCount_cutFirstLoop_lt {line line' : List (Vec2 ℚ)}
    (h : cutFirstLoop Vec2.crossing? line = some line') :
    crossingCount Vec2.crossing? line' < crossingCount Vec2.crossing? line := by
  obtain ⟨l, rfl, rfl⟩ := exists_loop h
  have : Std.Refl Part := ⟨fun _ _ hp => hp⟩
  obtain ⟨hstart, hfinish⟩ := Vec2.on_of_crossing? l.crosses
  -- the crossing point lies on both segments, so what is left of each of them is a part of it
  have hfirst : Part (l.start, l.point) (l.start, l.next) := fun _ hq => hstart.before hq
  have hsecond : Part (l.point, l.finish) (l.last, l.finish) := fun _ hq => hfinish.behind hq
  have hcrosses : Crosses Vec2.crossing? (l.start, l.next) (l.last, l.finish) = true :=
    Option.isSome_of_eq_some l.crosses
  obtain ⟨x, between, hwhole⟩ := l.segments_whole
  rw [crossingCount_eq, crossingCount_eq]
  calc pairs Vec2.crossing? (segments (dropRepeats l.cut))
      ≤ pairs Vec2.crossing? (segments l.cut) :=
        pairs_le Vec2.isSome_crossing?_of_parts (segments_dropRepeats_sublist l.cut).sublistForall₂
    _ < pairs Vec2.crossing? (segments l.whole) := by
        rw [l.segments_cut, hwhole]
        exact pairs_lt Vec2.isSome_crossing?_of_parts (fun _ _ hp => hp) hfirst hsecond hcrosses _ _ _

/-- a line that comes back to its first segment, stands still there, runs back over it and crosses it again -/
theorem crossingCount_cutFirstLoop_lt_overlap : ∃ line line' : List (Vec2 ℚ),
    line = [⟨0, 0⟩, ⟨6, 0⟩, ⟨6, 3⟩, ⟨3, 0⟩, ⟨3, 0⟩, ⟨1, 0⟩, ⟨1, -2⟩, ⟨2, 1⟩] ∧
      line' = [⟨0, 0⟩, ⟨3, 0⟩, ⟨1, 0⟩, ⟨1, -2⟩, ⟨2, 1⟩] ∧ cutFirstLoop Vec2.crossing? line = some line' ∧
        crossingCount Vec2.crossing? line' < crossingCount Vec2.crossing? line := by
  refine ⟨_, _, rfl, rfl, ?cut, crossingCount_cutFirstLoop_lt ?cut⟩
  decide +kernel

end Polyline

end RoadRules
