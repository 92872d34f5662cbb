/-
Loops of a line, and what is left when one is cut off.

All of this holds whatever the crossing test answers, and however points are compared.

- `isSelfCrossing_iff`: what the search finds is that two segments cross that do not follow each other.
- `exists_loop`: what is cut off lies between two segments that cross and do not follow each other.
- `length_cutFirstLoop_lt`, `head?_cutFirstLoop`, `getLast?_cutFirstLoop`: a cut leaves fewer points, the first one and,
  up to a repetition, the last one.
- `isSelfCrossing_iterate_cutLoop`: so after as many cuts as the line has points beyond three there is no loop left.
-/
import Mathlib.Tactic
import RoadRules.Geometry.Polyline

namespace RoadRules

namespace Polyline

variable {α : Type} {cross? : α → α → α → α → Option α} {line line' : List α}

/-! ## Lines that cross themselves -/

/-- do two segments cross that do not follow each other? -/
def CrossesItself (cross? : α → α → α → α → Option α) (line : List α) : Prop :=
  ∃ i j s t, i + 2 ≤ j ∧ (segments line)[i]? = some s ∧ (segments line)[j]? = some t ∧
    (cross? s.1 s.2 t.1 t.2).isSome = true

theorem segments_cons (a b : α) (rest : List α) : segments (a :: b :: rest) = (a, b) :: segments (b :: rest) := rfl

/-- the segments after the next one -/
theorem getElem?_segments (a b : α) (rest : List α) (j : Nat) :
    (segments (a :: b :: rest))[j + 2]? = (segments rest)[j]? := by
  cases rest with
  | nil => rfl
  | cons c rest => rfl

theorem crossedBy_isSome {a b : α} {j : Nat} {line : List α} :
    (crossedBy cross? a b j line).isSome = true ↔ ∃ s ∈ segments line, (cross? a b s.1 s.2).isSome = true := by
  fun_induction crossedBy cross? a b j line with
  | case1 j c d rest p hp => simp [segments_cons, hp]
  | case2 j c d rest hp ih => simp [segments_cons, hp, ih]
  | case3 line j hline =>
    match line, hline with
    | [], _ => simp [segments]
    | [c], _ => simp [segments]
    | c :: d :: rest, hline => exact (hline c d rest rfl).elim

/-- a crossing is one of the first segment with one behind the next, or one of those behind it -/
theorem crossesItself_cons {a b : α} {rest : List α} : CrossesItself cross? (a :: b :: rest) ↔
    (∃ s ∈ segments rest, (cross? a b s.1 s.2).isSome = true) ∨ CrossesItself cross? (b :: rest) := by
  constructor
  · rintro ⟨i, j, s, t, hij, hi, hj, hc⟩
    obtain ⟨j, rfl⟩ := Nat.exists_eq_add_of_le' (Nat.le_trans (Nat.le_add_left 2 i) hij)
    cases i with
    | zero =>
      cases hi
      rw [getElem?_segments] at hj
      exact Or.inl ⟨t, List.mem_of_getElem? hj, hc⟩
    | succ i => exact Or.inr ⟨i, j + 1, s, t, by omega, hi, hj, hc⟩
  · rintro (⟨t, ht, hc⟩ | ⟨i, j, s, t, hij, hi, hj, hc⟩)
    · obtain ⟨j, hj⟩ := List.mem_iff_getElem?.1 ht
      exact ⟨0, j + 2, (a, b), t, by omega, rfl, (getElem?_segments a b rest j).trans hj, hc⟩
    · exact ⟨i + 1, j + 1, s, t, by omega, hi, hj, hc⟩

theorem firstCrossing_isSome {i : Nat} {line : List α} :
    (firstCrossing cross? i line).isSome = true ↔ CrossesItself cross? line := by
  fun_induction firstCrossing cross? i line with
  | case1 i a b rest j p hp =>
    have hfirst := crossedBy_isSome.1 (Option.isSome_of_eq_some hp)
    simp [crossesItself_cons, hfirst]
  | case2 i a b rest hnone ih =>
    have hfirst : ¬ ∃ s ∈ segments rest, (cross? a b s.1 s.2).isSome = true := fun h => by
      rw [← crossedBy_isSome (j := i + 2), hnone] at h
      cases h
    rw [ih, crossesItself_cons, or_iff_right hfirst]
  | case3 line i hline =>
    refine iff_of_false (by simp) ?_
    rintro ⟨i, j, s, t, -, hi, -⟩
    match line, hline with
    | [], _ | [_], _ => simp [segments] at hi
    | a :: b :: rest, hline => exact hline a b rest rfl

/-- **Crossings.** What the search finds is that two segments cross that do not follow each other. -/
theorem isSelfCrossing_iff {line : List α} : isSelfCrossing cross? line = true ↔ CrossesItself cross? line :=
  firstCrossing_isSome

/-! ## Where a line is cut -/

/-- a line with two segments that cross, and do not follow each other -/
structure Loop (cross? : α → α → α → α → Option α) where
  before : List α
  /-- the first segment goes from `start` to `next` -/
  start : α
  next : α
  between : List α
  /-- the second segment goes from `last` to `finish` -/
  last : α
  finish : α
  after : List α
  point : α
  crosses : cross? start next last finish = some point

namespace Loop

/-- the points of the line -/
def whole (l : Loop cross?) : List α := l.before ++ l.start :: l.next :: (l.between ++ l.last :: l.finish :: l.after)

/-- the crossing point in place of what lies between the segments -/
def cut (l : Loop cross?) : List α := l.before ++ l.start :: l.point :: l.finish :: l.after

theorem length_whole (l : Loop cross?) :
    l.whole.length = l.before.length + l.between.length + l.after.length + 4 := by
  simp only [whole, List.length_append, List.length_cons]
  omega

end Loop

theorem crossedBy_split {a b p : α} {i j : Nat} (h : crossedBy cross? a b i line = some (j, p)) :
    ∃ between c d after, line = between ++ c :: d :: after ∧ j = i + between.length ∧ cross? a b c d = some p := by
  fun_induction crossedBy cross? a b i line with
  | case1 i c d rest q hq =>
    cases h
    exact ⟨[], c, d, rest, rfl, rfl, hq⟩
  | case2 i c d rest hnone ih =>
    obtain ⟨between, c', d', after, hrest, rfl, hcross⟩ := ih h
    exact ⟨c :: between, c', d', after, by rw [hrest, List.cons_append], by rw [List.length_cons]; omega, hcross⟩
  | case3 => cases h

theorem firstCrossing_split {p : α} {first i j : Nat} (h : firstCrossing cross? first line = some (i, j, p)) :
    ∃ l : Loop cross?, line = l.whole ∧ i = first + l.before.length ∧ j = i + l.between.length + 2 ∧ p = l.point := by
  fun_induction firstCrossing cross? first line with
  | case1 first a b rest k q hq =>
    cases h
    obtain ⟨between, c, d, after, rfl, rfl, hcross⟩ := crossedBy_split hq
    exact ⟨⟨[], a, b, between, c, d, after, p, hcross⟩, rfl, rfl, Nat.add_right_comm _ _ _, rfl⟩
  | case2 first a b rest hnone ih =>
    obtain ⟨l, hline, rfl, hj, hp⟩ := ih h
    exact ⟨{ l with before := a :: l.before }, congrArg (a :: ·) hline, Nat.add_right_comm _ _ _, hj, hp⟩
  | case3 => cases h

/-- **What a cut leaves.** -/
theorem exists_loop [BEq α] (h : cutFirstLoop cross? line = some line') :
    ∃ l : Loop cross?, line = l.whole ∧ line' = dropRepeats l.cut := by
  unfold cutFirstLoop at h
  split at h
  · cases h
  · next i j p hcrossing =>
    cases h
    obtain ⟨l, rfl, rfl, rfl, rfl⟩ := firstCrossing_split hcrossing
    refine ⟨l, rfl, congrArg dropRepeats ?_⟩
    -- the first part ends with the start of the first segment, the second one starts with the end of the second one
    have htake : l.whole.take (0 + l.before.length + 1) = l.before ++ [l.start] := by
      simp [Loop.whole, List.take_append]
    have hdrop : l.whole.drop (0 + l.before.length + l.between.length + 2 + 1) = l.finish :: l.after := by
      have hlen : 0 + l.before.length + l.between.length + 2 + 1 =
          (l.before ++ l.start :: l.next :: (l.between ++ [l.last])).length := by
        simp only [List.length_append, List.length_cons, List.length_nil]
        omega
      have hline : l.whole = (l.before ++ l.start :: l.next :: (l.between ++ [l.last])) ++ l.finish :: l.after := by
        simp [Loop.whole]
      rw [hlen, hline, List.drop_left]
    rw [htake, hdrop, Loop.cut]
    simp

theorem cutFirstLoop_eq_none_iff [BEq α] : cutFirstLoop cross? line = none ↔ isSelfCrossing cross? line = false := by
  rw [isSelfCrossing, cutFirstLoop]
  cases firstCrossing cross? 0 line <;> simp

/-! ## Repetitions -/

theorem length_dropRepeats_le [BEq α] (line : List α) : (dropRepeats line).length ≤ line.length := by
  have drop : ∀ (a : α) (rest : List α), (dropRepeats.dropEqual a rest).length ≤ rest.length := by
    intro a rest
    induction rest generalizing a with
    | nil => exact Nat.le_refl _
    | cons b rest ih =>
      unfold dropRepeats.dropEqual
      split_ifs
      · exact Nat.le_succ_of_le (ih a)
      · exact Nat.succ_le_succ (ih b)
  cases line with
  | nil => exact Nat.le_refl _
  | cons a rest => exact Nat.succ_le_succ (drop a rest)

theorem head?_dropRepeats [BEq α] (line : List α) : (dropRepeats line).head? = line.head? := by
  cases line <;> rfl

/-- the last point stays, or it equals the one that comes to be the last -/
theorem getLast?_dropRepeats [BEq α] {z : α} (h : line.getLast? = some z) :
    ∃ z', (dropRepeats line).getLast? = some z' ∧ (z' = z ∨ (z == z') = true) := by
  have drop : ∀ (a : α) (rest : List α), (a :: rest).getLast? = some z →
      ∃ z', (a :: dropRepeats.dropEqual a rest).getLast? = some z' ∧ (z' = z ∨ (z == z') = true) := by
    intro a rest
    induction rest generalizing a with
    | nil => exact fun h => ⟨z, h, Or.inl rfl⟩
    | cons b rest ih =>
      intro h
      rw [List.getLast?_cons_cons] at h
      unfold dropRepeats.dropEqual
      split_ifs with hba
      · cases rest with
        | nil =>
          cases h
          exact ⟨a, rfl, Or.inr hba⟩
        | cons c rest =>
          rw [List.getLast?_cons_cons] at h
          exact ih a ((List.getLast?_cons_cons).trans h)
      · rw [List.getLast?_cons_cons]
        exact ih b h
  cases line with
  | nil => cases h
  | cons a rest => exact drop a rest h

/-! ## Cutting a loop -/

/-- **Cutting a loop.** At least two points give way to one. -/
theorem length_cutFirstLoop_lt [BEq α] (h : cutFirstLoop cross? line = some line') : line'.length < line.length := by
  obtain ⟨l, rfl, rfl⟩ := exists_loop h
  refine Nat.lt_of_le_of_lt (length_dropRepeats_le _) ?_
  rw [l.length_whole, Loop.cut]
  simp only [List.length_append, List.length_cons]
  omega

theorem head?_cutFirstLoop [BEq α] (h : cutFirstLoop cross? line = some line') : line'.head? = line.head? := by
  obtain ⟨l, rfl, rfl⟩ := exists_loop h
  have hcut : l.cut.head? = l.whole.head? := by cases hb : l.before <;> simp [Loop.cut, Loop.whole, hb]
  exact (head?_dropRepeats _).trans hcut

theorem getLast?_cutFirstLoop [BEq α] (h : cutFirstLoop cross? line = some line') :
    ∃ z z', line.getLast? = some z ∧ line'.getLast? = some z' ∧ (z' = z ∨ (z == z') = true) := by
  obtain ⟨l, rfl, rfl⟩ := exists_loop h
  have hline : l.whole.getLast? = (l.finish :: l.after).getLast? := by
    simp [Loop.whole, List.getLast?_cons, List.getLast?_append]
  have hcut : l.cut.getLast? = (l.finish :: l.after).getLast? := by
    simp [Loop.cut, List.getLast?_cons, List.getLast?_append]
  have hlast := List.getLast?_eq_some_getLast (List.cons_ne_nil l.finish l.after)
  obtain ⟨z', hz', heq⟩ := getLast?_dropRepeats (hcut.trans hlast)
  exact ⟨_, z', hline.trans hlast, hz', heq⟩

/-- a line with a loop has four points -/
theorem four_le_of_isSelfCrossing (h : isSelfCrossing cross? line = true) : 4 ≤ line.length := by
  obtain ⟨⟨i, j, p⟩, hc⟩ := Option.isSome_iff_exists.1 h
  obtain ⟨l, rfl, -⟩ := firstCrossing_split hc
  rw [l.length_whole]
  omega

/-- the line with its first loop cut off, if it has one -/
def cutLoop [BEq α] (cross? : α → α → α → α → Option α) (line : List α) : List α :=
  (cutFirstLoop cross? line).getD line

/-- **Cutting all loops.** Each cut costs a point, and a line of three points has no loop. -/
theorem isSelfCrossing_iterate_cutLoop [BEq α] (cross? : α → α → α → α → Option α) (line : List α) {k : Nat}
    (hk : line.length ≤ k + 3) : isSelfCrossing cross? ((cutLoop cross?)^[k] line) = false := by
  induction k generalizing line with
  | zero =>
    by_contra h
    have hfour := four_le_of_isSelfCrossing (Bool.not_eq_false _ ▸ h)
    simp only [Function.iterate_zero, id] at hfour
    omega
  | succ k ih =>
    rw [Function.iterate_succ_apply]
    cases hcut : cutFirstLoop cross? line with
    | none =>
      have hfixed : cutLoop cross? line = line := by rw [cutLoop, hcut, Option.getD_none]
      rw [hfixed, Function.iterate_fixed hfixed]
      exact cutFirstLoop_eq_none_iff.1 hcut
    | some line' =>
      have hshorter := length_cutFirstLoop_lt hcut
      rw [cutLoop, hcut, Option.getD_some]
      exact ih line' (by omega)

end Polyline

end RoadRules
