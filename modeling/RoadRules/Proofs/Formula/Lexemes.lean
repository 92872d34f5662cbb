/-
What is taken for a lexeme.

The rules of the grammar say which texts a lexeme is read from; these say the converse, what the text was if one has
been read. Where the text itself does not matter, its points do: a point stands only in a number, in a string, and in
front of a quantifier's body.

- `word?_spec`, `quoted?_spec`: words and strings with the texts they are read from.
- `numeral?_points`: a number takes one point if it has digits behind it, else none.
- `afterMark?_points`, `afterIn_points`, `comparison?_points` and the like: nothing else takes a point.
-/
import RoadRules.Proofs.Formula.Grammar

namespace RoadRules

namespace Grammar

open Formula

/-! ## Points -/

/-- the points in a text -/
def points (s : List Char) : Nat := s.count '.'

theorem points_append (s t : List Char) : points (s ++ t) = points s + points t := List.count_append

theorem points_cons {c : Char} (hc : c ≠ '.') (s : List Char) : points (c :: s) = points s := List.count_cons_of_ne hc

theorem points_point (s : List Char) : points ('.' :: s) = 1 + points s := List.count_cons_self.trans (Nat.add_comm _ _)

theorem points_eq_zero {p : Char → Bool} (hp : p '.' = false) {s : List Char} (h : ∀ c ∈ s, p c = true) :
    points s = 0 :=
  List.count_eq_zero.2 fun hmem => Bool.false_ne_true (hp.symm.trans (h '.' hmem))

theorem points_dropWhile {p : Char → Bool} (hp : p '.' = false) (s : List Char) :
    points (s.dropWhile p) = points s := by
  have htaken : points (s.takeWhile p) = 0 := points_eq_zero hp fun c hc => List.mem_takeWhile_imp hc
  have hsplit : points (s.takeWhile p) + points (s.dropWhile p) = points s := by
    rw [← points_append, List.takeWhile_append_dropWhile]
  omega

theorem points_skipBlank (s : List Char) : points (skipBlank s) = points s := points_dropWhile rfl s

/-! ## Lexemes -/

section Lexemes

variable {s : List Char}

theorem word?_spec {r : Read String s} (h : word? s = some r) :
    isName r.value.toList = true ∧ s = r.value.toList ++ r.rest := by
  cases s with
  | nil => cases h
  | cons c s =>
    rw [word?] at h
    split_ifs at h with hc
    cases h
    simp only [String.toList_ofList, List.cons_append, List.takeWhile_append_dropWhile, and_true]
    rw [isName, hc, Bool.true_and, List.all_eq_true]
    exact fun d hd => List.mem_takeWhile_imp hd

theorem quoted?_spec {r : Read String s} (h : quoted? s = some r) :
    '"' ∉ r.value.toList ∧ s = '"' :: (r.value.toList ++ '"' :: r.rest) := by
  unfold quoted? at h
  split at h
  · next t =>
    split at h
    · cases h
    · next c rest hdrop =>
      cases h
      have hc : c = '"' := by
        have hstop := List.head?_dropWhile_not (· != '"') t
        rw [hdrop] at hstop
        simpa using hstop
      subst hc
      have hsplit : t.takeWhile (· != '"') ++ '"' :: rest = t := by
        rw [← hdrop, List.takeWhile_append_dropWhile]
      simp only [String.toList_ofList, hsplit, and_true]
      intro hmem
      have hquote := List.mem_takeWhile_imp hmem
      exact absurd rfl (bne_iff_ne.1 hquote)
  · cases h

theorem digits?_spec {r : Read (List Char) s} (h : digits? s = some r) : r.value ≠ [] ∧ points s = points r.rest := by
  cases s with
  | nil => cases h
  | cons c s =>
    rw [digits?] at h
    split_ifs at h with hc
    cases h
    have hpoint : c ≠ '.' := by
      rintro rfl
      cases hc
    exact ⟨List.cons_ne_nil _ _, (points_cons hpoint s).trans (points_dropWhile rfl s).symm⟩

theorem fraction_points (s : List Char) :
    points s = (if (fraction s).1.isEmpty then 0 else 1) + points (fraction s).2.1 := by
  unfold fraction
  split
  · next t =>
    cases h : digits? t with
    | none => simp
    | some r =>
      obtain ⟨hne, hpoints⟩ := digits?_spec h
      simp only [points_point, hpoints, List.isEmpty_eq_false_iff.2 hne, Bool.false_eq_true, if_false]
  · simp

theorem unsigned?_points {negative : Bool} {r : Read Numeral s} (h : unsigned? negative s = some r) :
    points s = (if r.value.fraction.isEmpty then 0 else 1) + points r.rest := by
  unfold unsigned? at h
  split at h
  · cases h
  · next whole hwhole =>
    cases h
    exact (digits?_spec hwhole).2.trans (fraction_points whole.rest)

theorem numeral?_points {r : Read Numeral s} (h : numeral? s = some r) :
    points s = (if r.value.fraction.isEmpty then 0 else 1) + points r.rest := by
  unfold numeral? at h
  split at h
  · next t =>
    obtain ⟨u, hu, rfl⟩ := Option.map_eq_some_iff.1 h
    exact (points_cons (by decide) t).trans (unsigned?_points hu)
  · exact unsigned?_points h

theorem afterChar?_spec {c : Char} {r : { rest : List Char // rest.length < s.length }} (h : afterChar? c s = some r) :
    s = c :: r.1 := by
  cases s with
  | nil => cases h
  | cons d s =>
    rw [afterChar?] at h
    split_ifs at h with hd
    cases h
    rw [hd]

theorem afterMark?_spec {c : Char} {r : { rest : List Char // rest.length < s.length }} (h : afterMark? c s = some r) :
    skipBlank s = c :: r.1 := by
  obtain ⟨u, hu, rfl⟩ := Option.map_eq_some_iff.1 h
  exact afterChar?_spec hu

/-- a mark is no point, with one exception -/
theorem afterMark?_points {c : Char} (hc : c ≠ '.') {r : { rest : List Char // rest.length < s.length }}
    (h : afterMark? c s = some r) : points s = points r.1 := by
  rw [← points_skipBlank, afterMark?_spec h, points_cons hc]

theorem afterToken?_spec {token : List Char} {r : { rest : List Char // rest.length + token.length = s.length }}
    (h : afterToken? token s = some r) : s = token ++ r.1 := by
  induction token generalizing s with
  | nil =>
    cases h
    rfl
  | cons t token ih =>
    cases s with
    | nil => cases h
    | cons c s =>
      rw [afterToken?] at h
      split_ifs at h with hc
      obtain ⟨u, hu, rfl⟩ := Option.map_eq_some_iff.1 h
      rw [List.cons_append, hc]
      exact congrArg _ (ih hu)

theorem afterIff?_points {r : { rest : List Char // rest.length < s.length }} (h : afterIff? s = some r) :
    points s = points r.1 := by
  unfold afterIff? at h
  split at h
  · next t ht =>
    cases h
    calc points s = points (skipBlank s) := (points_skipBlank s).symm
      _ = points ('<' :: '-' :: '>' :: t) := congrArg points ht
      _ = points t := by rw [points_cons (by decide), points_cons (by decide), points_cons (by decide)]
  · cases h

theorem afterImplies?_points {r : { rest : List Char // rest.length < s.length }} (h : afterImplies? s = some r) :
    points s = points r.1 := by
  unfold afterImplies? at h
  split at h
  · next t ht =>
    cases h
    calc points s = points (skipBlank s) := (points_skipBlank s).symm
      _ = points ('-' :: '>' :: t) := congrArg points ht
      _ = points t := by rw [points_cons (by decide), points_cons (by decide)]
  · cases h

theorem afterOr?_points {r : { rest : List Char // rest.length < s.length }} (h : afterOr? s = some r) :
    points s = points r.1 := by
  unfold afterOr? at h
  split at h
  · cases h
  · next t _ ht =>
    cases h
    calc points s = points (skipBlank s) := (points_skipBlank s).symm
      _ = points ('|' :: t) := congrArg points ht
      _ = points t := points_cons (by decide) t
  · cases h

theorem afterNot?_points {r : { rest : List Char // rest.length < s.length }} (h : afterNot? s = some r) :
    points s = points r.1 := by
  unfold afterNot? at h
  split at h
  · cases h
  · cases h
    exact points_cons (by decide) _
  · cases h

theorem afterIn_points {r : { rest : List Char // rest.length < s.length }} (h : afterIn s = .ok r) :
    points s = points r.1 := by
  unfold afterIn at h
  split at h
  · cases h
  · next c t =>
    split_ifs at h with hc
    have hpoint : c ≠ '.' := by
      rintro rfl
      cases hc
    split at h
    · next rest hrest =>
      split_ifs at h
      cases h
      calc points (c :: t) = points (skipBlank t) := by rw [points_cons hpoint, points_skipBlank]
        _ = points ('i' :: 'n' :: rest) := congrArg points hrest
        _ = points rest := by rw [points_cons (by decide), points_cons (by decide)]
    · cases h

theorem quantifier?_points {r : Read Quantifier s} (h : quantifier? s = some r) : points s = points r.rest := by
  unfold quantifier? at h
  split at h
  · next q c t =>
    split_ifs at h with hc hq hq
    all_goals
      have hpoint : c ≠ '.' := by
        rintro rfl
        cases hc
      cases h
      rw [hq, points_cons (by decide), points_cons hpoint]
  · cases h

theorem comparison?_points {r : Read Comparison s} (h : comparison? s = some r) : points s = points r.rest := by
  unfold comparison? at h
  split at h <;> cases h <;> simp only [points_cons, ne_eq, Char.reduceEq, not_false_eq_true]

end Lexemes

end Grammar

end RoadRules
