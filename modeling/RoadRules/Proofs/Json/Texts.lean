/-
What is read from a text.

Every number that a text holds is an integer of 64 bits or a finite float, wherever in the text it stands and wherever
the text goes wrong behind it.

- `proper_numberValue`: a number token is proper, or it has no value.
- `proper_steps`: so is every value, item and member that the reader comes to, by induction on its fuel.
- `proper_read`: the tree of a text is proper.
-/
import RoadRules.Proofs.Json.Records

namespace RoadRules.Json

namespace Reader

/-! ## Numbers and words -/

/-- a number token is an integer that fits, or the nearest double unless that is infinite -/
theorem proper_numberValue (negative : Bool) (whole : List Char) (fraction : Option (List Char))
    (exponent : Option Int) : (numberValue negative whole fraction exponent).Proper := by
  obtain ⟨n, hn⟩ : ∃ n, n = ofDigits whole := ⟨_, rfl⟩
  obtain ⟨size, hsize⟩ : ∃ size, size = Number.ofDecimal (ofDigits (whole ++ fraction.getD []))
    (exponent.getD 0 - ((fraction.getD []).length : Int)) := ⟨_, rfl⟩
  have hnumber : size.isNaN = false := hsize ▸ Number.isNaN_ofDecimal _ _
  have hmin : Int64.minValue.toInt.natAbs = 2 ^ 63 := by decide
  have hmax : UInt64.size = 2 ^ 64 := rfl
  unfold numberValue
  simp only [← hn, ← hsize, hmin, hmax]
  split_ifs with hsign hint hinfinite hint hinfinite
  · simp only [Bool.and_eq_true, decide_eq_true_eq] at hint
    exact .int (by omega) (by omega)
  · exact .unusable _
  · exact .float (Number.isFinite_neg (Number.isFinite_of_number hnumber (Bool.eq_false_iff.2 hinfinite)))
  · simp only [Bool.and_eq_true, decide_eq_true_eq] at hint
    exact .int (by omega) (by omega)
  · exact .unusable _
  · exact .float (Number.isFinite_of_number hnumber (Bool.eq_false_iff.2 hinfinite))

theorem proper_unsigned {negative : Bool} {s rest : List Char} {v : Draft} (h : unsigned negative s = .ok (v, rest)) :
    v.Proper := by
  unfold unsigned at h
  cases hwhole : wholePart s with
  | error why => simp [hwhole, bind, Except.bind] at h
  | ok whole =>
    cases hfraction : fractionPart whole.2 with
    | error why => simp [hwhole, hfraction, bind, Except.bind] at h
    | ok fraction =>
      cases hexponent : exponentPart fraction.2 with
      | error why => simp [hwhole, hfraction, hexponent, bind, Except.bind] at h
      | ok exponent =>
        simp only [hwhole, hfraction, hexponent, bind, Except.bind, pure, Except.pure, Except.ok.injEq,
          Prod.mk.injEq] at h
        exact h.1 ▸ proper_numberValue _ _ _ _

theorem proper_scalar {s rest : List Char} {v : Draft} (h : scalar s = .ok (v, rest)) : v.Proper := by
  have number : ∀ {negative : Bool} {t : List Char},
      ((unsigned negative t).mapError fun why => Flaw.ofValue why .malformed) = .ok (v, rest) → v.Proper := by
    intro negative t h
    cases hnumber : unsigned negative t with
    | error why => simp [hnumber, Except.mapError] at h
    | ok r =>
      obtain ⟨w, r⟩ := r
      simp only [hnumber, Except.mapError, Except.ok.injEq, Prod.mk.injEq] at h
      exact h.1 ▸ proper_unsigned hnumber
  unfold scalar at h
  dsimp only at h
  split at h
  · cases h
  · split at h <;> cases h
    exact .null
  · split at h <;> cases h
    exact .bool true
  · split at h <;> cases h
    exact .bool false
  · next t =>
    cases hstring : string t with
    | error why => simp [hstring, Except.map] at h
    | ok r =>
      obtain ⟨text | why, r⟩ := r
      · simp only [hstring, Except.map, Except.ok.injEq, Prod.mk.injEq] at h
        exact h.1 ▸ .unusable _
      · simp only [hstring, Except.map, Except.ok.injEq, Prod.mk.injEq] at h
        exact h.1 ▸ .str _
  · exact number h
  · split_ifs at h
    exact number h

/-! ## Values -/

/-- what the reader comes to with some fuel is proper -/
structure Steps (fuel : Nat) : Prop where
  value : ∀ s, (value fuel s).1.Proper
  firstItem : ∀ s, ∀ t ∈ (firstItem fuel s).1, t.Proper
  item : ∀ s, ∀ t ∈ (item fuel s).1, t.Proper
  moreItems : ∀ s, ∀ t ∈ (moreItems fuel s).1, t.Proper
  firstMember : ∀ s, ∀ m ∈ (firstMember fuel s).1, m.2.Proper
  member : ∀ s, ∀ m ∈ (member fuel s).1, m.2.Proper
  moreMembers : ∀ s, ∀ m ∈ (moreMembers fuel s).1, m.2.Proper

theorem proper_steps (fuel : Nat) : Steps fuel := by
  induction fuel with
  | zero =>
    exact ⟨fun _ => .broken _, fun _ => List.forall_mem_nil _, fun _ => List.forall_mem_nil _,
      fun _ => List.forall_mem_nil _, fun _ => List.forall_mem_nil _, fun _ => List.forall_mem_nil _,
      fun _ => List.forall_mem_nil _⟩
  | succ fuel ih =>
    -- each function of the reader hands less fuel on to the others
    constructor <;> intro s
    case value =>
      unfold value
      split
      · next t _ =>
        have hitems := ih.firstItem t
        generalize firstItem fuel t = r at hitems ⊢
        obtain ⟨items, rest | why⟩ := r
        · exact .arr hitems none
        · exact .arr hitems why
      · next t _ =>
        have hmembers := ih.firstMember t
        generalize firstMember fuel t = r at hmembers ⊢
        obtain ⟨members, rest | why⟩ := r
        · exact .obj hmembers none
        · exact .obj hmembers why
      · split
        · next hscalar => exact proper_scalar hscalar
        · exact .broken _
    case firstItem =>
      unfold firstItem
      split
      · exact List.forall_mem_nil _
      · exact List.forall_mem_nil _
      · exact ih.item _
    case item =>
      unfold item
      have hv := ih.value s
      generalize value fuel s = r at hv ⊢
      obtain ⟨v, none | rest⟩ := r
      · exact List.forall_mem_singleton.2 hv
      · exact List.forall_mem_cons.2 ⟨hv, ih.moreItems rest⟩
    case moreItems =>
      unfold moreItems
      split
      · exact List.forall_mem_nil _
      · exact List.forall_mem_nil _
      · split
        · exact List.forall_mem_nil _
        · exact ih.item _
      · exact List.forall_mem_nil _
    case firstMember =>
      unfold firstMember
      split
      · exact List.forall_mem_nil _
      · exact List.forall_mem_nil _
      · exact ih.member _
      · exact List.forall_mem_nil _
    case member =>
      unfold member
      split
      · exact List.forall_mem_singleton.2 (.broken _)
      · split
        · exact List.forall_mem_singleton.2 (.broken _)
        · next t _ =>
          have hv := ih.value t
          generalize value fuel t = r at hv ⊢
          obtain ⟨v, none | rest⟩ := r
          · exact List.forall_mem_singleton.2 hv
          · exact List.forall_mem_cons.2 ⟨hv, ih.moreMembers rest⟩
        · exact List.forall_mem_singleton.2 (.broken _)
    case moreMembers =>
      unfold moreMembers
      split
      · exact List.forall_mem_nil _
      · exact List.forall_mem_nil _
      · split
        · exact List.forall_mem_nil _
        · exact ih.member _
        · exact List.forall_mem_nil _
      · exact List.forall_mem_nil _

end Reader

/-- **Texts.** Whatever is read from a text is proper. -/
theorem proper_read (text : String) : (read text).tree.Proper := by
  have h := (Reader.proper_steps (3 * text.toList.length + 3)).value text.toList
  unfold read
  dsimp only
  generalize Reader.value (3 * text.toList.length + 3) text.toList = r at h ⊢
  obtain ⟨tree, none | rest⟩ := r
  · exact h
  · exact h

end RoadRules.Json
