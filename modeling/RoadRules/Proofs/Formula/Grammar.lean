/-
Rules of the grammar.

What a form reads off the front of a text, stated rule by rule: `Reads r a rest` says that a reading has come to the
value `a` in front of `rest`. The rules for the lexemes come first, then those for terms, operands and bodies, each with
what has to stand behind it so that nothing more is taken (`EndsTerm`, `EndsOperand`, `EndsBody`).

- `reads_str`, `reads_numeral`, `reads_word`, `reads_call`: terms.
- `reads_negation`, `reads_quantified`, `reads_parenthesized`, `reads_compared`, `reads_predicate`: operands, with the
  alternatives that are tried in vain before.
- `reads_body`, `reads_connected`: bodies of one operand, and of two with a connective between them.
- `reads_formula`, `reads_subformula`: declarations, whose items have commas between them.
-/
import Mathlib
import RoadRules.Formula.Parser
import RoadRules.Formula.Printer

namespace RoadRules.Grammar

open Formula

/-! ## Readings -/

/-- the reading has come to a value, with a rest behind it -/
def Reads {α : Type} {s : List Char} (r : Reading α s) (a : α) (rest : List Char) : Prop := ∃ h, r = .ok ⟨a, rest, h⟩

/-- the same where the form may have been complete before -/
def Continues {α : Type} {s : List Char} (r : Continued α s) (a : α) (rest : List Char) : Prop :=
  ∃ h, r = .ok (a, ⟨rest, h⟩)

/-- the reading has come to nothing, so another alternative is tried -/
def Fails {α : Type} {s : List Char} (r : Reading α s) : Prop := ∃ place, r = .error (.mismatch place)

theorem Reads.orElse {α : Type} {s : List Char} {first : Reading α s} {a : α} {rest : List Char}
    (h : Reads first a rest) (second : Unit → Reading α s) : Reads (first.orElse second) a rest := by
  obtain ⟨lt, rfl⟩ := h
  exact ⟨lt, rfl⟩

theorem Fails.orElse {α : Type} {s : List Char} {first : Reading α s} {second : Unit → Reading α s} {a : α}
    {rest : List Char} (h : Fails first) (h' : Reads (second ()) a rest) : Reads (first.orElse second) a rest := by
  obtain ⟨place, rfl⟩ := h
  exact h'

/-! ## Lexemes -/

theorem skipBlank_cons {c : Char} (h : isBlank c = false) (s : List Char) : skipBlank (c :: s) = c :: s := by
  rw [skipBlank, List.dropWhile_cons_of_neg (by simp [h])]

theorem skipBlank_cons_blank {c : Char} (h : isBlank c = true) (s : List Char) : skipBlank (c :: s) = skipBlank s := by
  rw [skipBlank, skipBlank, List.dropWhile_cons_of_pos h]

theorem skipBlank_space (s : List Char) : skipBlank (' ' :: s) = skipBlank s := skipBlank_cons_blank rfl s

/-- a run of characters that is not carried on behind it is taken as a whole -/
theorem span_append {p : Char → Bool} {w rest : List Char} (hw : ∀ c ∈ w, p c = true)
    (hrest : ∀ c ∈ rest.head?, p c = false) : (w ++ rest).takeWhile p = w ∧ (w ++ rest).dropWhile p = rest := by
  have hnone : rest.takeWhile p = [] ∧ rest.dropWhile p = rest := by
    cases rest with
    | nil => exact ⟨rfl, rfl⟩
    | cons c rest =>
      have hc := hrest c rfl
      exact ⟨List.takeWhile_cons_of_neg (by simp [hc]), List.dropWhile_cons_of_neg (by simp [hc])⟩
  rw [List.takeWhile_append_of_pos hw, List.dropWhile_append_of_pos hw, hnone.1, hnone.2, List.append_nil]
  exact ⟨rfl, rfl⟩

/-- a word as the grammar has it -/
def isName : List Char → Bool
  | [] => false
  | c :: w => isWordStart c && w.all isWordPart

theorem isDigit_of_isWordStart {c : Char} (h : isWordStart c = true) : c.isDigit = false := by
  by_contra hd
  simp only [Bool.not_eq_false, Char.isDigit, isWordStart, Char.isAlpha, Char.isUpper, Char.isLower, Bool.or_eq_true,
    Bool.and_eq_true, decide_eq_true_eq, beq_iff_eq, UInt32.le_iff_toNat_le] at h hd
  rcases h with (h | h) | rfl
  · simp at h hd
    omega
  · simp at h hd
    omega
  · exact absurd hd (by decide)

theorem isBlank_of_isWordPart {c : Char} (h : isWordPart c = true) : isBlank c = false := by
  by_contra hb
  simp only [Bool.not_eq_false, isBlank, Bool.or_eq_true, beq_iff_eq] at hb
  rcases hb with ((rfl | rfl) | rfl) | rfl <;> exact absurd h (by decide)

theorem not_isWordPart_of_isBlank {c : Char} (h : isBlank c = true) : isWordPart c = false := by
  by_contra hp
  rw [isBlank_of_isWordPart (by simpa using hp)] at h
  cases h

theorem isWordPart_of_isWordStart {c : Char} (h : isWordStart c = true) : isWordPart c = true := by
  simp only [isWordStart, isWordPart, Char.isAlphanum, Bool.or_eq_true] at h ⊢
  tauto

theorem word?_append {w rest : List Char} (hw : isName w = true) (hrest : ∀ c ∈ rest.head?, isWordPart c = false) :
    ∃ h, word? (w ++ rest) = some ⟨String.ofList w, rest, h⟩ := by
  cases w with
  | nil => cases hw
  | cons c w =>
    obtain ⟨hc, hall⟩ := Bool.and_eq_true_iff.1 hw
    obtain ⟨htake, hdrop⟩ := span_append (List.all_eq_true.1 hall) hrest
    refine ⟨by simp, ?_⟩
    simp only [List.cons_append, word?, if_pos hc, htake, hdrop]

theorem word?_eq_none {s : List Char} (h : ∀ c ∈ s.head?, isWordStart c = false) : word? s = none := by
  cases s with
  | nil => rfl
  | cons c s => rw [word?, if_neg (by simp [h c rfl])]

theorem exists_of_map_val {α : Type} {P : α → Prop} {o : Option { a // P a }} {a : α} (h : o.map (·.1) = some a) :
    ∃ ha, o = some ⟨a, ha⟩ := by
  obtain ⟨⟨b, hb⟩, ho, rfl⟩ := Option.map_eq_some_iff.1 h
  exact ⟨hb, ho⟩

theorem afterChar?_cons (c : Char) (s : List Char) : afterChar? c (c :: s) = some ⟨s, lt_length_succ s⟩ := if_pos rfl

theorem afterChar?_eq_none {c : Char} {s : List Char} (h : ∀ d ∈ s.head?, d ≠ c) : afterChar? c s = none := by
  cases s with
  | nil => rfl
  | cons d s => exact if_neg (h d rfl).symm

theorem val_afterMark? (c : Char) (s : List Char) :
    (afterMark? c s).map (·.1) = (afterChar? c (skipBlank s)).map (·.1) := by
  rw [afterMark?, Option.map_map]
  rfl

theorem afterMark?_eq_some {c : Char} {s rest : List Char} (h : skipBlank s = c :: rest) :
    ∃ lt, afterMark? c s = some ⟨rest, lt⟩ :=
  exists_of_map_val (by rw [val_afterMark?, h, afterChar?_cons]; rfl)

theorem afterMark?_eq_none {c : Char} {s : List Char} (h : ∀ d ∈ (skipBlank s).head?, d ≠ c) :
    afterMark? c s = none := by
  rw [afterMark?, afterChar?_eq_none h]
  rfl

theorem afterIff?_eq_some {s rest : List Char} (h : skipBlank s = '<' :: '-' :: '>' :: rest) :
    ∃ lt, afterIff? s = some ⟨rest, lt⟩ := by
  suffices h : (afterIff? s).map (·.1) = some rest from exists_of_map_val h
  rw [afterIff?]
  split
  · next r hr =>
    rw [h] at hr
    cases hr
    rfl
  · next hno => exact absurd h (hno rest)

theorem afterImplies?_eq_some {s rest : List Char} (h : skipBlank s = '-' :: '>' :: rest) :
    ∃ lt, afterImplies? s = some ⟨rest, lt⟩ := by
  suffices h : (afterImplies? s).map (·.1) = some rest from exists_of_map_val h
  rw [afterImplies?]
  split
  · next r hr =>
    rw [h] at hr
    cases hr
    rfl
  · next hno => exact absurd h (hno rest)

theorem afterOr?_eq_some {s rest : List Char} (h : skipBlank s = '|' :: rest) (hrest : ∀ c ∈ rest.head?, c ≠ '|') :
    ∃ lt, afterOr? s = some ⟨rest, lt⟩ := by
  suffices h : (afterOr? s).map (·.1) = some rest from exists_of_map_val h
  rw [afterOr?]
  split
  · next r hr =>
    rw [h] at hr
    cases hr
    exact absurd rfl (hrest '|' rfl)
  · next r hr =>
    rw [h] at hr
    cases hr
    rfl
  · next hno => exact absurd h (hno _)

theorem afterIff?_eq_none {s : List Char} (h : ∀ c ∈ (skipBlank s).head?, c ≠ '<') : afterIff? s = none := by
  rw [afterIff?]
  split
  · next r hr =>
    rw [hr] at h
    exact absurd rfl (h '<' rfl)
  · rfl

theorem afterImplies?_eq_none {s : List Char} (h : ∀ c ∈ (skipBlank s).head?, c ≠ '-') : afterImplies? s = none := by
  rw [afterImplies?]
  split
  · next r hr =>
    rw [hr] at h
    exact absurd rfl (h '-' rfl)
  · rfl

theorem afterOr?_eq_none {s : List Char} (h : ∀ c ∈ (skipBlank s).head?, c ≠ '|') : afterOr? s = none := by
  rw [afterOr?]
  split
  · rfl
  · next r hr =>
    rw [hr] at h
    exact absurd rfl (h '|' rfl)
  · rfl

/-- two bars are no disjunction -/
theorem afterOr?_bars {s rest : List Char} (h : skipBlank s = '|' :: '|' :: rest) : afterOr? s = none := by
  rw [afterOr?]
  split
  · rfl
  · next hno hr =>
    rw [h] at hr
    cases hr
    exact absurd rfl (hno rest)
  · rfl

theorem afterIn_cons {c : Char} {s rest : List Char} (hc : isBlank c = true) (hs : skipBlank s = 'i' :: 'n' :: rest)
    (h : ∀ c ∈ rest.head?, isWordPart c = false) : ∃ lt, afterIn (c :: s) = .ok ⟨rest, lt⟩ := by
  have hno : ((rest.head?.map isWordPart).getD false) = false := by
    cases hr : rest.head? with
    | none => rfl
    | some c => exact h c hr
  have hle := skipBlank_length_le s
  rw [hs] at hle
  refine ⟨by simp only [List.length_cons] at hle ⊢; omega, ?_⟩
  rw [afterIn, if_pos hc]
  split
  · next r hr =>
    rw [hs] at hr
    cases hr
    rw [if_neg (by simp [hno])]
  · next hother => exact absurd hs (hother rest)

/-! ## Numbers and strings -/

theorem digits?_append {w rest : List Char} (hne : w ≠ []) (hw : ∀ c ∈ w, c.isDigit = true)
    (hrest : ∀ c ∈ rest.head?, c.isDigit = false) : ∃ lt, digits? (w ++ rest) = some ⟨w, rest, lt⟩ := by
  cases w with
  | nil => exact absurd rfl hne
  | cons c w =>
    obtain ⟨hc, hall⟩ := List.forall_mem_cons.1 hw
    obtain ⟨htake, hdrop⟩ := span_append hall hrest
    refine ⟨by simp, ?_⟩
    simp only [List.cons_append, digits?, if_pos hc, htake, hdrop]

theorem digits?_eq_none {s : List Char} (h : ∀ c ∈ s.head?, c.isDigit = false) : digits? s = none := by
  cases s with
  | nil => rfl
  | cons c s => rw [digits?, if_neg (by simp [h c rfl])]

theorem fraction_append {w rest : List Char} (hne : w ≠ []) (hw : ∀ c ∈ w, c.isDigit = true)
    (hrest : ∀ c ∈ rest.head?, c.isDigit = false) : ∃ le, fraction ('.' :: (w ++ rest)) = (w, ⟨rest, le⟩) := by
  obtain ⟨lt, hd⟩ := digits?_append hne hw hrest
  exact ⟨Nat.le_of_lt (Nat.lt_succ_of_lt lt), by simp only [fraction, hd]⟩

/-- a point that no digit follows is no part of a number -/
theorem fraction_eq_nil {s : List Char} (h : ∀ t, s = '.' :: t → ∀ c ∈ t.head?, c.isDigit = false) :
    fraction s = ([], ⟨s, Nat.le_refl _⟩) := by
  unfold fraction
  split
  · next t =>
    rw [digits?_eq_none (h t rfl)]
  · rfl

namespace Numeral

/-- the digits of a numeral as written -/
def digits (n : Numeral) : List Char := n.whole ++ if n.fraction.isEmpty then [] else '.' :: n.fraction

/-- a numeral as written -/
def chars (n : Numeral) : List Char := if n.negative then '-' :: n.digits else n.digits

/-- digits in front of the point, and only digits behind it -/
structure Proper (n : Numeral) : Prop where
  nonempty : n.whole ≠ []
  whole : ∀ c ∈ n.whole, c.isDigit = true
  fraction : ∀ c ∈ n.fraction, c.isDigit = true

end Numeral

theorem numeral?_eq_unsigned? {s : List Char} (h : ∀ c ∈ s.head?, c ≠ '-') : numeral? s = unsigned? false s := by
  unfold numeral?
  split
  · next t => exact absurd rfl (h '-' rfl)
  · rfl

section Numerals

variable {n : Numeral} (hn : n.Proper) {rest : List Char} (hdigit : ∀ c ∈ rest.head?, c.isDigit = false)
  (hpoint : ∀ t, rest = '.' :: t → ∀ c ∈ t.head?, c.isDigit = false)

include hn hdigit hpoint

theorem unsigned?_append : ∃ lt, unsigned? n.negative (n.digits ++ rest) = some ⟨n, rest, lt⟩ := by
  obtain ⟨negative, whole, digits⟩ := n
  obtain ⟨hne, hwhole, hdigits⟩ := hn
  cases digits with
  | nil =>
    -- the whole digits are all there is, and no point follows
    rw [Numeral.digits, List.isEmpty_nil, if_pos rfl, List.append_nil]
    obtain ⟨lt, hd⟩ := digits?_append hne hwhole hdigit
    exact ⟨lt, by simp only [unsigned?, hd, fraction_eq_nil hpoint]⟩
  | cons d digits =>
    rw [Numeral.digits, List.isEmpty_cons, if_neg Bool.false_ne_true, List.append_assoc, List.cons_append]
    have hstop : ∀ c ∈ ('.' :: (d :: digits ++ rest)).head?, c.isDigit = false := by
      rintro c ⟨⟩
      decide
    obtain ⟨lt, hd⟩ := digits?_append hne hwhole hstop
    obtain ⟨le, hf⟩ := fraction_append (List.cons_ne_nil d digits) hdigits hdigit
    exact ⟨Nat.lt_of_le_of_lt le lt, by simp only [unsigned?, hd, hf]⟩

theorem numeral?_append : ∃ lt, numeral? (n.chars ++ rest) = some ⟨n, rest, lt⟩ := by
  have hu := unsigned?_append hn hdigit hpoint
  rw [Numeral.chars]
  cases hneg : n.negative with
  | true =>
    rw [if_pos rfl, List.cons_append]
    rw [hneg] at hu
    obtain ⟨lt, hu⟩ := hu
    exact ⟨Nat.lt_succ_of_lt lt, by rw [numeral?, hu]; rfl⟩
  | false =>
    rw [if_neg Bool.false_ne_true]
    rw [hneg] at hu
    obtain ⟨c, whole, hwhole⟩ := List.exists_cons_of_ne_nil hn.nonempty
    have hc : c ≠ '-' := by
      rintro rfl
      exact absurd (hn.whole '-' (hwhole ▸ List.mem_cons_self)) (by decide)
    rw [Numeral.digits, hwhole, List.cons_append, List.cons_append] at hu ⊢
    obtain ⟨lt, hu⟩ := hu
    exact ⟨lt, by rw [numeral?_eq_unsigned? (by simpa using hc), hu]⟩

end Numerals

theorem numeral?_eq_none {s : List Char} (h : ∀ c ∈ s.head?, c ≠ '-' ∧ c.isDigit = false) : numeral? s = none := by
  rw [numeral?_eq_unsigned? fun c hc => (h c hc).1, unsigned?, digits?_eq_none fun c hc => (h c hc).2]

theorem quoted?_cons {w : List Char} (hw : '"' ∉ w) (rest : List Char) :
    ∃ lt, quoted? ('"' :: (w ++ '"' :: rest)) = some ⟨String.ofList w, rest, lt⟩ := by
  have hall : ∀ c ∈ w, (c != '"') = true := fun c hc => bne_iff_ne.2 fun heq => hw (heq ▸ hc)
  have hstop : ∀ c ∈ ('"' :: rest).head?, (c != '"') = false := by simp
  obtain ⟨htake, hdrop⟩ := span_append hall hstop
  refine ⟨by simp; omega, ?_⟩
  simp only [quoted?]
  split
  · next h =>
    rw [hdrop] at h
    cases h
  · next r h =>
    rw [hdrop] at h
    cases h
    simp only [htake]

theorem quoted?_eq_none {s : List Char} (h : ∀ c ∈ s.head?, c ≠ '"') : quoted? s = none := by
  unfold quoted?
  split
  · next t => exact absurd rfl (h '"' rfl)
  · rfl

/-! ## Terms -/

/-- what stands behind a term is no part of it -/
structure EndsTerm (rest : List Char) : Prop where
  word : ∀ c ∈ rest.head?, isWordPart c = false
  point : ∀ t, rest = '.' :: t → ∀ c ∈ t.head?, c.isDigit = false
  call : ∀ c ∈ (skipBlank rest).head?, c ≠ '('

theorem EndsTerm.digit {rest : List Char} (h : EndsTerm rest) : ∀ c ∈ rest.head?, c.isDigit = false := by
  intro c hc
  have hword := h.word c hc
  simp only [isWordPart, Char.isAlphanum, Bool.or_eq_false_iff] at hword
  exact hword.1.2

section Terms

variable {s rest : List Char}

theorem reads_str {w : List Char} (hw : '"' ∉ w) (hs : skipBlank s = '"' :: (w ++ '"' :: rest)) :
    Reads (term s) (.str (String.ofList w)) rest := by
  have hq : ∃ lt, quoted? (skipBlank s) = some ⟨String.ofList w, rest, lt⟩ := hs ▸ quoted?_cons hw rest
  obtain ⟨lt, hq⟩ := hq
  refine ⟨Nat.lt_of_lt_of_le lt (skipBlank_length_le s), ?_⟩
  rw [term]
  simp only [hq]
  rfl

theorem reads_numeral {n : Numeral} (hn : n.Proper) {t : Term} (ht : n.term? = some t) (hrest : EndsTerm rest)
    (hs : skipBlank s = n.chars ++ rest) : Reads (term s) t rest := by
  have hnum : ∃ lt, numeral? (skipBlank s) = some ⟨n, rest, lt⟩ := hs ▸ numeral?_append hn hrest.digit hrest.point
  have hq : quoted? (skipBlank s) = none := by
    rw [hs]
    refine quoted?_eq_none fun c hc => ?_
    obtain ⟨d, whole, hwhole⟩ := List.exists_cons_of_ne_nil hn.nonempty
    have hd : d.isDigit = true := hn.whole d (hwhole ▸ List.mem_cons_self)
    rw [Numeral.chars, Numeral.digits, hwhole] at hc
    split_ifs at hc <;> cases hc
    all_goals first | decide | (rintro rfl; exact absurd hd (by decide))
  obtain ⟨lt, hnum⟩ := hnum
  refine ⟨Nat.lt_of_lt_of_le lt (skipBlank_length_le s), ?_⟩
  rw [term]
  simp only [hq, hnum, ht]

theorem not_number_of_name {w : List Char} (hw : isName w = true) (rest : List Char) :
    quoted? (w ++ rest) = none ∧ numeral? (w ++ rest) = none := by
  cases w with
  | nil => cases hw
  | cons c w =>
    have hc : isWordStart c = true := (Bool.and_eq_true_iff.1 hw).1
    have ne : ∀ d, isWordStart d = false → c ≠ d := by
      rintro d hd rfl
      rw [hc] at hd
      cases hd
    refine ⟨quoted?_eq_none ?_, numeral?_eq_none ?_⟩
    · rintro d ⟨⟩
      exact ne _ (by decide)
    · rintro d ⟨⟩
      exact ⟨ne _ (by decide), isDigit_of_isWordStart hc⟩

/-- a name that no parenthesis follows is a truth value or a variable -/
theorem reads_word {w : List Char} (hw : isName w = true) (hrest : EndsTerm rest) (hs : skipBlank s = w ++ rest) :
    Reads (term s) (wordTerm (String.ofList w)) rest := by
  obtain ⟨hq, hn⟩ := not_number_of_name hw rest
  rw [← hs] at hq hn
  have hword : ∃ lt, word? (skipBlank s) = some ⟨String.ofList w, rest, lt⟩ := hs ▸ word?_append hw hrest.word
  obtain ⟨lt, hword⟩ := hword
  have hargs : arguments? rest = .ok none := by
    rw [arguments?, afterMark?_eq_none hrest.call]
  refine ⟨Nat.lt_of_lt_of_le lt (skipBlank_length_le s), ?_⟩
  rw [term]
  simp only [hq, hn, hword, hargs]

/-- a name with arguments in parentheses is a call -/
theorem reads_call {w next inside after : List Char} {args : List Term} (hw : isName w = true)
    (hs : skipBlank s = w ++ next) (hnext : ∀ c ∈ next.head?, isWordPart c = false)
    (hopen : skipBlank next = '(' :: inside) (hargs : Continues (terms inside) args after)
    (hafter : skipBlank after = ')' :: rest) : Reads (term s) (.call (String.ofList w) args) rest := by
  obtain ⟨hq, hn⟩ := not_number_of_name hw next
  rw [← hs] at hq hn
  have hword : ∃ lt, word? (skipBlank s) = some ⟨String.ofList w, next, lt⟩ := hs ▸ word?_append hw hnext
  obtain ⟨lt, hword⟩ := hword
  obtain ⟨le, hargs⟩ := hargs
  obtain ⟨ltOpen, hopen⟩ := afterMark?_eq_some hopen
  obtain ⟨ltClose, hclose⟩ := afterMark?_eq_some hafter
  have hcall : ∃ lt, arguments? next = .ok (some ⟨args, rest, lt⟩) := by
    refine ⟨by omega, ?_⟩
    rw [arguments?]
    simp only [hopen, hargs, hclose]
  obtain ⟨ltCall, hcall⟩ := hcall
  refine ⟨Nat.lt_trans ltCall (Nat.lt_of_lt_of_le lt (skipBlank_length_le s)), ?_⟩
  rw [term]
  simp only [hq, hn, hword, hcall]

/-! ## Lists of terms -/

theorem continues_terms_nil (h : ∀ c ∈ (skipBlank s).head?, c = ')') : Continues (terms s) [] s := by
  have hq : quoted? (skipBlank s) = none := quoted?_eq_none fun c hc => by rw [h c hc]; decide
  have hn : numeral? (skipBlank s) = none := numeral?_eq_none fun c hc => by rw [h c hc]; decide
  have hw : word? (skipBlank s) = none := word?_eq_none fun c hc => by rw [h c hc]; decide
  have hterm : term s = .error (.mismatch (skipBlank s)) := by
    rw [term]
    simp only [hq, hn, hw]
  refine ⟨Nat.le_refl _, ?_⟩
  rw [terms, hterm]

theorem continues_terms_cons {t : Term} {ts : List Term} {next : List Char} (ht : Reads (term s) t next)
    (hts : Continues (moreTerms next) ts rest) : Continues (terms s) (t :: ts) rest := by
  obtain ⟨lt, ht⟩ := ht
  obtain ⟨le, hts⟩ := hts
  refine ⟨by omega, ?_⟩
  rw [terms, ht]
  simp only [hts]

theorem continues_moreTerms_nil (h : ∀ c ∈ (skipBlank s).head?, c ≠ ',') : Continues (moreTerms s) [] s := by
  refine ⟨Nat.le_refl _, ?_⟩
  rw [moreTerms, afterMark?_eq_none h]

theorem continues_moreTerms_cons {t : Term} {ts : List Term} {item next : List Char} (hs : skipBlank s = ',' :: item)
    (ht : Reads (term item) t next) (hts : Continues (moreTerms next) ts rest) :
    Continues (moreTerms s) (t :: ts) rest := by
  obtain ⟨ltMark, hmark⟩ := afterMark?_eq_some hs
  obtain ⟨lt, ht⟩ := ht
  obtain ⟨le, hts⟩ := hts
  refine ⟨by omega, ?_⟩
  rw [moreTerms]
  simp only [hmark, ht, hts]

end Terms

/-! ## Operands -/

/-- what stands behind an operand is no part of it, nor compares it -/
structure EndsOperand (rest : List Char) : Prop extends EndsTerm rest where
  comparison : comparison? (skipBlank rest) = none

section Operands

variable {s rest : List Char}

theorem reads_unary {b : Body} (h : Reads (operand (skipBlank s)) b rest) : Reads (unary s) b rest := by
  obtain ⟨lt, h⟩ := h
  refine ⟨Nat.lt_of_lt_of_le lt (skipBlank_length_le s), ?_⟩
  rw [unary, h]
  rfl

theorem fails_negation (h : ∀ c ∈ s.head?, c ≠ '!') : Fails (negation s) := by
  have hnot : afterNot? s = none := by
    unfold afterNot?
    split
    · rfl
    · next r => exact absurd rfl (h '!' rfl)
    · rfl
  exact ⟨s, by rw [negation, hnot]⟩

/-- text starts with a quantifier only if a variable stands behind a letter and a blank -/
theorem fails_quantified (h : ∀ q c r, s = q :: c :: r → isBlank c = true → q = 'A' ∨ q = 'E' →
    ∀ d ∈ (skipBlank r).head?, isWordStart d = false) : Fails (quantified s) := by
  have hhead : head s = .error (.mismatch s) := by
    unfold head quantifier?
    match s, h with
    | [], _ | [_], _ => rfl
    | q :: c :: r, h =>
      dsimp only
      split_ifs with hblank hevery hsome
      · simp only [word?_eq_none (h q c r rfl hblank (Or.inl hevery))]
      · simp only [word?_eq_none (h q c r rfl hblank (Or.inr hsome))]
      · rfl
      · rfl
  exact ⟨s, by rw [quantified, hhead]⟩

theorem fails_parenthesized (h : ∀ c ∈ s.head?, c ≠ '(') : Fails (parenthesized s) :=
  ⟨s, by rw [parenthesized, afterChar?_eq_none h]⟩

theorem reads_negation {b : Body} {next : List Char} (hs : s = '!' :: next) (hnext : ∀ c ∈ next.head?, c ≠ '=')
    (hb : Reads (unary next) b rest) : Reads (operand s) (.not b) rest := by
  subst hs
  have hnot : afterNot? ('!' :: next) = some ⟨next, lt_length_succ next⟩ := by
    rw [afterNot?]
    rintro r rfl
    exact hnext '=' rfl rfl
  obtain ⟨lt, hb⟩ := hb
  have h : Reads (negation ('!' :: next)) (.not b) rest := by
    refine ⟨Nat.lt_succ_of_lt lt, ?_⟩
    rw [negation, hnot]
    simp only [hb]
  rw [operand]
  exact h.orElse _

theorem reads_parenthesized {b : Body} {inside after : List Char} (hs : s = '(' :: inside)
    (hb : Reads (body inside) b after) (hafter : skipBlank after = ')' :: rest) : Reads (operand s) b rest := by
  subst hs
  have h : Reads (parenthesized ('(' :: inside)) b rest := by
    obtain ⟨lt, hb⟩ := hb
    obtain ⟨ltClose, hclose⟩ := afterMark?_eq_some hafter
    refine ⟨by simp only [List.length_cons]; omega, ?_⟩
    rw [parenthesized, afterChar?_cons]
    simp only [hb, hclose]
  rw [operand]
  refine (fails_negation (by rintro c ⟨⟩; decide)).orElse ((fails_quantified ?_).orElse (h.orElse _))
  intro q c r heq _ hq
  cases heq
  rcases hq with hq | hq <;> cases hq

theorem reads_quantified {q : Quantifier} {var : List Char} {t : Term} {b : Body} {c d : Char}
    {bound word range after inner : List Char} (hs : s = q.letter.toList ++ c :: bound) (hc : isBlank c = true)
    (hvar : isName var = true) (hbound : skipBlank bound = var ++ d :: word) (hd : isBlank d = true)
    (hword : skipBlank word = 'i' :: 'n' :: range) (hrange : ∀ c ∈ range.head?, isWordPart c = false)
    (ht : Reads (term range) t after) (hafter : skipBlank after = '.' :: inner) (hb : Reads (body inner) b rest) :
    Reads (operand s) (.quantified q (String.ofList var) (rangeOf t) b) rest := by
  have hq : ∃ l lt, l ≠ '!' ∧ s = l :: c :: bound ∧ quantifier? s = some ⟨q, bound, lt⟩ := by
    subst hs
    cases q
    · exact ⟨'A', lt_length_add_two _, by decide, rfl, if_pos hc⟩
    · exact ⟨'E', lt_length_add_two _, by decide, rfl, if_pos hc⟩
  obtain ⟨l, ltLetter, hl, hs', hq⟩ := hq
  have hname : ∃ lt, word? (skipBlank bound) = some ⟨String.ofList var, d :: word, lt⟩ :=
    hbound.symm ▸ word?_append hvar (by rintro x ⟨⟩; exact not_isWordPart_of_isBlank hd)
  obtain ⟨ltVar, hname⟩ := hname
  obtain ⟨ltIn, hin⟩ := afterIn_cons hd hword hrange
  obtain ⟨ltRange, ht⟩ := ht
  obtain ⟨ltPoint, hpoint⟩ := afterMark?_eq_some hafter
  obtain ⟨ltBody, hb⟩ := hb
  have hhead : ∃ lt, head s = .ok ⟨⟨q, String.ofList var, rangeOf t⟩, inner, lt⟩ := by
    have := skipBlank_length_le bound
    refine ⟨by omega, ?_⟩
    rw [head]
    simp only [hq, hname, hin, ht, hpoint]
  obtain ⟨ltHead, hhead⟩ := hhead
  have h : Reads (quantified s) (.quantified q (String.ofList var) (rangeOf t) b) rest := by
    refine ⟨by omega, ?_⟩
    rw [quantified, hhead]
    simp only [hb]
  rw [operand]
  refine (fails_negation ?_).orElse (h.orElse _)
  rw [hs']
  rintro x ⟨⟩
  exact hl

/-- text that begins like a term is a comparison or a predicate, if no quantifier can start there -/
theorem reads_operand_of_term {b : Body} (hhead : ∀ c ∈ s.head?, c ≠ '!' ∧ c ≠ '(') (hquant : Fails (quantified s))
    (h : Reads (Reading.orElse (compared s) fun _ => predicate s) b rest) : Reads (operand s) b rest := by
  rw [operand]
  refine (fails_negation fun c hc => (hhead c hc).1).orElse (hquant.orElse ?_)
  exact (fails_parenthesized fun c hc => (hhead c hc).2).orElse h

theorem reads_compared {op : Comparison} {l r : Term} {next right : List Char} (hl : Reads (term s) l next)
    (hop : ∃ lt, comparison? (skipBlank next) = some ⟨op, right, lt⟩) (hr : Reads (term right) r rest) :
    Reads (Reading.orElse (compared s) fun _ => predicate s) (.compared op l r) rest := by
  obtain ⟨ltl, hl⟩ := hl
  obtain ⟨ltop, hop⟩ := hop
  obtain ⟨ltr, hr⟩ := hr
  have h : Reads (compared s) (.compared op l r) rest := by
    have := skipBlank_length_le next
    refine ⟨by omega, ?_⟩
    rw [compared, hl]
    simp only [hop, hr]
  exact h.orElse _

theorem fails_compared {t : Term} {next : List Char} (ht : Reads (term s) t next)
    (hnext : comparison? (skipBlank next) = none) : Fails (compared s) := by
  obtain ⟨lt, ht⟩ := ht
  refine ⟨s, ?_⟩
  rw [compared, ht]
  simp only [hnext]

theorem reads_predicate {name : String} {args : List Term} (ht : Reads (term s) (.call name args) rest)
    (hrest : comparison? (skipBlank rest) = none) :
    Reads (Reading.orElse (compared s) fun _ => predicate s) (.predicate name args) rest := by
  refine (fails_compared ht hrest).orElse ?_
  obtain ⟨lt, ht⟩ := ht
  exact ⟨lt, by rw [predicate, ht]⟩

theorem reads_literal {value : Bool} (ht : Reads (term s) (.bool value) rest)
    (hrest : comparison? (skipBlank rest) = none) :
    Reads (Reading.orElse (compared s) fun _ => predicate s) (.literal value) rest := by
  refine (fails_compared ht hrest).orElse ?_
  obtain ⟨lt, ht⟩ := ht
  exact ⟨lt, by rw [predicate, ht]⟩

end Operands

/-! ## Bodies -/

/-- what stands behind a body does not connect it to anything -/
structure EndsBody (rest : List Char) : Prop extends EndsOperand rest where
  and : ∀ c ∈ (skipBlank rest).head?, c ≠ '&'
  or : afterOr? rest = none
  implies : afterImplies? rest = none
  iff : afterIff? rest = none

section Bodies

variable {s rest : List Char} {b : Body}

/-! Loops: each connective that follows takes what has been read so far for its left side. -/

variable {l r : Body} {next right after : List Char}

theorem Reads.conjunction (hl : Reads (unary s) l next) (hmore : Continues (moreConjuncts l next) b rest) :
    Reads (conjunction s) b rest := by
  obtain ⟨lt, hl⟩ := hl
  obtain ⟨le, hmore⟩ := hmore
  refine ⟨Nat.lt_of_le_of_lt le lt, ?_⟩
  rw [Grammar.conjunction, hl]
  simp only [hmore]

theorem continues_moreConjuncts_nil (hrest : ∀ c ∈ (skipBlank rest).head?, c ≠ '&') :
    Continues (moreConjuncts b rest) b rest :=
  ⟨Nat.le_refl _, by rw [moreConjuncts, afterMark?_eq_none hrest]⟩

theorem continues_moreConjuncts_cons (hnext : skipBlank next = '&' :: right) (hr : Reads (unary right) r after)
    (hmore : Continues (moreConjuncts (.connected .and l r) after) b rest) :
    Continues (moreConjuncts l next) b rest := by
  obtain ⟨ltMark, hmark⟩ := afterMark?_eq_some hnext
  obtain ⟨lt, hr⟩ := hr
  obtain ⟨le, hmore⟩ := hmore
  refine ⟨by omega, ?_⟩
  rw [moreConjuncts]
  simp only [hmark, hr, hmore]

theorem Reads.disjunction (hl : Reads (Grammar.conjunction s) l next)
    (hmore : Continues (moreDisjuncts l next) b rest) : Reads (disjunction s) b rest := by
  obtain ⟨lt, hl⟩ := hl
  obtain ⟨le, hmore⟩ := hmore
  refine ⟨Nat.lt_of_le_of_lt le lt, ?_⟩
  rw [Grammar.disjunction, hl]
  simp only [hmore]

theorem continues_moreDisjuncts_nil (hrest : afterOr? rest = none) : Continues (moreDisjuncts b rest) b rest :=
  ⟨Nat.le_refl _, by rw [moreDisjuncts, hrest]⟩

theorem continues_moreDisjuncts_cons (hnext : ∃ lt, afterOr? next = some ⟨right, lt⟩)
    (hr : Reads (conjunction right) r after)
    (hmore : Continues (moreDisjuncts (.connected .or l r) after) b rest) :
    Continues (moreDisjuncts l next) b rest := by
  obtain ⟨ltMark, hmark⟩ := hnext
  obtain ⟨lt, hr⟩ := hr
  obtain ⟨le, hmore⟩ := hmore
  refine ⟨by omega, ?_⟩
  rw [moreDisjuncts]
  simp only [hmark, hr, hmore]

theorem Reads.implication (hl : Reads (Grammar.disjunction s) b rest) (hrest : afterImplies? rest = none) :
    Reads (implication s) b rest := by
  obtain ⟨lt, hl⟩ := hl
  refine ⟨lt, ?_⟩
  rw [Grammar.implication, hl]
  simp only [hrest]

/-- an implication is read from the right -/
theorem reads_implication (hl : Reads (disjunction s) l next) (hnext : ∃ lt, afterImplies? next = some ⟨right, lt⟩)
    (hr : Reads (implication right) r rest) : Reads (implication s) (.connected .implies l r) rest := by
  obtain ⟨ltl, hl⟩ := hl
  obtain ⟨ltMark, hmark⟩ := hnext
  obtain ⟨ltr, hr⟩ := hr
  refine ⟨by omega, ?_⟩
  rw [implication, hl]
  simp only [hmark, hr]

theorem Reads.body (hl : Reads (Grammar.implication s) l next) (hmore : Continues (moreEquivalences l next) b rest) :
    Reads (body s) b rest := by
  obtain ⟨lt, hl⟩ := hl
  obtain ⟨le, hmore⟩ := hmore
  refine ⟨Nat.lt_of_le_of_lt le lt, ?_⟩
  rw [Grammar.body, hl]
  simp only [hmore]

theorem continues_moreEquivalences_nil (hrest : afterIff? rest = none) : Continues (moreEquivalences b rest) b rest :=
  ⟨Nat.le_refl _, by rw [moreEquivalences, hrest]⟩

theorem continues_moreEquivalences_cons (hnext : ∃ lt, afterIff? next = some ⟨right, lt⟩)
    (hr : Reads (implication right) r after)
    (hmore : Continues (moreEquivalences (.connected .iff l r) after) b rest) :
    Continues (moreEquivalences l next) b rest := by
  obtain ⟨ltMark, hmark⟩ := hnext
  obtain ⟨lt, hr⟩ := hr
  obtain ⟨le, hmore⟩ := hmore
  refine ⟨by omega, ?_⟩
  rw [moreEquivalences]
  simp only [hmark, hr, hmore]

/-! An operand alone, at each level of precedence. -/

theorem reads_conjunction_of_unary (h : Reads (unary s) b rest) (hrest : ∀ c ∈ (skipBlank rest).head?, c ≠ '&') :
    Reads (conjunction s) b rest := h.conjunction (continues_moreConjuncts_nil hrest)

theorem reads_disjunction_of_conjunction (h : Reads (conjunction s) b rest) (hrest : afterOr? rest = none) :
    Reads (disjunction s) b rest := h.disjunction (continues_moreDisjuncts_nil hrest)

theorem reads_body_of_implication (h : Reads (implication s) b rest) (hrest : afterIff? rest = none) :
    Reads (body s) b rest := h.body (continues_moreEquivalences_nil hrest)

/-- an operand alone is a body -/
theorem reads_body (h : Reads (unary s) b rest) (hrest : EndsBody rest) : Reads (body s) b rest :=
  reads_body_of_implication ((reads_disjunction_of_conjunction
    (reads_conjunction_of_unary h hrest.and) hrest.or).implication hrest.implies) hrest.iff

/-- two operands with a connective between them are a body -/
theorem reads_connected {op : Connective} (hl : Reads (unary s) l (' ' :: (op.symbol.toList ++ ' ' :: right)))
    (hr : Reads (unary (' ' :: right)) r rest) (hrest : EndsBody rest) :
    Reads (body s) (.connected op l r) rest := by
  have hskip (c : Char) (hc : isBlank c = false) (t : List Char) : skipBlank (' ' :: c :: t) = c :: t := by
    rw [skipBlank_space, skipBlank_cons hc]
  -- no tighter level takes a looser connective
  have hother {c d : Char} {t : List Char} (hc : isBlank c = false) (h : c ≠ d) :
      ∀ x ∈ (skipBlank (' ' :: c :: t)).head?, x ≠ d := by
    rw [hskip c hc]
    rintro x ⟨⟩
    exact h
  have hconj := reads_conjunction_of_unary hr hrest.and
  have himpl := (reads_disjunction_of_conjunction hconj hrest.or).implication hrest.implies
  cases op with
  | and =>
    have h := hl.conjunction (continues_moreConjuncts_cons (hskip '&' (by decide) _) hr
      (continues_moreConjuncts_nil hrest.and))
    exact reads_body_of_implication ((reads_disjunction_of_conjunction h hrest.or).implication hrest.implies) hrest.iff
  | or =>
    have hl := reads_conjunction_of_unary hl (hother (by decide) (by decide))
    have hbar := afterOr?_eq_some (hskip '|' (by decide) (' ' :: right)) (by rintro c ⟨⟩; decide)
    have h := hl.disjunction (continues_moreDisjuncts_cons hbar hconj (continues_moreDisjuncts_nil hrest.or))
    exact reads_body_of_implication (h.implication hrest.implies) hrest.iff
  | implies =>
    have hl := reads_conjunction_of_unary hl (hother (by decide) (by decide))
    have hl := reads_disjunction_of_conjunction hl (afterOr?_eq_none (hother (by decide) (by decide)))
    have h := reads_implication hl (afterImplies?_eq_some (hskip '-' (by decide) _)) himpl
    exact reads_body_of_implication h hrest.iff
  | iff =>
    have hl := reads_conjunction_of_unary hl (hother (by decide) (by decide))
    have hl := reads_disjunction_of_conjunction hl (afterOr?_eq_none (hother (by decide) (by decide)))
    have hl := hl.implication (afterImplies?_eq_none (hother (by decide) (by decide)))
    exact hl.body (continues_moreEquivalences_cons (afterIff?_eq_some (hskip '<' (by decide) _)) himpl
      (continues_moreEquivalences_nil hrest.iff))

end Bodies

/-! ## Declarations -/

section Items

variable {α : Type} {item : (s : List Char) → Reading α s} {s next rest : List Char} {a : α} {as : List α}

theorem continues_moreItems_nil (h : ∀ c ∈ (skipBlank s).head?, c ≠ ',') : Continues (moreItems item s) [] s := by
  refine ⟨Nat.le_refl _, ?_⟩
  rw [moreItems, afterMark?_eq_none h]

theorem continues_moreItems_cons {start : List Char} (hs : skipBlank s = ',' :: start) (ha : Reads (item start) a next)
    (has : Continues (moreItems item next) as rest) : Continues (moreItems item s) (a :: as) rest := by
  obtain ⟨ltMark, hmark⟩ := afterMark?_eq_some hs
  obtain ⟨lt, ha⟩ := ha
  obtain ⟨le, has⟩ := has
  refine ⟨by omega, ?_⟩
  rw [moreItems]
  simp only [hmark, ha, has]

theorem reads_items (ha : Reads (item s) a next) (has : Continues (moreItems item next) as rest) :
    Reads (items item s) (a :: as) rest := by
  obtain ⟨lt, ha⟩ := ha
  obtain ⟨le, has⟩ := has
  refine ⟨by omega, ?_⟩
  rw [items, ha]
  simp only [has]

end Items

section Declarations

variable {s rest : List Char}

theorem skipBlank_name {w : List Char} (hw : isName w = true) (rest : List Char) :
    skipBlank (w ++ rest) = w ++ rest := by
  cases w with
  | nil => cases hw
  | cons c w =>
    have hc : isWordStart c = true := (Bool.and_eq_true_iff.1 hw).1
    exact skipBlank_cons (isBlank_of_isWordPart (isWordPart_of_isWordStart hc)) _

theorem reads_parameter {w : List Char} (hw : isName w = true) (hrest : ∀ c ∈ rest.head?, isWordPart c = false)
    (hs : skipBlank s = w ++ rest) : Reads (parameter s) (String.ofList w) rest := by
  have hword : ∃ lt, word? (skipBlank s) = some ⟨String.ofList w, rest, lt⟩ := hs ▸ word?_append hw hrest
  obtain ⟨lt, hword⟩ := hword
  refine ⟨Nat.lt_of_lt_of_le lt (skipBlank_length_le s), ?_⟩
  rw [parameter, hword]
  rfl

theorem reads_binding {v w : List Char} {d : Domain} (hv : isName v = true) (hw : isName w = true)
    (hd : Domain.ofKeyword? (String.ofList w) = some d) (hrest : ∀ c ∈ rest.head?, isWordPart c = false)
    (hs : skipBlank s = v ++ ' ' :: 'i' :: 'n' :: ' ' :: (w ++ rest)) :
    Reads (binding s) ⟨String.ofList v, d⟩ rest := by
  have hvar : ∃ lt, word? (skipBlank s) = some ⟨String.ofList v, ' ' :: 'i' :: 'n' :: ' ' :: (w ++ rest), lt⟩ :=
    hs ▸ word?_append hv (by rintro c ⟨⟩; decide)
  have hdomain : ∃ lt, word? (skipBlank (' ' :: (w ++ rest))) = some ⟨String.ofList w, rest, lt⟩ := by
    rw [skipBlank_space, skipBlank_name hw]
    exact word?_append hw hrest
  obtain ⟨ltVar, hvar⟩ := hvar
  obtain ⟨ltIn, hin⟩ := afterIn_cons (by decide : isBlank ' ' = true)
    (skipBlank_cons (by decide) ('n' :: ' ' :: (w ++ rest))) (by rintro c ⟨⟩; decide)
  obtain ⟨ltDomain, hdomain⟩ := hdomain
  have := skipBlank_length_le s
  have := skipBlank_length_le (' ' :: (w ++ rest))
  refine ⟨by omega, ?_⟩
  rw [binding]
  simp only [hvar, hin, hdomain, hd]

theorem afterToken?_pair (c d : Char) (s : List Char) : ∃ h, afterToken? [c, d] (c :: d :: s) = some ⟨s, h⟩ := by
  refine ⟨rfl, ?_⟩
  rw [afterToken?, if_pos rfl, afterToken?, if_pos rfl]
  rfl

theorem reads_formula {b : Body} {bs : List Binding} {next bound : List Char} (hb : Reads (body s) b next)
    (hnext : skipBlank next = '|' :: '|' :: bound) (hbs : Reads (items binding bound) bs rest) :
    Reads (formula s) ⟨b, bs⟩ rest := by
  obtain ⟨lt, hb⟩ := hb
  have hbars : ∃ h, afterToken? ['|', '|'] (skipBlank next) = some ⟨bound, h⟩ := hnext ▸ afterToken?_pair '|' '|' bound
  obtain ⟨eq, hbars⟩ := hbars
  obtain ⟨ltBound, hbs⟩ := hbs
  have := skipBlank_length_le next
  simp only [List.length_cons] at eq
  refine ⟨by omega, ?_⟩
  rw [formula, hb]
  simp only [hbars, hbs]

theorem reads_subformula {name : String} {params : List String} {b : Body} {next inside after sign start : List Char}
    (hname : Reads (parameter s) name next) (hnext : skipBlank next = '(' :: inside)
    (hparams : Reads (items parameter inside) params after) (hafter : skipBlank after = ')' :: sign)
    (hsign : skipBlank sign = ':' :: '=' :: start) (hb : Reads (body start) b rest) :
    Reads (subformula s) ⟨name, params, b⟩ rest := by
  obtain ⟨ltName, hname⟩ := hname
  obtain ⟨ltOpen, hopen⟩ := afterMark?_eq_some hnext
  obtain ⟨ltParams, hparams⟩ := hparams
  obtain ⟨ltClose, hclose⟩ := afterMark?_eq_some hafter
  have hdefined : ∃ h, afterToken? [':', '='] (skipBlank sign) = some ⟨start, h⟩ :=
    hsign ▸ afterToken?_pair ':' '=' start
  obtain ⟨eq, hdefined⟩ := hdefined
  obtain ⟨lt, hb⟩ := hb
  have := skipBlank_length_le sign
  simp only [List.length_cons] at eq
  refine ⟨by omega, ?_⟩
  rw [subformula, hname]
  simp only [hopen, hparams, hclose, hdefined, hb]

/-- a form that takes a text but for blanks at its end is what the text is read as -/
theorem whole_eq_ok_of_blank {α : Type} {form : (s : List Char) → Reading α s} {a : α} {text : String}
    {rest : List Char} (h : Reads (form text.toList) a rest) (hrest : skipBlank rest = []) (expected : Construct) :
    whole expected form text = .ok a := by
  obtain ⟨lt, h⟩ := h
  rw [whole]
  simp only [h, hrest]

theorem whole_eq_ok {α : Type} {form : (s : List Char) → Reading α s} {a : α} {text : String}
    (h : Reads (form text.toList) a []) (expected : Construct) : whole expected form text = .ok a :=
  whole_eq_ok_of_blank h rfl expected

/-- distinct items are not repeated -/
theorem firstRepeated?_eq_none {seen xs : List String} (h : (seen ++ xs).Nodup) : firstRepeated? seen xs = none := by
  induction xs generalizing seen with
  | nil => rfl
  | cons x xs ih =>
    have hx : x ∉ seen := fun hmem => (List.nodup_append.1 h).2.2 x hmem x List.mem_cons_self rfl
    rw [firstRepeated?, if_neg (by simpa using hx)]
    exact ih (by simpa using h)

end Declarations

end RoadRules.Grammar
