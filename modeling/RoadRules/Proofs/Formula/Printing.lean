/-
What is printed reads back as the same tree.

A tree is well-formed when its names are words of the grammar and no variable or range is a word that means something
else. Each printed form is read by the one alternative of the grammar that is meant for it: the forms with their own
parentheses need nothing of what stands behind them, the others need that it neither goes on with the last term nor
compares it.

- `reads_term`: terms, with lists of arguments.
- `reads_operand`: bodies, in front of any text that ends an operand.
- `reads_itemsText`: bindings and parameters with commas between them.
- `parse_text`: bodies, formulas and subformulas as whole texts.
-/
import Mathlib
import RoadRules.Proofs.Formula.Grammar

namespace RoadRules

namespace Formula

open Grammar (isName)

/-! ## Well-formed trees -/

mutual

/-- names are words, a variable is no truth value, a string holds no double quote, and a float is a number -/
def Term.wellFormed : Term → Bool
  | .var name => isName name.toList && name != "true" && name != "false"
  | .int _ | .bool _ => true
  | .float value => value.isFinite
  | .str text => text.toList.all (· != '"')
  | .call name args => isName name.toList && Term.allWellFormed args

def Term.allWellFormed : List Term → Bool
  | [] => true
  | t :: rest => t.wellFormed && Term.allWellFormed rest

end

/-- a variable whose name is a domain's would be read as the domain -/
def Range.wellFormed : Range → Bool
  | .domain _ => true
  | .term (.var name) => (Term.var name).wellFormed && (Domain.ofKeyword? name).isNone
  | .term t => t.wellFormed

def Body.wellFormed : Body → Bool
  | .quantified _ var range body => isName var.toList && range.wellFormed && body.wellFormed
  | .not inner => inner.wellFormed
  | .connected _ lhs rhs => lhs.wellFormed && rhs.wellFormed
  | .predicate name args => isName name.toList && Term.allWellFormed args
  | .compared _ lhs rhs => lhs.wellFormed && rhs.wellFormed
  | .literal _ => true

mutual

/-- the floats a term is written with -/
def Term.floats : Term → List Float
  | .float value => [value]
  | .call _ args => Term.allFloats args
  | _ => []

def Term.allFloats : List Term → List Float
  | [] => []
  | t :: rest => t.floats ++ Term.allFloats rest

end

def Range.floats : Range → List Float
  | .domain _ => []
  | .term t => t.floats

def Body.floats : Body → List Float
  | .quantified _ _ range body => range.floats ++ body.floats
  | .not inner => inner.floats
  | .connected _ lhs rhs => lhs.floats ++ rhs.floats
  | .predicate _ args => Term.allFloats args
  | .compared _ lhs rhs => lhs.floats ++ rhs.floats
  | .literal _ => []

/-- a formula that binds at least one variable, and none twice -/
structure WellFormed (f : Formula) : Prop where
  body : f.body.wellFormed = true
  bound : f.bindings ≠ []
  names : ∀ b ∈ f.bindings, isName b.var.toList = true
  distinct : (f.bindings.map (·.var)).Nodup

end Formula

/-- a subformula with at least one parameter, and none twice -/
structure Subformula.WellFormed (s : Subformula) : Prop where
  name : Grammar.isName s.name.toList = true
  body : s.body.wellFormed = true
  parameterized : s.params ≠ []
  names : ∀ p ∈ s.params, Grammar.isName p.toList = true
  distinct : s.params.Nodup

namespace Grammar

open Formula

/-- the text of a float has digits on both sides of a point and stands for the same float -/
def ReadsBack (x : Float) : Prop :=
  ∃ n : Numeral, n.Proper ∧ n.fraction ≠ [] ∧ (Number.plain x).toList = n.chars ∧ n.term? = some (.float x)

/-! ## Integers -/

/-- an integer in decimal, without a point -/
def numeralOfInt : Int → Numeral
  | .ofNat n => ⟨false, Nat.toDigits 10 n, []⟩
  | .negSucc n => ⟨true, Nat.toDigits 10 (n + 1), []⟩

theorem isDigit_toDigits {n : Nat} : ∀ c ∈ Nat.toDigits 10 n, c.isDigit = true :=
  fun _ => Nat.isDigit_of_mem_toDigits (by decide) (by decide)

theorem ofDigits_toDigits (n : Nat) : ofDigits (Nat.toDigits 10 n) = n := Nat.ofDigitChars_ten_toDigits

theorem numeralOfInt_proper (i : Int) : (numeralOfInt i).Proper := by
  cases i with
  | ofNat n => exact ⟨Nat.toDigits_ne_nil, isDigit_toDigits, fun _ h => absurd h List.not_mem_nil⟩
  | negSucc n => exact ⟨Nat.toDigits_ne_nil, isDigit_toDigits, fun _ h => absurd h List.not_mem_nil⟩

theorem toString_int (i : Int) : (toString i).toList = (numeralOfInt i).chars := by
  cases i with
  | ofNat n =>
    rw [show toString (Int.ofNat n) = toString n from rfl]
    simp [numeralOfInt, Numeral.chars, Numeral.digits]
  | negSucc n =>
    rw [show toString (Int.negSucc n) = "-" ++ toString (n + 1) from rfl]
    simp [numeralOfInt, Numeral.chars, Numeral.digits]

/-- the digits of a 64-bit integer stand for it -/
theorem term?_numeralOfInt (v : Int64) : (numeralOfInt v.toInt).term? = some (.int v) := by
  have hvalue : (if (numeralOfInt v.toInt).negative then -(ofDigits (numeralOfInt v.toInt).whole : Int)
      else ofDigits (numeralOfInt v.toInt).whole) = v.toInt := by
    cases v.toInt with
    | ofNat n => simp [numeralOfInt, ofDigits_toDigits]
    | negSucc n =>
      simp [numeralOfInt, ofDigits_toDigits]
      omega
  have hpoint : (numeralOfInt v.toInt).fraction.isEmpty = true := by
    cases v.toInt <;> rfl
  have hrange : Int64.minValue.toInt ≤ v.toInt ∧ v.toInt ≤ Int64.maxValue.toInt :=
    ⟨v.minValue_le_toInt, v.toInt_le⟩
  simp only [Numeral.term?, hpoint, if_true, hvalue, if_pos hrange, Int64.ofInt_toInt]

/-! ## How texts begin -/

/-- characters that a term may begin with -/
def opensTerm (c : Char) : Bool := isWordStart c || c.isDigit || c == '-' || c == '"'

theorem not_opensTerm {c : Char} (h : opensTerm c = true) : isBlank c = false ∧ c ≠ '!' ∧ c ≠ '(' ∧ c ≠ '=' := by
  have ne (d : Char) (hd : opensTerm d = false) : c ≠ d := by
    rintro rfl
    rw [h] at hd
    cases hd
  refine ⟨?_, ne _ (by decide), ne _ (by decide), ne _ (by decide)⟩
  by_contra hb
  simp only [Bool.not_eq_false, isBlank, Bool.or_eq_true, beq_iff_eq] at hb
  rcases hb with ((rfl | rfl) | rfl) | rfl <;> exact absurd h (by decide)

/-- a name opens a term -/
theorem opens_of_isName {w : List Char} (h : isName w = true) : ∃ c v, w = c :: v ∧ opensTerm c = true := by
  cases w with
  | nil => cases h
  | cons c w =>
    refine ⟨c, w, rfl, ?_⟩
    have hc : isWordStart c = true := (Bool.and_eq_true_iff.1 h).1
    simp only [opensTerm, hc, Bool.true_or]

theorem Numeral.Proper.opens {n : Numeral} (h : n.Proper) : ∃ c v, n.chars = c :: v ∧ (c = '-' ∨ c.isDigit = true) := by
  obtain ⟨c, whole, hwhole⟩ := List.exists_cons_of_ne_nil h.nonempty
  have hc : c.isDigit = true := h.whole c (hwhole ▸ List.mem_cons_self)
  rw [Numeral.chars, Numeral.digits, hwhole]
  split_ifs
  · exact ⟨_, _, rfl, Or.inl rfl⟩
  · exact ⟨_, _, rfl, Or.inl rfl⟩
  · exact ⟨_, _, rfl, Or.inr hc⟩
  · exact ⟨_, _, rfl, Or.inr hc⟩

/-! ## Terms -/

/-- the floats among these read back from their texts, as far as they are finite -/
def AllReadBack (xs : List Float) : Prop := ∀ x ∈ xs, x.isFinite = true → ReadsBack x

theorem AllReadBack.of_append {xs ys : List Float} (h : AllReadBack (xs ++ ys)) : AllReadBack xs ∧ AllReadBack ys :=
  ⟨fun x hx => h x (List.mem_append_left ys hx), fun x hx => h x (List.mem_append_right xs hx)⟩

/-- numbers are written as numerals that stand for them -/
theorem exists_numeral {t : Term} (hwf : t.wellFormed = true) (hf : AllReadBack t.floats)
    (ht : (∃ v, t = .int v) ∨ ∃ x, t = .float x) :
    ∃ n : Numeral, n.Proper ∧ t.text.toList = n.chars ∧ n.term? = some t := by
  obtain ⟨v, rfl⟩ | ⟨x, rfl⟩ := ht
  · exact ⟨numeralOfInt v.toInt, numeralOfInt_proper _, toString_int _, term?_numeralOfInt v⟩
  · obtain ⟨n, hn, -, htext, hterm⟩ := hf x (List.mem_singleton_self x) hwf
    exact ⟨n, hn, htext, hterm⟩

theorem term_opens {t : Term} (hwf : t.wellFormed = true) (hf : AllReadBack t.floats) :
    ∃ c w, t.text.toList = c :: w ∧ opensTerm c = true := by
  have hnumber (ht : (∃ v, t = .int v) ∨ ∃ x, t = .float x) : ∃ c w, t.text.toList = c :: w ∧ opensTerm c = true := by
    obtain ⟨n, hn, htext, -⟩ := exists_numeral hwf hf ht
    obtain ⟨c, w, hcw, hc⟩ := hn.opens
    refine ⟨c, w, htext.trans hcw, ?_⟩
    obtain rfl | hc := hc
    · decide
    · simp only [opensTerm, hc, Bool.or_true, Bool.true_or]
  cases t with
  | var name =>
    simp only [Term.wellFormed, Bool.and_eq_true] at hwf
    exact opens_of_isName hwf.1.1
  | int v => exact hnumber (Or.inl ⟨v, rfl⟩)
  | float x => exact hnumber (Or.inr ⟨x, rfl⟩)
  | str text => exact ⟨'"', text.toList ++ ['"'], by simp [Term.text], by decide⟩
  | bool value => cases value <;> exact ⟨_, _, rfl, by decide⟩
  | call name args =>
    simp only [Term.wellFormed, Bool.and_eq_true] at hwf
    obtain ⟨c, w, hw, hc⟩ := opens_of_isName hwf.1
    exact ⟨c, w ++ '(' :: ((Term.listText args).toList ++ [')']), by simp [Term.text, hw], hc⟩

/-- no blank stands in front of a term -/
theorem skipBlank_term {t : Term} (hwf : t.wellFormed = true) (hf : AllReadBack t.floats) (rest : List Char) :
    skipBlank (t.text.toList ++ rest) = t.text.toList ++ rest := by
  obtain ⟨c, w, htext, hc⟩ := term_opens hwf hf
  rw [htext, List.cons_append, skipBlank_cons (not_opensTerm hc).1]

theorem endsTerm_cons {c : Char} (hword : isWordPart c = false) (hpoint : c ≠ '.') (hblank : isBlank c = false)
    (hopen : c ≠ '(') (rest : List Char) : EndsTerm (c :: rest) where
  word := by
    rintro d ⟨⟩
    exact hword
  point := by
    rintro t ⟨⟩
    exact absurd rfl hpoint
  call := by
    rw [skipBlank_cons hblank]
    rintro d ⟨⟩
    exact hopen

theorem endsTerm_close (rest : List Char) : EndsTerm (')' :: rest) :=
  endsTerm_cons (by decide) (by decide) (by decide) (by decide) rest

/-- behind an argument stands another one or the closing parenthesis -/
theorem endsTerm_tail (ts : List Term) (rest : List Char) : EndsTerm ((Term.tailText ts).toList ++ ')' :: rest) := by
  cases ts with
  | nil => exact endsTerm_close rest
  | cons t ts =>
    have h : (Term.tailText (t :: ts)).toList ++ ')' :: rest =
        ',' :: ' ' :: (t.text.toList ++ ((Term.tailText ts).toList ++ ')' :: rest)) := by
      simp [Term.tailText]
    rw [h]
    exact endsTerm_cons (by decide) (by decide) (by decide) (by decide) _

mutual

/-- a printed term is read as the same term -/
theorem reads_term (t : Term) (hwf : t.wellFormed = true) (hf : AllReadBack t.floats) {s rest : List Char}
    (hrest : EndsTerm rest) (hs : skipBlank s = t.text.toList ++ rest) : Reads (term s) t rest := by
  cases t with
  | var name =>
    simp only [Term.wellFormed, Bool.and_eq_true, bne_iff_ne, ne_eq] at hwf
    have h := reads_word hwf.1.1 hrest hs
    rwa [String.ofList_toList, wordTerm, if_neg hwf.1.2, if_neg hwf.2] at h
  | int v =>
    obtain ⟨n, hn, htext, hterm⟩ := exists_numeral hwf hf (Or.inl ⟨v, rfl⟩)
    exact reads_numeral hn hterm hrest (htext ▸ hs)
  | float x =>
    obtain ⟨n, hn, htext, hterm⟩ := exists_numeral hwf hf (Or.inr ⟨x, rfl⟩)
    exact reads_numeral hn hterm hrest (htext ▸ hs)
  | str text =>
    have hquote : '"' ∉ text.toList := fun h => absurd rfl (bne_iff_ne.1 (List.all_eq_true.1 hwf '"' h))
    have h : Reads (term s) (.str (String.ofList text.toList)) rest := reads_str hquote (by
      rw [hs]
      simp [Term.text])
    rwa [String.ofList_toList] at h
  | bool value =>
    cases value with
    | true => exact reads_word (w := "true".toList) (by decide) hrest hs
    | false => exact reads_word (w := "false".toList) (by decide) hrest hs
  | call name args =>
    simp only [Term.wellFormed, Bool.and_eq_true] at hwf
    have hs : skipBlank s = name.toList ++ '(' :: ((Term.listText args).toList ++ ')' :: rest) := by
      rw [hs]
      simp [Term.text]
    have h := reads_call hwf.1 hs (by rintro c ⟨⟩; decide) (skipBlank_cons (by decide) _)
      (continues_terms args hwf.2 hf rest) (skipBlank_cons (by decide) rest)
    rwa [String.ofList_toList] at h

theorem continues_terms (ts : List Term) (hwf : Term.allWellFormed ts = true) (hf : AllReadBack (Term.allFloats ts))
    (rest : List Char) : Continues (terms ((Term.listText ts).toList ++ ')' :: rest)) ts (')' :: rest) := by
  cases ts with
  | nil =>
    refine continues_terms_nil fun c hc => ?_
    rw [show (Term.listText []).toList ++ ')' :: rest = ')' :: rest from rfl, skipBlank_cons (by decide)] at hc
    cases hc
    rfl
  | cons t ts =>
    simp only [Term.allWellFormed, Bool.and_eq_true] at hwf
    have hf := AllReadBack.of_append hf
    have htext : (Term.listText (t :: ts)).toList ++ ')' :: rest =
        t.text.toList ++ ((Term.tailText ts).toList ++ ')' :: rest) := by
      simp [Term.listText]
    rw [htext]
    exact continues_terms_cons (reads_term t hwf.1 hf.1 (endsTerm_tail ts rest) (skipBlank_term hwf.1 hf.1 _))
      (continues_moreTerms ts hwf.2 hf.2 rest)

theorem continues_moreTerms (ts : List Term) (hwf : Term.allWellFormed ts = true)
    (hf : AllReadBack (Term.allFloats ts)) (rest : List Char) :
    Continues (moreTerms ((Term.tailText ts).toList ++ ')' :: rest)) ts (')' :: rest) := by
  cases ts with
  | nil =>
    refine continues_moreTerms_nil fun c hc => ?_
    rw [show (Term.tailText []).toList ++ ')' :: rest = ')' :: rest from rfl, skipBlank_cons (by decide)] at hc
    cases hc
    decide
  | cons t ts =>
    simp only [Term.allWellFormed, Bool.and_eq_true] at hwf
    have hf := AllReadBack.of_append hf
    have htext : (Term.tailText (t :: ts)).toList ++ ')' :: rest =
        ',' :: ' ' :: (t.text.toList ++ ((Term.tailText ts).toList ++ ')' :: rest)) := by
      simp [Term.tailText]
    rw [htext]
    refine continues_moreTerms_cons (skipBlank_cons (by decide) _)
      (reads_term t hwf.1 hf.1 (endsTerm_tail ts rest) ?_) (continues_moreTerms ts hwf.2 hf.2 rest)
    rw [skipBlank_space, skipBlank_term hwf.1 hf.1]

end

/-! ## Operands -/

/-- a blank behind a quantifier's letter at the front means that the term is a variable of that name -/
theorem blank_behind_letter {t : Term} (hwf : t.wellFormed = true) (hf : AllReadBack t.floats) {rest r : List Char}
    {q c : Char} (h : t.text.toList ++ rest = q :: c :: r) (hc : isBlank c = true) (hq : q = 'A' ∨ q = 'E') :
    (∃ name, t = .var name) ∧ rest = c :: r := by
  -- a name that goes on behind its first letter goes on without a blank
  have hname {w after : List Char} (hw : isName w = true) (h : w ++ after = q :: c :: r) : after = c :: r := by
    match w, hw, h with
    | [_], _, h => exact (List.cons.inj h).2
    | _ :: d :: w, hw, h =>
      obtain ⟨rfl, -⟩ := List.cons.inj (List.cons.inj h).2
      have hpart : isWordPart d = true := (List.all_eq_true.1 (Bool.and_eq_true_iff.1 hw).2) d List.mem_cons_self
      rw [isBlank_of_isWordPart hpart] at hc
      cases hc
  have hnumber (ht : (∃ v, t = .int v) ∨ ∃ x, t = .float x) : False := by
    obtain ⟨n, hn, htext, -⟩ := exists_numeral hwf hf ht
    obtain ⟨d, w, hdw, hd⟩ := hn.opens
    rw [htext, hdw] at h
    obtain ⟨rfl, -⟩ := List.cons.inj h
    rcases hq with rfl | rfl <;> revert hd <;> decide
  cases t with
  | var name =>
    simp only [Term.wellFormed, Bool.and_eq_true] at hwf
    exact ⟨⟨name, rfl⟩, hname hwf.1.1 h⟩
  | int v => exact absurd (Or.inl ⟨v, rfl⟩) hnumber
  | float x => exact absurd (Or.inr ⟨x, rfl⟩) hnumber
  | str text =>
    have hquote : '"' = q := by
      simp only [Term.text, String.toList_append] at h
      exact (List.cons.inj h).1
    subst hquote
    rcases hq with hq | hq <;> cases hq
  | bool value =>
    cases value <;> obtain ⟨rfl, -⟩ := List.cons.inj h <;> rcases hq with hq | hq <;> cases hq
  | call name args =>
    simp only [Term.wellFormed, Bool.and_eq_true] at hwf
    have hopen : '(' :: ((Term.listText args).toList ++ ')' :: rest) = c :: r := hname hwf.1 (by
      rw [← h]
      simp [Term.text])
    obtain ⟨rfl, -⟩ := List.cons.inj hopen
    cases hc

/-- a term that is not a variable is not taken for a quantifier -/
theorem fails_quantified_of_term {t : Term} (hwf : t.wellFormed = true) (hf : AllReadBack t.floats) {rest : List Char}
    (hrest : (∃ name, t = .var name) → ∀ c r, rest = c :: r → ∀ d ∈ (skipBlank r).head?, isWordStart d = false) :
    Fails (quantified (t.text.toList ++ rest)) := by
  refine fails_quantified fun q c r h hc hq => ?_
  obtain ⟨hvar, htail⟩ := blank_behind_letter hwf hf h hc hq
  exact hrest hvar c r htail

/-- an operand that begins with a term is a comparison or a predicate -/
theorem reads_operand_of_term_text {t : Term} {b : Body} (hwf : t.wellFormed = true) (hf : AllReadBack t.floats)
    {rest after : List Char}
    (hrest : (∃ name, t = .var name) → ∀ c r, rest = c :: r → ∀ d ∈ (skipBlank r).head?, isWordStart d = false)
    (h : Reads (Reading.orElse (compared (t.text.toList ++ rest)) fun _ => predicate (t.text.toList ++ rest)) b after) :
    Reads (operand (t.text.toList ++ rest)) b after := by
  refine reads_operand_of_term ?_ (fails_quantified_of_term hwf hf hrest) h
  obtain ⟨c, w, htext, hc⟩ := term_opens hwf hf
  rw [htext]
  rintro d ⟨⟩
  exact ⟨(not_opensTerm hc).2.1, (not_opensTerm hc).2.2.1⟩

/-! What stands behind operands in printed text. -/

theorem head_skipBlank_cons {c d : Char} (hblank : isBlank c = false) (hne : c ≠ d) (rest : List Char) :
    ∀ x ∈ (skipBlank (c :: rest)).head?, x ≠ d := by
  rw [skipBlank_cons hblank]
  rintro x ⟨⟩
  exact hne

/-- a blank ends a term that is not called -/
theorem endsTerm_of_blank {rest : List Char} (hblank : ∀ c ∈ rest.head?, isBlank c = true)
    (hcall : ∀ c ∈ (skipBlank rest).head?, c ≠ '(') : EndsTerm rest where
  word c hc := not_isWordPart_of_isBlank (hblank c hc)
  point := by
    rintro t rfl
    exact absurd (hblank '.' rfl) (by decide)
  call := hcall

theorem endsTerm_space {c : Char} (hblank : isBlank c = false) (hopen : c ≠ '(') (rest : List Char) :
    EndsTerm (' ' :: c :: rest) := by
  refine endsTerm_of_blank (by rintro d ⟨⟩; decide) ?_
  rw [skipBlank_space]
  exact head_skipBlank_cons hblank hopen rest

theorem endsBody_nil : EndsBody [] where
  word := by rintro c ⟨⟩
  point := by rintro t ⟨⟩
  call := by rintro c ⟨⟩
  comparison := rfl
  and := by rintro c ⟨⟩
  or := rfl
  implies := rfl
  iff := rfl

theorem endsBody_close (rest : List Char) : EndsBody (')' :: rest) where
  toEndsTerm := endsTerm_close rest
  comparison := by
    rw [skipBlank_cons (by decide)]
    rfl
  and := head_skipBlank_cons (by decide) (by decide) rest
  or := afterOr?_eq_none (head_skipBlank_cons (by decide) (by decide) rest)
  implies := afterImplies?_eq_none (head_skipBlank_cons (by decide) (by decide) rest)
  iff := afterIff?_eq_none (head_skipBlank_cons (by decide) (by decide) rest)

/-- the two bars of a formula end its body -/
theorem endsBody_bars (rest : List Char) : EndsBody (' ' :: '|' :: '|' :: rest) where
  toEndsTerm := endsTerm_space (by decide) (by decide) _
  comparison := by
    rw [skipBlank_space, skipBlank_cons (by decide)]
    rfl
  and := by
    rw [skipBlank_space]
    exact head_skipBlank_cons (by decide) (by decide) _
  or := afterOr?_bars (by rw [skipBlank_space, skipBlank_cons (by decide)])
  implies := afterImplies?_eq_none (by
    rw [skipBlank_space]
    exact head_skipBlank_cons (by decide) (by decide) _)
  iff := afterIff?_eq_none (by
    rw [skipBlank_space]
    exact head_skipBlank_cons (by decide) (by decide) _)

theorem skipBlank_connective (op : Connective) (rest : List Char) :
    skipBlank (' ' :: (op.symbol.toList ++ rest)) = op.symbol.toList ++ rest := by
  rw [skipBlank_space]
  cases op <;> exact skipBlank_cons (by decide) _

theorem skipBlank_comparison (op : Comparison) (rest : List Char) :
    skipBlank (' ' :: (op.symbol.toList ++ rest)) = op.symbol.toList ++ rest := by
  rw [skipBlank_space]
  cases op <;> exact skipBlank_cons (by decide) _

/-- a comparison is read as such if a blank stands behind it -/
theorem comparison?_symbol (op : Comparison) {rest : List Char} (h : ∀ c ∈ rest.head?, isBlank c = true) :
    ∃ lt, comparison? (op.symbol.toList ++ rest) = some ⟨op, rest, lt⟩ := by
  cases rest with
  | nil => cases op <;> exact ⟨_, rfl⟩
  | cons c rest =>
    have hc := h c rfl
    simp only [isBlank, Bool.or_eq_true, beq_iff_eq] at hc
    rcases hc with ((rfl | rfl) | rfl) | rfl <;> cases op <;> exact ⟨_, rfl⟩

/-- a connective does not go on with the operand in front of it; `<->` is no comparison -/
theorem endsOperand_connective (op : Connective) (rest : List Char) :
    EndsOperand (' ' :: (op.symbol.toList ++ rest)) where
  toEndsTerm := by cases op <;> exact endsTerm_space (by decide) (by decide) _
  comparison := by
    rw [skipBlank_connective]
    cases op <;> rfl

theorem endsTerm_comparison (op : Comparison) (rest : List Char) : EndsTerm (' ' :: (op.symbol.toList ++ rest)) := by
  cases op <;> exact endsTerm_space (by decide) (by decide) _

/-- the point behind a range is no decimal point -/
theorem endsTerm_point (rest : List Char) : EndsTerm ('.' :: ' ' :: rest) where
  word := by
    rintro c ⟨⟩
    decide
  point := by
    rintro t ⟨⟩ c ⟨⟩
    decide
  call := head_skipBlank_cons (by decide) (by decide) _

/-! ## Bodies -/

/-- the term that a range is written as -/
def termOfRange : Range → Term
  | .domain d => .var d.keyword
  | .term t => t

theorem termOfRange_text (range : Range) : (termOfRange range).text = range.text := by
  cases range <;> rfl

theorem rangeOf_termOfRange {range : Range} (hwf : range.wellFormed = true) : rangeOf (termOfRange range) = range := by
  cases range with
  | domain d => rw [termOfRange, rangeOf, Domain.ofKeyword?_keyword]
  | term t =>
    cases t with
    | var name =>
      simp only [Range.wellFormed, Bool.and_eq_true, Option.isNone_iff_eq_none] at hwf
      rw [termOfRange, rangeOf, hwf.2]
    | _ => rfl

theorem termOfRange_wellFormed {range : Range} (hwf : range.wellFormed = true) :
    (termOfRange range).wellFormed = true := by
  cases range with
  | domain d => cases d <;> decide
  | term t =>
    cases t with
    | var name => exact (Bool.and_eq_true_iff.1 hwf).1
    | _ => exact hwf

theorem termOfRange_floats (range : Range) : (termOfRange range).floats = range.floats := by
  cases range <;> rfl

/-- a body begins with a term, a parenthesis or a negation -/
theorem body_opens {b : Body} (hwf : b.wellFormed = true) (hf : AllReadBack b.floats) :
    ∃ c, b.text.toList.head? = some c ∧ isBlank c = false ∧ c ≠ '=' := by
  have hterm {t : Term} (ht : t.wellFormed = true) (hft : AllReadBack t.floats) (after : List Char)
      (h : b.text.toList = t.text.toList ++ after) :
      ∃ c, b.text.toList.head? = some c ∧ isBlank c = false ∧ c ≠ '=' := by
    obtain ⟨c, w, hcw, hc⟩ := term_opens ht hft
    exact ⟨c, by rw [h, hcw]; rfl, (not_opensTerm hc).1, (not_opensTerm hc).2.2.2⟩
  cases b with
  | quantified q var range body => exact ⟨'(', by simp [Body.text], by decide, by decide⟩
  | not inner => exact ⟨'!', by simp [Body.text], by decide, by decide⟩
  | connected op l r => exact ⟨'(', by simp [Body.text], by decide, by decide⟩
  | predicate name args => exact hterm (t := .call name args) hwf hf [] (List.append_nil _).symm
  | compared op l r =>
    simp only [Body.wellFormed, Bool.and_eq_true] at hwf
    refine hterm hwf.1 (AllReadBack.of_append hf).1 (' ' :: (op.symbol.toList ++ ' ' :: r.text.toList)) ?_
    simp [Body.text]
  | literal value => exact hterm (t := .bool value) hwf hf [] (List.append_nil _).symm

theorem skipBlank_body {b : Body} (hwf : b.wellFormed = true) (hf : AllReadBack b.floats) (rest : List Char) :
    skipBlank (b.text.toList ++ rest) = b.text.toList ++ rest := by
  obtain ⟨c, hhead, hc, -⟩ := body_opens hwf hf
  obtain ⟨w, htext⟩ := List.head?_eq_some_iff.1 hhead
  rw [htext, List.cons_append, skipBlank_cons hc]

theorem text_quantified (q : Quantifier) (var : String) (range : Range) (b : Body) (rest : List Char) :
    (Body.quantified q var range b).text.toList ++ rest = '(' :: (q.letter.toList ++ ' ' :: (var.toList ++ ' ' :: 'i' ::
      'n' :: ' ' :: ((termOfRange range).text.toList ++ '.' :: ' ' :: (b.text.toList ++ ')' :: rest)))) := by
  simp [Body.text, termOfRange_text]

theorem text_connected (op : Connective) (l r : Body) (rest : List Char) :
    (Body.connected op l r).text.toList ++ rest =
      '(' :: (l.text.toList ++ ' ' :: (op.symbol.toList ++ ' ' :: (r.text.toList ++ ')' :: rest))) := by
  simp [Body.text]

theorem text_compared (op : Comparison) (l r : Term) (rest : List Char) :
    (Body.compared op l r).text.toList ++ rest =
      l.text.toList ++ ' ' :: (op.symbol.toList ++ ' ' :: (r.text.toList ++ rest)) := by
  simp [Body.text]

/-- a printed body is read as the same body, as an operand of whatever stands around it -/
theorem reads_operand {b : Body} (hwf : b.wellFormed = true) (hf : AllReadBack b.floats) {rest : List Char}
    (hrest : EndsOperand rest) : Reads (operand (b.text.toList ++ rest)) b rest := by
  -- the text of a body inside another one, with blanks in front of it or not
  have hunary {b : Body} (hwf : b.wellFormed = true) (hf : AllReadBack b.floats) {s after : List Char}
      (hs : skipBlank s = skipBlank (b.text.toList ++ after)) (h : Reads (operand (b.text.toList ++ after)) b after) :
      Reads (unary s) b after :=
    reads_unary (by rwa [hs, skipBlank_body hwf hf])
  induction b generalizing rest with
  | quantified q var range body ih =>
    simp only [Body.wellFormed, Bool.and_eq_true] at hwf
    obtain ⟨⟨hvar, hrange⟩, hbody⟩ := hwf
    obtain ⟨hfrange, hfbody⟩ := AllReadBack.of_append hf
    have ht := termOfRange_wellFormed hrange
    have hft : AllReadBack (termOfRange range).floats := termOfRange_floats range ▸ hfrange
    have hb := reads_body (hunary hbody hfbody (skipBlank_space _)
      (ih hbody hfbody (endsBody_close rest).toEndsOperand)) (endsBody_close rest)
    have hr := reads_term _ ht hft (endsTerm_point (body.text.toList ++ ')' :: rest))
      ((skipBlank_space _).trans (skipBlank_term ht hft _))
    have hq := reads_quantified (q := q) (c := ' ') (d := ' ') rfl (by decide) hvar (skipBlank_name hvar _) (by decide)
      (skipBlank_cons (by decide) _) (by rintro c ⟨⟩; decide) hr (skipBlank_cons (by decide) _) hb
    rw [String.ofList_toList, rangeOf_termOfRange hrange] at hq
    rw [text_quantified]
    refine reads_parenthesized rfl (reads_body (reads_unary ?_) (endsBody_close rest)) (skipBlank_cons (by decide) rest)
    have hletter (t : List Char) : skipBlank (q.letter.toList ++ t) = q.letter.toList ++ t := by
      cases q <;> exact skipBlank_cons (by decide) _
    rw [hletter]
    exact hq
  | not inner ih =>
    have htext : (Body.not inner).text.toList ++ rest = '!' :: (inner.text.toList ++ rest) := by
      simp [Body.text]
    obtain ⟨c, hhead, -, hc⟩ := body_opens (b := inner) hwf hf
    obtain ⟨w, hw⟩ := List.head?_eq_some_iff.1 hhead
    refine reads_negation htext ?_ (hunary (b := inner) hwf hf rfl (ih hwf hf hrest))
    rw [hw]
    rintro d ⟨⟩
    exact hc
  | connected op l r ihl ihr =>
    simp only [Body.wellFormed, Bool.and_eq_true] at hwf
    have hf := AllReadBack.of_append hf
    have hr := hunary hwf.2 hf.2 (skipBlank_space _) (ihr hwf.2 hf.2 (endsBody_close rest).toEndsOperand)
    have hl := hunary hwf.1 hf.1 rfl
      (ihl hwf.1 hf.1 (endsOperand_connective op (' ' :: (r.text.toList ++ ')' :: rest))))
    rw [text_connected]
    exact reads_parenthesized rfl (reads_connected hl hr (endsBody_close rest)) (skipBlank_cons (by decide) rest)
  | predicate name args =>
    have ht := reads_term (.call name args) hwf hf hrest.toEndsTerm (skipBlank_term (t := .call name args) hwf hf rest)
    refine reads_operand_of_term_text (t := .call name args) hwf hf ?_ (reads_predicate ht hrest.comparison)
    rintro ⟨x, hx⟩
    cases hx
  | compared op l r =>
    simp only [Body.wellFormed, Bool.and_eq_true] at hwf
    have hf := AllReadBack.of_append hf
    have hl := reads_term l hwf.1 hf.1 (endsTerm_comparison op (' ' :: (r.text.toList ++ rest)))
      (skipBlank_term hwf.1 hf.1 _)
    have hr := reads_term r hwf.2 hf.2 hrest.toEndsTerm ((skipBlank_space _).trans (skipBlank_term hwf.2 hf.2 rest))
    rw [text_compared]
    refine reads_operand_of_term_text hwf.1 hf.1 ?_ (reads_compared hl ?_ hr)
    · -- behind a variable named like a quantifier stands the comparison, not another variable
      rintro - c t heq
      obtain ⟨-, rfl⟩ := List.cons.inj heq
      cases op <;> exact fun d hd => by cases hd; decide
    · rw [skipBlank_comparison]
      exact comparison?_symbol op (by rintro c ⟨⟩; decide)
  | literal value =>
    have ht := reads_term (.bool value) rfl hf hrest.toEndsTerm (skipBlank_term (t := .bool value) rfl hf rest)
    refine reads_operand_of_term_text (t := .bool value) rfl hf ?_ (reads_literal ht hrest.comparison)
    rintro ⟨x, hx⟩
    cases hx

/-! ## Lists of items -/

/-- the items behind the first one, each with a comma in front of it -/
def tailChars {α : Type} (text : α → String) (as : List α) : List Char :=
  as.flatMap fun a => ',' :: ' ' :: (text a).toList

theorem tailChars_cons {α : Type} (text : α → String) (a : α) (as : List α) (rest : List Char) :
    tailChars text (a :: as) ++ rest = ',' :: ' ' :: ((text a).toList ++ (tailChars text as ++ rest)) := by
  simp [tailChars]

theorem intercalate_cons {α : Type} (text : α → String) (a : α) (as : List α) :
    (", ".intercalate ((a :: as).map text)).toList = (text a).toList ++ tailChars text as := by
  rw [String.toList_intercalate, List.map_map]
  induction as generalizing a with
  | nil => simp [tailChars]
  | cons b as ih =>
    rw [List.map_cons, List.map_cons, List.intercalate_cons_cons, ← List.map_cons, ih b]
    simp [tailChars]

/-- the printed item is read wherever no letter or digit goes on with it -/
structure ReadsText {α : Type} (item : (s : List Char) → Reading α s) (text : α → String) (a : α) : Prop where
  skip (rest : List Char) : skipBlank ((text a).toList ++ rest) = (text a).toList ++ rest
  reads {s rest : List Char} (hrest : ∀ c ∈ rest.head?, isWordPart c = false)
    (hs : skipBlank s = (text a).toList ++ rest) : Reads (item s) a rest

section Items

variable {α : Type} {item : (s : List Char) → Reading α s} {text : α → String} {as : List α} {rest : List Char}
  (hitems : ∀ a ∈ as, ReadsText item text a) (hword : ∀ c ∈ rest.head?, isWordPart c = false)
  (hcomma : ∀ c ∈ (skipBlank rest).head?, c ≠ ',')

include hword in
theorem head_tailChars (text : α → String) (as : List α) :
    ∀ c ∈ (tailChars text as ++ rest).head?, isWordPart c = false := by
  cases as with
  | nil => exact hword
  | cons a as =>
    rw [tailChars_cons]
    rintro c ⟨⟩
    decide

include hitems hword hcomma

theorem continues_moreItems : Continues (moreItems item (tailChars text as ++ rest)) as rest := by
  induction as with
  | nil => exact continues_moreItems_nil hcomma
  | cons a as ih =>
    obtain ⟨hitem, hitems⟩ := List.forall_mem_cons.1 hitems
    rw [tailChars_cons]
    refine continues_moreItems_cons (skipBlank_cons (by decide) _) (hitem.reads (head_tailChars hword text as) ?_)
      (ih hitems)
    rw [skipBlank_space, hitem.skip]

theorem reads_itemsText (hne : as ≠ []) {s : List Char}
    (hs : skipBlank s = skipBlank ((", ".intercalate (as.map text)).toList ++ rest)) :
    Reads (items item s) as rest := by
  obtain ⟨a, as, rfl⟩ := List.exists_cons_of_ne_nil hne
  obtain ⟨hitem, hitems⟩ := List.forall_mem_cons.1 hitems
  rw [intercalate_cons, List.append_assoc, hitem.skip] at hs
  exact reads_items (hitem.reads (head_tailChars hword text as) hs) (continues_moreItems hitems hword hcomma)

end Items

theorem readsText_parameter {p : String} (hp : isName p.toList = true) : ReadsText parameter id p where
  skip := skipBlank_name hp
  reads hrest hs := by
    have h := reads_parameter hp hrest hs
    rwa [String.ofList_toList] at h

theorem readsText_binding {b : Binding} (hb : isName b.var.toList = true) : ReadsText binding Binding.text b where
  skip rest := by
    simp only [Binding.text, String.toList_append, List.append_assoc]
    exact skipBlank_name hb _
  reads {s rest} hrest hs := by
    have hkeyword : isName b.domain.keyword.toList = true := by
      cases b.domain <;> decide
    have h := reads_binding (s := s) hb hkeyword (by rw [String.ofList_toList, Domain.ofKeyword?_keyword]) hrest (by
      rw [hs]
      simp [Binding.text])
    rwa [String.ofList_toList] at h

/-! ## Whole texts -/

theorem reads_bodyText {b : Body} (hwf : b.wellFormed = true) (hf : AllReadBack b.floats) {s rest : List Char}
    (hs : skipBlank s = skipBlank (b.text.toList ++ rest)) (hrest : EndsBody rest) : Reads (body s) b rest := by
  rw [skipBlank_body hwf hf] at hs
  exact reads_body (reads_unary (hs ▸ reads_operand hwf hf hrest.toEndsOperand)) hrest

theorem parse_body_text {b : Body} (hwf : b.wellFormed = true) (hf : AllReadBack b.floats) :
    Body.parse b.text = .ok b :=
  whole_eq_ok (reads_bodyText hwf hf (by rw [List.append_nil]) endsBody_nil) .body

theorem parse_formula_text {f : Formula} (hwf : f.WellFormed) (hf : AllReadBack f.body.floats) :
    Formula.parse f.text = .ok f := by
  have hbound : f.bindings.isEmpty = false := by
    simpa using hwf.bound
  have htext : f.text.toList = f.body.text.toList ++
      ' ' :: '|' :: '|' :: ' ' :: ((", ".intercalate (f.bindings.map Binding.text)).toList ++ []) := by
    simp [Formula.text, hbound]
  have hitems : ∀ b ∈ f.bindings, ReadsText binding Binding.text b := fun b hb => readsText_binding (hwf.names b hb)
  have hbindings : Reads (items binding (' ' :: ((", ".intercalate (f.bindings.map Binding.text)).toList ++ [])))
      f.bindings [] :=
    reads_itemsText hitems (by rintro c ⟨⟩) (by rintro c ⟨⟩) hwf.bound (skipBlank_space _)
  have hbody := reads_bodyText hwf.body hf (congrArg skipBlank htext) (endsBody_bars _)
  have hread := reads_formula hbody (by rw [skipBlank_space, skipBlank_cons (by decide)]) hbindings
  have hdistinct : firstRepeated? [] (f.bindings.map (·.var)) = none := firstRepeated?_eq_none hwf.distinct
  rw [Formula.parse, whole_eq_ok hread]
  simp only [hdistinct]

theorem parse_subformula_text {d : Subformula} (hwf : d.WellFormed) (hf : AllReadBack d.body.floats) :
    Subformula.parse d.text = .ok d := by
  have htext : d.text.toList = d.name.toList ++ '(' :: ((", ".intercalate (d.params.map id)).toList ++
      ')' :: ' ' :: ':' :: '=' :: ' ' :: (d.body.text.toList ++ [])) := by
    simp [Subformula.text]
  have hitems : ∀ p ∈ d.params, ReadsText parameter id p := fun p hp => readsText_parameter (hwf.names p hp)
  have hname := (readsText_parameter hwf.name).reads (by rintro c ⟨⟩; decide)
    ((congrArg skipBlank htext).trans (skipBlank_name hwf.name _))
  have hparams : Reads (items parameter ((", ".intercalate (d.params.map id)).toList ++
      ')' :: ' ' :: ':' :: '=' :: ' ' :: (d.body.text.toList ++ []))) d.params
      (')' :: ' ' :: ':' :: '=' :: ' ' :: (d.body.text.toList ++ [])) :=
    reads_itemsText hitems (by rintro c ⟨⟩; decide) (head_skipBlank_cons (by decide) (by decide) _)
      hwf.parameterized rfl
  have hbody := reads_bodyText hwf.body hf (skipBlank_space _) endsBody_nil
  have hread := reads_subformula hname (skipBlank_cons (by decide) _) hparams (skipBlank_cons (by decide) _)
    (by rw [skipBlank_space, skipBlank_cons (by decide)]) hbody
  have hdistinct : firstRepeated? [] d.params = none := firstRepeated?_eq_none hwf.distinct
  rw [Subformula.parse, whole_eq_ok hread]
  simp only [hdistinct]

/-- **Parsing undoes printing.** A well-formed body, formula or subformula is what its text is read as, if the floats in
it read back from theirs. -/
theorem parse_text :
    (∀ b : Body, b.wellFormed = true → AllReadBack b.floats → Body.parse b.text = .ok b) ∧
    (∀ f : Formula, f.WellFormed → AllReadBack f.body.floats → Formula.parse f.text = .ok f) ∧
    (∀ d : Subformula, d.WellFormed → AllReadBack d.body.floats → Subformula.parse d.text = .ok d) :=
  ⟨fun _ => parse_body_text, fun _ => parse_formula_text, fun _ => parse_subformula_text⟩

/-- a float with its point between two digits -/
theorem readsBack_one_point_five : ReadsBack 1.5 := by
  refine ⟨⟨false, ['1'], ['5']⟩, ⟨by decide, by simp, by simp⟩, by decide, by decide +kernel, ?_⟩
  have h : Number.ofDecimal 15 (-1) = 1.5 := by decide +kernel
  exact congrArg (fun x => some (Term.float x)) h

/-- variables named like quantifiers, a range in front of a point, `<` beside a minus sign, and a negated comparison -/
def sampleBody : Body :=
  .quantified .every "A" (.term (.call "A" [.var "E", .float 1.5]))
    (.connected .or (.not (.compared .lt (.var "A") (.int (-3))))
      (.connected .iff (.predicate "E" [.str "A x in L."]) (.quantified .some "E" (.domain .all) (.literal true))))

theorem sampleBody_floats : AllReadBack sampleBody.floats := by
  intro x hx _
  have h : x = 1.5 := by simpa [sampleBody, Body.floats, Range.floats, Term.floats, Term.allFloats] using hx
  exact h ▸ readsBack_one_point_five

theorem parse_text_sample :
    (sampleBody.wellFormed = true ∧ Body.parse sampleBody.text = .ok sampleBody) ∧
    Formula.parse (Formula.text ⟨sampleBody, [⟨"E", .lanelets⟩, ⟨"A", .trafficSigns⟩]⟩) =
      .ok ⟨sampleBody, [⟨"E", .lanelets⟩, ⟨"A", .trafficSigns⟩]⟩ ∧
    Subformula.parse (Subformula.text ⟨"A", ["E", "x"], sampleBody⟩) = .ok ⟨"A", ["E", "x"], sampleBody⟩ := by
  have hwf : sampleBody.wellFormed = true := by decide +kernel
  exact ⟨⟨hwf, parse_text.1 _ hwf sampleBody_floats⟩,
    parse_text.2.1 _ ⟨hwf, by simp, by decide, by decide⟩ sampleBody_floats,
    parse_text.2.2 _ ⟨by decide, hwf, by simp, by decide, by decide⟩ sampleBody_floats⟩

end Grammar

end RoadRules
