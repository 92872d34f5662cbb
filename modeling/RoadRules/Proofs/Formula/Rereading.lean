/-
What is printed and read again.

An accepted text becomes a well-formed tree as far as its floats are finite, and the text of such a tree reads back. A
float too large for a double is read as infinity, whose text has no point: what is read from it has one point less than
the tree is written with.

- `points_text`, `points_bodyText`: a tree is printed with its points, apart from floats that are not finite.
- `parse_accepted_iff`: what an accepted text is read as reads back from its own text, exactly if its floats are finite.
- `parse_largeNumeral`: a text with a float too large for a double, which does not.
-/
import RoadRules.Proofs.Formula.Accepted
import RoadRules.Proofs.Formula.Floats

namespace RoadRules

namespace Grammar

open Formula

/-! ## Points of printed trees -/

/-- how many of these floats are not finite -/
def nonfinite (xs : List Float) : Nat := xs.countP fun x => !x.isFinite

theorem nonfinite_append (xs ys : List Float) : nonfinite (xs ++ ys) = nonfinite xs + nonfinite ys := List.countP_append

theorem nonfinite_eq_zero {xs : List Float} : nonfinite xs = 0 ↔ AllFinite xs := by
  rw [nonfinite, List.countP_eq_zero]
  simp [AllFinite]

/-- a numeral has a point if it has digits behind it -/
theorem Numeral.Proper.points {n : Numeral} (hn : n.Proper) :
    Grammar.points n.chars = if n.fraction.isEmpty then 0 else 1 := by
  have hdigits {ds : List Char} (h : ∀ c ∈ ds, c.isDigit = true) : Grammar.points ds = 0 := points_eq_zero rfl h
  have hsign : Grammar.points n.chars = Grammar.points n.digits := by
    unfold Numeral.chars
    split
    · exact points_cons (by decide) _
    · rfl
  rw [hsign, Numeral.digits, points_append, hdigits hn.whole]
  split
  · rfl
  · rw [points_point, hdigits hn.fraction]

theorem points_int (v : Int64) : points (toString v.toInt).toList = 0 := by
  rw [toString_int, (numeralOfInt_proper _).points]
  cases v.toInt <;> rfl

/-- a float is written with a point if it is finite -/
theorem points_float (x : Float) : points (Number.plain x).toList + nonfinite [x] = 1 := by
  cases hfinite : x.isFinite with
  | true =>
    obtain ⟨n, hn, hne, htext, -⟩ := readsBack_of_isFinite hfinite
    rw [htext, hn.points, List.isEmpty_eq_false_iff.2 hne]
    simp [nonfinite, hfinite]
  | false =>
    have hpoints : points (Number.plain x).toList = 0 := by
      unfold Number.plain
      cases hparts : Number.parts x with
      | nan => decide
      | infinite negative => cases negative <;> decide
      | finite negative m e =>
        rw [isFinite_iff.2 ⟨negative, m, e, hparts⟩] at hfinite
        cases hfinite
    simp [hpoints, nonfinite, hfinite]

mutual

/-- a term is printed with its points, apart from those of floats that are not finite -/
theorem points_text (t : Term) : points t.text.toList + nonfinite t.floats = t.points := by
  cases t with
  | var name => rfl
  | int v => exact points_int v
  | float x => exact points_float x
  | str text =>
    have htext : (Term.str text).text.toList = '"' :: (text.toList ++ ['"']) := by
      simp [Term.text]
    rw [htext, points_cons (by decide), points_append]
    rfl
  | bool value => cases value <;> rfl
  | call name args =>
    have htext : (Term.call name args).text.toList = name.toList ++ '(' :: ((Term.listText args).toList ++ [')']) := by
      simp [Term.text]
    have hargs := points_listText args
    have hclose : points [')'] = 0 := rfl
    rw [htext, points_append, points_cons (by decide), points_append, hclose, Term.points, ← hargs, Nat.add_zero,
      Nat.add_assoc]
    rfl

theorem points_listText (ts : List Term) :
    points (Term.listText ts).toList + nonfinite (Term.allFloats ts) = Term.allPoints ts := by
  cases ts with
  | nil => rfl
  | cons t ts =>
    have ht := points_text t
    have hts := points_tailText ts
    rw [Term.listText, String.toList_append, points_append, Term.allFloats, nonfinite_append, Term.allPoints]
    omega

theorem points_tailText (ts : List Term) :
    points (Term.tailText ts).toList + nonfinite (Term.allFloats ts) = Term.allPoints ts := by
  cases ts with
  | nil => rfl
  | cons t ts =>
    have ht := points_text t
    have hts := points_tailText ts
    have htext : (Term.tailText (t :: ts)).toList = ',' :: ' ' :: (t.text.toList ++ (Term.tailText ts).toList) := by
      simp [Term.tailText]
    rw [htext, points_cons (by decide), points_cons (by decide), points_append, Term.allFloats, nonfinite_append,
      Term.allPoints]
    omega

end

theorem points_rangeText (r : Range) : points r.text.toList + nonfinite r.floats = r.points := by
  cases r with
  | domain d => cases d <;> rfl
  | term t => exact points_text t

theorem points_bodyText (b : Body) : points b.text.toList + nonfinite b.floats = b.points := by
  have hclose : points [')'] = 0 := rfl
  induction b with
  | quantified q var range body ih =>
    have htext := text_quantified q var range body []
    have hrange := points_rangeText range
    have hletter : points q.letter.toList = 0 := by
      cases q <;> rfl
    rw [List.append_nil, termOfRange_text] at htext
    rw [htext, Body.floats, nonfinite_append, Body.points]
    simp only [points_cons, points_append, points_point, hletter, hclose, ne_eq, Char.reduceEq, not_false_eq_true]
    omega
  | not inner ih =>
    have htext : (Body.not inner).text.toList = '!' :: inner.text.toList := by
      simp [Body.text]
    rw [htext, points_cons (by decide)]
    exact ih
  | connected op l r ihl ihr =>
    have htext := text_connected op l r []
    have hsymbol : points op.symbol.toList = 0 := by
      cases op <;> rfl
    rw [List.append_nil] at htext
    rw [htext, Body.floats, nonfinite_append, Body.points]
    simp only [points_cons, points_append, hsymbol, hclose, ne_eq, Char.reduceEq, not_false_eq_true]
    omega
  | predicate name args => exact points_text (.call name args)
  | compared op l r =>
    have htext := text_compared op l r []
    have hl := points_text l
    have hr := points_text r
    have hsymbol : points op.symbol.toList = 0 := by
      cases op <;> rfl
    rw [List.append_nil, List.append_nil] at htext
    rw [htext, Body.floats, nonfinite_append, Body.points]
    simp only [points_cons, points_append, hsymbol, ne_eq, Char.reduceEq, not_false_eq_true]
    omega
  | literal value => exact points_text (.bool value)

theorem points_itemsText {α : Type} {text : α → String} {size : α → Nat}
    (hitem : ∀ a, points (text a).toList = size a) (as : List α) :
    points (", ".intercalate (as.map text)).toList = (as.map size).sum := by
  have htail (as : List α) : points (tailChars text as) = (as.map size).sum := by
    induction as with
    | nil => rfl
    | cons a as ih =>
      have hcons := tailChars_cons text a as []
      rw [List.append_nil, List.append_nil] at hcons
      rw [hcons, points_cons (by decide), points_cons (by decide), points_append, hitem, ih, List.map_cons,
        List.sum_cons]
  cases as with
  | nil => rfl
  | cons a as => rw [intercalate_cons, points_append, hitem, htail, List.map_cons, List.sum_cons]

theorem points_formulaText (f : Formula) : points f.text.toList + nonfinite f.body.floats = f.points := by
  have hbody := points_bodyText f.body
  have hbinding (b : Binding) : points b.text.toList = points b.var.toList := by
    have hkeyword : points b.domain.keyword.toList = 0 := by
      cases b.domain <;> rfl
    have hin : points " in ".toList = 0 := rfl
    rw [Binding.text, String.toList_append, String.toList_append, points_append, points_append, hkeyword, hin]
    rfl
  have hbars : points " ||".toList = 0 := rfl
  have hbindings :
      points (if f.bindings.isEmpty then "" else " " ++ ", ".intercalate (f.bindings.map Binding.text)).toList =
        (f.bindings.map fun b => points b.var.toList).sum := by
    cases hempty : f.bindings.isEmpty with
    | true =>
      rw [List.isEmpty_iff.1 hempty]
      rfl
    | false =>
      have hblank : points " ".toList = 0 := rfl
      rw [if_neg Bool.false_ne_true, String.toList_append, points_append, points_itemsText hbinding, hblank,
        Nat.zero_add]
  rw [Formula.text, String.toList_append, String.toList_append, points_append, points_append, hbindings, hbars,
    Formula.points]
  omega

theorem points_subformulaText (d : Subformula) : points d.text.toList + nonfinite d.body.floats = d.points := by
  have hbody := points_bodyText d.body
  have hparams : points (", ".intercalate (d.params.map id)).toList = (d.params.map fun p => points p.toList).sum :=
    points_itemsText (fun _ => rfl) d.params
  rw [List.map_id] at hparams
  have hopen : points "(".toList = 0 := rfl
  have hdefine : points ") := ".toList = 0 := rfl
  simp only [Subformula.text, String.toList_append, points_append, hopen, hdefine, hparams, Subformula.points]
  omega

/-! ## Printed texts -/

/-- every list of floats reads back as far as it is finite -/
theorem allReadBack (xs : List Float) : AllReadBack xs := fun _ _ => readsBack_of_isFinite

theorem parse_bodyText_iff {text : String} {b : Body} (h : Body.parse text = .ok b) :
    Body.parse b.text = .ok b ↔ AllFinite b.floats := by
  constructor
  · intro hread
    have hprinted := points_bodyText b
    rw [(body_accepted hread).2] at hprinted
    exact nonfinite_eq_zero.1 (by omega)
  · exact fun hfinite => parse_body_text ((body_accepted h).1 hfinite) (allReadBack _)

theorem parse_formulaText_iff {text : String} {f : Formula} (h : Formula.parse text = .ok f) :
    Formula.parse f.text = .ok f ↔ AllFinite f.body.floats := by
  constructor
  · intro hread
    have hprinted := points_formulaText f
    rw [(formula_accepted hread).2] at hprinted
    exact nonfinite_eq_zero.1 (by omega)
  · exact fun hfinite => parse_formula_text ((formula_accepted h).1 hfinite) (allReadBack _)

theorem parse_subformulaText_iff {text : String} {d : Subformula} (h : Subformula.parse text = .ok d) :
    Subformula.parse d.text = .ok d ↔ AllFinite d.body.floats := by
  constructor
  · intro hread
    have hprinted := points_subformulaText d
    rw [(subformula_accepted hread).2] at hprinted
    exact nonfinite_eq_zero.1 (by omega)
  · exact fun hfinite => parse_subformula_text ((subformula_accepted h).1 hfinite) (allReadBack _)

/-! ### Comparisons with a number -/

/-- a comparison of a variable with a number -/
def comparisonChars (n : Numeral) : List Char := 'x' :: ' ' :: '=' :: ' ' :: n.chars

theorem reads_comparison {n : Numeral} (hn : n.Proper) {t : Term} (ht : n.term? = some t) {s rest : List Char}
    (hs : skipBlank s = comparisonChars n ++ rest) (hrest : EndsBody rest) :
    Reads (body s) (.compared .eq (.var "x") t) rest := by
  have hx : Reads (term (comparisonChars n ++ rest)) (.var "x") (' ' :: '=' :: ' ' :: (n.chars ++ rest)) :=
    reads_word (w := ['x']) (by decide) (endsTerm_space (by decide) (by decide) _) (skipBlank_cons (by decide) _)
  obtain ⟨c, w, hcw, hc⟩ := hn.opens
  have hblank : isBlank c = false := by
    obtain rfl | hc := hc
    · decide
    · exact isBlank_of_isWordPart (by simp [isWordPart, Char.isAlphanum, hc])
  have hnumber : Reads (term (' ' :: (n.chars ++ rest))) t rest :=
    reads_numeral hn ht hrest.toEndsTerm (by rw [skipBlank_space, hcw, List.cons_append, skipBlank_cons hblank])
  have hcompared := reads_compared hx (comparison?_symbol .eq (by rintro c ⟨⟩; decide)) hnumber
  refine reads_body (reads_unary ?_) hrest
  rw [hs]
  refine reads_operand_of_term ?_ (fails_quantified ?_) hcompared
  · rintro d ⟨⟩
    decide
  · rintro q d r h - hq
    cases h
    exact absurd hq (by decide)

theorem parse_comparison {n : Numeral} (hn : n.Proper) {t : Term} (ht : n.term? = some t) :
    Body.parse (String.ofList (comparisonChars n)) = .ok (.compared .eq (.var "x") t) := by
  refine whole_eq_ok (reads_comparison hn ht ?_ endsBody_nil) .body
  rw [String.toList_ofList, List.append_nil]
  exact skipBlank_cons (by decide) _

/-- a number with a zero at the end, which is not printed -/
def decimalNumeral : Numeral := ⟨false, ['1'], ['5', '0']⟩

def decimalBody : Body := .compared .eq (.var "x") (.float 1.5)

theorem decimalNumeral_proper : decimalNumeral.Proper where
  nonempty := List.cons_ne_nil _ _
  whole := List.forall_mem_singleton.2 rfl
  fraction := List.forall_mem_cons.2 ⟨rfl, List.forall_mem_singleton.2 rfl⟩

theorem decimalNumeral_term : decimalNumeral.term? = some (.float 1.5) := by
  have h : Number.ofDecimal 150 (-2) = 1.5 := by decide +kernel
  exact congrArg (fun x => some (Term.float x)) h

theorem decimalBody_floats : ∀ x ∈ decimalBody.floats, x.isFinite = true := by
  intro x hx
  rw [List.mem_singleton.1 hx]
  decide +kernel

/-- a number larger than every double -/
def largeNumeral : Numeral := ⟨false, '1' :: List.replicate 309 '0', ['0']⟩

theorem largeNumeral_proper : largeNumeral.Proper where
  nonempty := List.cons_ne_nil _ _
  whole := List.forall_mem_cons.2 ⟨rfl, fun c hc => by rw [List.eq_of_mem_replicate hc]; rfl⟩
  fraction := List.forall_mem_singleton.2 rfl

theorem ofDecimal_large : Number.ofDecimal (10 ^ 310) (-1) = Float.ofBits 0x7FF0000000000000 := by
  have hlength (k : Nat) : (toString (10 ^ k)).length ≤ k + 1 :=
    (Nat.length_repr_le_iff (Nat.succ_pos k)).2 (Nat.pow_lt_pow_right (by decide) (Nat.lt_succ_self k))
  have hlength := hlength 310
  have hread : Float.ofScientific (10 ^ 310) true 1 = Float.ofBits 0x7FF0000000000000 := by
    decide +kernel
  unfold Number.ofDecimal
  rw [if_neg (by positivity), if_neg (by omega), if_neg (by omega)]
  exact hread

theorem largeNumeral_term : largeNumeral.term? = some (.float (Float.ofBits 0x7FF0000000000000)) := by
  have hterm (whole : List Char) : (⟨false, whole, ['0']⟩ : Numeral).term? =
      some (.float (Number.ofDecimal (ofDigits (whole ++ ['0'])) (-1))) := rfl
  have hdigits : ofDigits ('1' :: List.replicate 309 '0' ++ ['0']) = 10 ^ 310 := by
    have hone : ofDigits ['1'] = 1 := rfl
    have hzeros : '1' :: List.replicate 309 '0' ++ ['0'] = ['1'] ++ List.replicate 310 '0' := by
      have hsucc : List.replicate (309 + 1) '0' = List.replicate 309 '0' ++ ['0'] := List.replicate_succ'
      rw [hsucc]
      rfl
    rw [hzeros, ofDigits_append, ofDigits_replicate, hone, List.length_replicate, Nat.mul_one, Nat.add_zero]
  rw [largeNumeral, hterm, hdigits, ofDecimal_large]

/-! ### Accepted texts -/

/-- **Reading what was printed.** What an accepted text is read as is printed as a text that is read as the same,
exactly if all floats in it are finite. -/
theorem parse_accepted_iff (text : String) :
    (∀ b, Body.parse text = .ok b → (Body.parse b.text = .ok b ↔ ∀ x ∈ b.floats, x.isFinite = true)) ∧
    (∀ f, Formula.parse text = .ok f → (Formula.parse f.text = .ok f ↔ ∀ x ∈ f.body.floats, x.isFinite = true)) ∧
    (∀ d, Subformula.parse text = .ok d →
      (Subformula.parse d.text = .ok d ↔ ∀ x ∈ d.body.floats, x.isFinite = true)) :=
  ⟨fun _ => parse_bodyText_iff, fun _ => parse_formulaText_iff, fun _ => parse_subformulaText_iff⟩

theorem parse_accepted_decimal :
    (Body.parse "x = 1.50" = .ok decimalBody ∧ Body.parse "x = 1.5" = .ok decimalBody) ∧
    (Formula.parse "x = 1.50 || x in L" = .ok ⟨decimalBody, [⟨"x", .lanelets⟩]⟩ ∧
      Formula.parse "x = 1.5 || x in L" = .ok ⟨decimalBody, [⟨"x", .lanelets⟩]⟩) ∧
    (Subformula.parse "p(x) := x = 1.50" = .ok ⟨"p", ["x"], decimalBody⟩ ∧
      Subformula.parse "p(x) := x = 1.5" = .ok ⟨"p", ["x"], decimalBody⟩) := by
  have hread {s rest : List Char} (hs : skipBlank s = comparisonChars decimalNumeral ++ rest) (hrest : EndsBody rest) :
      Reads (body s) decimalBody rest :=
    reads_comparison decimalNumeral_proper decimalNumeral_term hs hrest
  have hbody : Body.parse "x = 1.50" = .ok decimalBody := whole_eq_ok (hread rfl endsBody_nil) .body
  have hformula : Formula.parse "x = 1.50 || x in L" = .ok ⟨decimalBody, [⟨"x", .lanelets⟩]⟩ := by
    have hbindings : Reads (items binding " x in L".toList) [⟨"x", .lanelets⟩] [] :=
      reads_itemsText (fun b hb => readsText_binding (by rw [List.mem_singleton.1 hb]; decide)) (by rintro c ⟨⟩)
        (by rintro c ⟨⟩) (List.cons_ne_nil _ _) rfl
    have hwhole : Reads (formula "x = 1.50 || x in L".toList) ⟨decimalBody, [⟨"x", .lanelets⟩]⟩ [] :=
      reads_formula (hread rfl (endsBody_bars _)) rfl hbindings
    rw [Formula.parse, whole_eq_ok hwhole]
    rfl
  have hsubformula : Subformula.parse "p(x) := x = 1.50" = .ok ⟨"p", ["x"], decimalBody⟩ := by
    have hname : Reads (parameter "p(x) := x = 1.50".toList) "p" "(x) := x = 1.50".toList :=
      (readsText_parameter (by decide)).reads (by rintro c ⟨⟩; decide) rfl
    have hparams : Reads (items parameter "x) := x = 1.50".toList) ["x"] ") := x = 1.50".toList :=
      reads_itemsText (fun p hp => readsText_parameter (by rw [List.mem_singleton.1 hp]; decide))
        (by rintro c ⟨⟩; decide) (by rintro c ⟨⟩; decide) (List.cons_ne_nil _ _) rfl
    have hwhole : Reads (subformula "p(x) := x = 1.50".toList) ⟨"p", ["x"], decimalBody⟩ [] :=
      reads_subformula hname rfl hparams rfl rfl (hread rfl endsBody_nil)
    rw [Subformula.parse, whole_eq_ok hwhole]
    rfl
  have htext : decimalBody.text = "x = 1.5" := by decide +kernel
  have hformulaText : Formula.text ⟨decimalBody, [⟨"x", .lanelets⟩]⟩ = "x = 1.5 || x in L" := by decide +kernel
  have hsubformulaText : Subformula.text ⟨"p", ["x"], decimalBody⟩ = "p(x) := x = 1.5" := by decide +kernel
  refine ⟨⟨hbody, ?_⟩, ⟨hformula, ?_⟩, ⟨hsubformula, ?_⟩⟩
  · rw [← htext]
    exact ((parse_accepted_iff _).1 _ hbody).2 decimalBody_floats
  · rw [← hformulaText]
    exact ((parse_accepted_iff _).2.1 _ hformula).2 decimalBody_floats
  · rw [← hsubformulaText]
    exact ((parse_accepted_iff _).2.2 _ hsubformula).2 decimalBody_floats

/-- the text `x = 1000…0.0` is accepted, and what it is read as is printed as `x = inf`, which names a variable -/
theorem parse_largeNumeral : ∃ b,
    Body.parse (String.ofList (comparisonChars largeNumeral)) = .ok b ∧ b.text = "x = inf" ∧
      Body.parse b.text ≠ .ok b := by
  refine ⟨_, parse_comparison largeNumeral_proper largeNumeral_term, by decide +kernel, ?_⟩
  have hread : Body.parse "x = inf" = .ok (.compared .eq (.var "x") (.var "inf")) :=
    parse_body_text (b := .compared .eq (.var "x") (.var "inf")) (by decide) (allReadBack _)
  have htext : Body.text (.compared .eq (.var "x") (.float (Float.ofBits 0x7FF0000000000000))) = "x = inf" := by
    decide +kernel
  rw [htext, hread]
  intro h
  cases h

end Grammar

end RoadRules
