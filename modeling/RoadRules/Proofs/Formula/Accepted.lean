/-
What is read off a text.

Every form takes from the text what it is written with: the names are words, the strings hold no quotes, and no
variable or range is a word that means something else. So the tree is well-formed as far as its floats are finite
(`Readable`), and as many points are gone from the text as the tree is written with (`Taken`).

- `term_taken`, `body_taken`: terms and bodies, along the recursion of the grammar.
- `items_taken`, `formula_taken`, `subformula_taken`: declarations.
- `body_accepted`, `formula_accepted`, `subformula_accepted`: whole texts.
-/
import RoadRules.Proofs.Formula.Lexemes
import RoadRules.Proofs.Formula.Printing

namespace RoadRules

namespace Grammar

/-- the value is as it should be, and what was taken for it has as many points as it is written with -/
structure Taken {α : Type} (good : α → Prop) (size : α → Nat) (s : List Char) (a : α) (rest : List Char) : Prop where
  good : good a
  points : points s = size a + points rest

end Grammar

namespace Formula

open Grammar (isName)

/-! ## Terms -/

mutual

/-- the points that a term is written with, if its floats are -/
def Term.points : Term → Nat
  | .var name => Grammar.points name.toList
  | .int _ | .bool _ => 0
  | .float _ => 1
  | .str text => Grammar.points text.toList
  | .call name args => Grammar.points name.toList + Term.allPoints args

def Term.allPoints : List Term → Nat
  | [] => 0
  | t :: rest => t.points + Term.allPoints rest

end

/-- these floats are numbers -/
def AllFinite (xs : List Float) : Prop := ∀ x ∈ xs, x.isFinite = true

theorem AllFinite.of_append {xs ys : List Float} (h : AllFinite (xs ++ ys)) : AllFinite xs ∧ AllFinite ys :=
  ⟨fun x hx => h x (List.mem_append_left ys hx), fun x hx => h x (List.mem_append_right xs hx)⟩

/-- well-formed as far as the floats are finite -/
def Term.Readable (t : Term) : Prop := AllFinite t.floats → t.wellFormed = true

def Term.AllReadable (ts : List Term) : Prop := AllFinite (Term.allFloats ts) → Term.allWellFormed ts = true

theorem Term.AllReadable.nil : Term.AllReadable [] := fun _ => rfl

theorem Term.AllReadable.cons {t : Term} {ts : List Term} (ht : t.Readable) (hts : Term.AllReadable ts) :
    Term.AllReadable (t :: ts) := by
  intro h
  obtain ⟨h, hs⟩ := AllFinite.of_append h
  rw [Term.allWellFormed, ht h, hts hs, Bool.and_self]

theorem Term.Readable.call {name : String} {args : List Term} (hname : isName name.toList = true)
    (hargs : Term.AllReadable args) : (Term.call name args).Readable := by
  intro h
  rw [Term.wellFormed, hname, hargs h, Bool.and_self]

end Formula

namespace Grammar

open Formula

theorem wordTerm_readable {name : String} (h : isName name.toList = true) :
    (wordTerm name).Readable ∧ (wordTerm name).points = points name.toList := by
  unfold wordTerm
  split_ifs with htrue hfalse
  · exact ⟨fun _ => rfl, by subst htrue; rfl⟩
  · exact ⟨fun _ => rfl, by subst hfalse; rfl⟩
  · exact ⟨fun _ => by simp [Term.wellFormed, h, htrue, hfalse], rfl⟩

theorem numeral_readable {n : Numeral} {t : Term} (h : n.term? = some t) :
    t.Readable ∧ t.points = if n.fraction.isEmpty then 0 else 1 := by
  rw [Numeral.term?] at h
  split at h
  · next hfraction =>
    simp only [Option.ite_none_right_eq_some] at h
    obtain ⟨-, h⟩ := h
    cases h
    exact ⟨fun _ => rfl, (if_pos hfraction).symm⟩
  · next hfraction =>
    cases h
    exact ⟨fun hfinite => hfinite _ (List.mem_singleton_self _), (if_neg hfraction).symm⟩

mutual

/-- **Terms.** One that is read is well-formed, as far as its floats are finite. -/
theorem term_taken {s : List Char} {v : Read Term s} (h : term s = .ok v) :
    Taken Term.Readable Term.points s v.value v.rest := by
  rw [term] at h
  dsimp only at h
  split at h
  · next r hr =>
    cases h
    obtain ⟨hquote, htext⟩ := quoted?_spec hr
    refine ⟨fun _ => List.all_eq_true.2 fun c hc => bne_iff_ne.2 fun heq => hquote (heq ▸ hc), ?_⟩
    calc points s = points (skipBlank s) := (points_skipBlank s).symm
      _ = points ('"' :: (r.value.toList ++ '"' :: r.rest)) := congrArg points htext
      _ = points r.value.toList + points r.rest := by
        rw [points_cons (by decide), points_append, points_cons (by decide)]
  · split at h
    · next r hr =>
      split at h
      · next value hvalue =>
        cases h
        obtain ⟨hreadable, hpoints⟩ := numeral_readable hvalue
        exact ⟨hreadable, by rw [← points_skipBlank, numeral?_points hr, hpoints]⟩
      · cases h
    · split at h
      · cases h
      · next w hw =>
        have lt : w.rest.length < s.length := Nat.lt_of_lt_of_le w.shorter (skipBlank_length_le s)
        obtain ⟨hname, htext⟩ := word?_spec hw
        have hpoints : points s = points w.value.toList + points w.rest := by
          rw [← points_skipBlank, ← points_append, ← htext]
        split at h
        · cases h
        · next args hargs =>
          cases h
          have hargs := arguments?_taken hargs
          refine ⟨Term.Readable.call hname hargs.good, ?_⟩
          rw [hpoints, hargs.points, Term.points, Nat.add_assoc]
        · cases h
          obtain ⟨hreadable, hsize⟩ := wordTerm_readable hname
          exact ⟨hreadable, by rw [hsize, hpoints]⟩
termination_by 8 * s.length + 0

theorem arguments?_taken {s : List Char} {v : Read (List Term) s} (h : arguments? s = .ok (some v)) :
    Taken Term.AllReadable Term.allPoints s v.value v.rest := by
  rw [arguments?] at h
  split at h
  · cases h
  · next inside lt hopen =>
    split at h
    · cases h
    · next args rest le hterms =>
      split at h
      · cases h
      · next rest' lt' hclose =>
        cases h
        have hargs := terms_taken hterms
        refine ⟨hargs.good, ?_⟩
        rw [afterMark?_points (by decide) hopen, hargs.points, afterMark?_points (by decide) hclose]
termination_by 8 * s.length + 0

theorem terms_taken {s : List Char} {v : List Term × { rest : List Char // rest.length ≤ s.length }}
    (h : terms s = .ok v) : Taken Term.AllReadable Term.allPoints s v.1 v.2.1 := by
  rw [terms] at h
  split at h
  · cases h
    exact ⟨Term.AllReadable.nil, (Nat.zero_add _).symm⟩
  · cases h
  · next first hfirst =>
    have lt := first.shorter
    dsimp only at h
    split at h
    · cases h
    · next others rest le hothers =>
      cases h
      have hfirst := term_taken hfirst
      have hothers := moreTerms_taken hothers
      refine ⟨.cons hfirst.good hothers.good, ?_⟩
      rw [hfirst.points, hothers.points, Term.allPoints, Nat.add_assoc]
termination_by 8 * s.length + 1

theorem moreTerms_taken {s : List Char} {v : List Term × { rest : List Char // rest.length ≤ s.length }}
    (h : moreTerms s = .ok v) : Taken Term.AllReadable Term.allPoints s v.1 v.2.1 := by
  rw [moreTerms] at h
  split at h
  · cases h
    exact ⟨Term.AllReadable.nil, (Nat.zero_add _).symm⟩
  · next next lt hcomma =>
    split at h
    · cases h
      exact ⟨Term.AllReadable.nil, (Nat.zero_add _).symm⟩
    · cases h
    · next item hitem =>
      have lt' := item.shorter
      dsimp only at h
      split at h
      · cases h
      · next others rest le hothers =>
        cases h
        have hitem := term_taken hitem
        have hothers := moreTerms_taken hothers
        refine ⟨.cons hitem.good hothers.good, ?_⟩
        rw [afterMark?_points (by decide) hcomma, hitem.points, hothers.points, Term.allPoints, Nat.add_assoc]
termination_by 8 * s.length + 0

end

end Grammar

namespace Formula

open Grammar (isName)

/-! ## Bodies -/

/-- the points that a range is written with -/
def Range.points : Range → Nat
  | .domain _ => 0
  | .term t => t.points

/-- the points that a body is written with -/
def Body.points : Body → Nat
  | .quantified _ var range body => Grammar.points var.toList + range.points + 1 + body.points
  | .not inner => inner.points
  | .connected _ lhs rhs => lhs.points + rhs.points
  | .predicate name args => Grammar.points name.toList + Term.allPoints args
  | .compared _ lhs rhs => lhs.points + rhs.points
  | .literal _ => 0

def Range.Readable (r : Range) : Prop := AllFinite r.floats → r.wellFormed = true

def Body.Readable (b : Body) : Prop := AllFinite b.floats → b.wellFormed = true

namespace Body.Readable

theorem quantified {q : Quantifier} {var : String} {range : Range} {body : Body} (hvar : isName var.toList = true)
    (hrange : range.Readable) (hbody : body.Readable) : (Body.quantified q var range body).Readable := by
  intro h
  obtain ⟨h, h'⟩ := AllFinite.of_append h
  rw [Body.wellFormed, hvar, hrange h, hbody h', Bool.and_self, Bool.and_self]

theorem connected {op : Connective} {lhs rhs : Body} (hl : lhs.Readable) (hr : rhs.Readable) :
    (Body.connected op lhs rhs).Readable := by
  intro h
  obtain ⟨h, h'⟩ := AllFinite.of_append h
  rw [Body.wellFormed, hl h, hr h', Bool.and_self]

theorem compared {op : Comparison} {lhs rhs : Term} (hl : lhs.Readable) (hr : rhs.Readable) :
    (Body.compared op lhs rhs).Readable := by
  intro h
  obtain ⟨h, h'⟩ := AllFinite.of_append h
  rw [Body.wellFormed, hl h, hr h', Bool.and_self]

end Body.Readable

end Formula

namespace Grammar

open Formula

theorem ofKeyword?_points {name : String} {d : Domain} (h : Domain.ofKeyword? name = some d) :
    points name.toList = 0 := by
  have hd := List.find?_some h
  rw [← beq_iff_eq.1 hd]
  cases d <;> decide

theorem rangeOf_readable {t : Term} (ht : t.Readable) : (rangeOf t).Readable ∧ (rangeOf t).points = t.points := by
  cases t with
  | var name =>
    cases h : Domain.ofKeyword? name with
    | none =>
      simp only [rangeOf, h]
      exact ⟨fun hfinite => by rw [Range.wellFormed, ht hfinite, h]; rfl, rfl⟩
    | some d =>
      simp only [rangeOf, h]
      exact ⟨fun _ => rfl, (ofKeyword?_points h).symm⟩
  | int value => exact ⟨ht, rfl⟩
  | float value => exact ⟨ht, rfl⟩
  | str text => exact ⟨ht, rfl⟩
  | bool value => exact ⟨ht, rfl⟩
  | call name args => exact ⟨ht, rfl⟩

section Bodies

variable {s : List Char}

theorem head_taken {v : Read Head s} (h : head s = .ok v) :
    Taken (fun d => isName d.var.toList = true ∧ d.range.Readable)
      (fun d => points d.var.toList + d.range.points + 1) s v.value v.rest := by
  unfold head at h
  split at h
  · cases h
  · next q hq =>
    split at h
    · cases h
    · next w hw =>
      split at h
      · cases h
      · next r lt hin =>
        split at h
        · cases h
        · next range hrange =>
          split at h
          · cases h
          · next rest lt' hpoint =>
            cases h
            obtain ⟨hname, htext⟩ := word?_spec hw
            have hterm := term_taken hrange
            obtain ⟨hreadable, hsize⟩ := rangeOf_readable hterm.good
            refine ⟨⟨hname, hreadable⟩, ?_⟩
            have hword : points (skipBlank q.rest) = points w.value.toList + points w.rest := by
              rw [← points_append, ← htext]
            have hbehind : points range.rest = 1 + points rest := by
              rw [← points_skipBlank, afterMark?_spec hpoint, points_point]
            have hafter := afterIn_points hin
            have hquantifier := quantifier?_points hq
            have hrange := hterm.points
            rw [points_skipBlank] at hword
            dsimp only at hafter ⊢
            omega

theorem compared_taken {v : Read Body s} (h : compared s = .ok v) :
    Taken Body.Readable Body.points s v.value v.rest := by
  unfold compared at h
  split at h
  · cases h
  · next lhs hlhs =>
    split at h
    · cases h
    · next op hop =>
      split at h
      · cases h
      · next rhs hrhs =>
        cases h
        have hl := term_taken hlhs
        have hr := term_taken hrhs
        refine ⟨.compared hl.good hr.good, ?_⟩
        rw [hl.points, ← points_skipBlank lhs.rest, comparison?_points hop, hr.points, Body.points, Nat.add_assoc]

theorem predicate_taken {v : Read Body s} (h : predicate s = .ok v) :
    Taken Body.Readable Body.points s v.value v.rest := by
  unfold predicate at h
  split at h
  · cases h
  · next t ht =>
    have hterm := term_taken ht
    split at h
    · next name args hvalue =>
      cases h
      rw [hvalue] at hterm
      exact ⟨hterm.good, hterm.points⟩
    · next value hvalue =>
      cases h
      rw [hvalue] at hterm
      exact ⟨fun _ => rfl, hterm.points⟩
    · cases h

/-- what one of two alternatives is read as -/
theorem orElse_eq_ok {α : Type} {first : Reading α s} {second : Unit → Reading α s} {v : Read α s}
    (h : first.orElse second = .ok v) : first = .ok v ∨ second () = .ok v := by
  unfold Reading.orElse at h
  split at h
  · exact Or.inr h
  · exact Or.inl h

/-- a body goes on with more operands -/
structure Extended (lhs : Body) (s : List Char) (b : Body) (rest : List Char) : Prop where
  good : b.Readable
  points : lhs.points + points s = b.points + points rest

namespace Extended

variable {lhs rhs b : Body} {next rest rest' : List Char}

theorem refl (hl : lhs.Readable) (s : List Char) : Extended lhs s lhs s := ⟨hl, rfl⟩

/-- one operand, with a connective in front of it -/
theorem step {op : Connective} (hl : lhs.Readable) (hmark : Grammar.points s = Grammar.points next)
    (hr : Taken Body.Readable Body.points next rhs rest) (h : (Body.connected op lhs rhs).Readable →
      Extended (.connected op lhs rhs) rest b rest') : Extended lhs s b rest' := by
  have hb := h (.connected hl hr.good)
  refine ⟨hb.good, ?_⟩
  rw [← hb.points, Body.points, hmark, hr.points, Nat.add_assoc]

end Extended

theorem Taken.extend {lhs b : Body} {next rest : List Char} (hl : Taken Body.Readable Body.points s lhs next)
    (h : Extended lhs next b rest) : Taken Body.Readable Body.points s b rest :=
  ⟨h.good, hl.points.trans h.points⟩

end Bodies

mutual

/-- **Bodies.** One that is read is well-formed, as far as its floats are finite. -/
theorem body_taken {s : List Char} {v : Read Body s} (h : body s = .ok v) :
    Taken Body.Readable Body.points s v.value v.rest := by
  rw [body] at h
  split at h
  · cases h
  · next lhs hlhs =>
    have lt := lhs.shorter
    dsimp only at h
    split at h
    · cases h
    · next b rest le hmore =>
      cases h
      have hl := implication_taken hlhs
      exact hl.extend (moreEquivalences_extended hl.good hmore)
termination_by 8 * s.length + 6

theorem moreEquivalences_extended {s : List Char} {lhs : Body} (hl : lhs.Readable)
    {v : Body × { rest : List Char // rest.length ≤ s.length }} (h : moreEquivalences lhs s = .ok v) :
    Extended lhs s v.1 v.2.1 := by
  rw [moreEquivalences] at h
  split at h
  · cases h
    exact .refl hl s
  · next next lt hmark =>
    split at h
    · cases h
    · next rhs hrhs =>
      have lt' := rhs.shorter
      dsimp only at h
      split at h
      · cases h
      · next b rest le hmore =>
        cases h
        exact .step hl (afterIff?_points hmark) (implication_taken hrhs) fun hl => moreEquivalences_extended hl hmore
termination_by 8 * s.length + 0

theorem implication_taken {s : List Char} {v : Read Body s} (h : implication s = .ok v) :
    Taken Body.Readable Body.points s v.value v.rest := by
  rw [implication] at h
  split at h
  · cases h
  · next lhs hlhs =>
    have lt := lhs.shorter
    have hl := disjunction_taken hlhs
    dsimp only at h
    split at h
    · cases h
      exact hl
    · next next lt' hmark =>
      split at h
      · cases h
      · next rhs hrhs =>
        cases h
        exact hl.extend (.step hl.good (afterImplies?_points hmark) (implication_taken hrhs) fun hb => .refl hb _)
termination_by 8 * s.length + 5

theorem disjunction_taken {s : List Char} {v : Read Body s} (h : disjunction s = .ok v) :
    Taken Body.Readable Body.points s v.value v.rest := by
  rw [disjunction] at h
  split at h
  · cases h
  · next lhs hlhs =>
    have lt := lhs.shorter
    dsimp only at h
    split at h
    · cases h
    · next b rest le hmore =>
      cases h
      have hl := conjunction_taken hlhs
      exact hl.extend (moreDisjuncts_extended hl.good hmore)
termination_by 8 * s.length + 4

theorem moreDisjuncts_extended {s : List Char} {lhs : Body} (hl : lhs.Readable)
    {v : Body × { rest : List Char // rest.length ≤ s.length }} (h : moreDisjuncts lhs s = .ok v) :
    Extended lhs s v.1 v.2.1 := by
  rw [moreDisjuncts] at h
  split at h
  · cases h
    exact .refl hl s
  · next next lt hmark =>
    split at h
    · cases h
    · next rhs hrhs =>
      have lt' := rhs.shorter
      dsimp only at h
      split at h
      · cases h
      · next b rest le hmore =>
        cases h
        exact .step hl (afterOr?_points hmark) (conjunction_taken hrhs) fun hl => moreDisjuncts_extended hl hmore
termination_by 8 * s.length + 0

theorem conjunction_taken {s : List Char} {v : Read Body s} (h : conjunction s = .ok v) :
    Taken Body.Readable Body.points s v.value v.rest := by
  rw [conjunction] at h
  split at h
  · cases h
  · next lhs hlhs =>
    have lt := lhs.shorter
    dsimp only at h
    split at h
    · cases h
    · next b rest le hmore =>
      cases h
      have hl := unary_taken hlhs
      exact hl.extend (moreConjuncts_extended hl.good hmore)
termination_by 8 * s.length + 3

theorem moreConjuncts_extended {s : List Char} {lhs : Body} (hl : lhs.Readable)
    {v : Body × { rest : List Char // rest.length ≤ s.length }} (h : moreConjuncts lhs s = .ok v) :
    Extended lhs s v.1 v.2.1 := by
  rw [moreConjuncts] at h
  split at h
  · cases h
    exact .refl hl s
  · next next lt hmark =>
    split at h
    · cases h
    · next rhs hrhs =>
      have lt' := rhs.shorter
      dsimp only at h
      split at h
      · cases h
      · next b rest le hmore =>
        cases h
        exact .step hl (afterMark?_points (by decide) hmark) (unary_taken hrhs) fun hl =>
          moreConjuncts_extended hl hmore
termination_by 8 * s.length + 0

theorem unary_taken {s : List Char} {v : Read Body s} (h : unary s = .ok v) :
    Taken Body.Readable Body.points s v.value v.rest := by
  have le := skipBlank_length_le s
  rw [unary] at h
  split at h
  · cases h
  · next r hr =>
    cases h
    obtain ⟨hgood, hpoints⟩ := operand_taken hr
    exact ⟨hgood, (points_skipBlank s).symm.trans hpoints⟩
termination_by 8 * s.length + 2

theorem operand_taken {s : List Char} {v : Read Body s} (h : operand s = .ok v) :
    Taken Body.Readable Body.points s v.value v.rest := by
  rw [operand] at h
  obtain h | h := orElse_eq_ok h
  · exact negation_taken h
  obtain h | h := orElse_eq_ok h
  · exact quantified_taken h
  obtain h | h := orElse_eq_ok h
  · exact parenthesized_taken h
  obtain h | h := orElse_eq_ok h
  · exact compared_taken h
  · exact predicate_taken h
termination_by 8 * s.length + 1

theorem negation_taken {s : List Char} {v : Read Body s} (h : negation s = .ok v) :
    Taken Body.Readable Body.points s v.value v.rest := by
  rw [negation] at h
  split at h
  · cases h
  · next next lt hmark =>
    split at h
    · cases h
    · next inner hinner =>
      cases h
      obtain ⟨hgood, hpoints⟩ := unary_taken hinner
      exact ⟨hgood, (afterNot?_points hmark).trans hpoints⟩
termination_by 8 * s.length + 0

theorem quantified_taken {s : List Char} {v : Read Body s} (h : quantified s = .ok v) :
    Taken Body.Readable Body.points s v.value v.rest := by
  rw [quantified] at h
  split at h
  · cases h
  · next d hd =>
    have lt := d.shorter
    dsimp only at h
    split at h
    · cases h
    · next b hb =>
      cases h
      obtain ⟨⟨hvar, hrange⟩, hhead⟩ := head_taken hd
      obtain ⟨hgood, hpoints⟩ := body_taken hb
      exact ⟨.quantified hvar hrange hgood, by rw [hhead, hpoints, Body.points, Nat.add_assoc _ _ (points b.rest)]⟩
termination_by 8 * s.length + 0

theorem parenthesized_taken {s : List Char} {v : Read Body s} (h : parenthesized s = .ok v) :
    Taken Body.Readable Body.points s v.value v.rest := by
  rw [parenthesized] at h
  split at h
  · cases h
  · next inside lt hopen =>
    split at h
    · cases h
    · next b hb =>
      split at h
      · cases h
      · next rest lt' hclose =>
        cases h
        obtain ⟨hgood, hpoints⟩ := body_taken hb
        have hinside : points s = points inside := by
          rw [afterChar?_spec hopen, points_cons (by decide)]
        exact ⟨hgood, by rw [hinside, hpoints, afterMark?_points (by decide) hclose]⟩
termination_by 8 * s.length + 0

end

end Grammar

/-- the points that a formula is written with -/
def Formula.points (f : Formula) : Nat := f.body.points + (f.bindings.map fun b => Grammar.points b.var.toList).sum

/-- the points that a subformula is written with -/
def Subformula.points (d : Subformula) : Nat :=
  Grammar.points d.name.toList + (d.params.map fun p => Grammar.points p.toList).sum + d.body.points

namespace Grammar

open Formula

/-! ## Declarations -/

section Declarations

variable {s : List Char}

theorem parameter_taken {v : Read String s} (h : parameter s = .ok v) :
    Taken (fun p => isName p.toList = true) (fun p => points p.toList) s v.value v.rest := by
  unfold parameter at h
  split at h
  · cases h
  · next w hw =>
    cases h
    obtain ⟨hname, htext⟩ := word?_spec hw
    have hpoints : points (skipBlank s) = points w.value.toList + points w.rest := by
      rw [← points_append, ← htext]
    exact ⟨hname, (points_skipBlank s).symm.trans hpoints⟩

theorem binding_taken {v : Read Binding s} (h : binding s = .ok v) :
    Taken (fun b => isName b.var.toList = true) (fun b => points b.var.toList) s v.value v.rest := by
  unfold binding at h
  split at h
  · cases h
  · next w hw =>
    split at h
    · cases h
    · next r lt hin =>
      split at h
      · cases h
      · next d hd =>
        split at h
        · cases h
        · next domain hdomain =>
          cases h
          obtain ⟨hname, htext⟩ := word?_spec hw
          obtain ⟨-, hkeyword⟩ := word?_spec hd
          have hword : points (skipBlank s) = points w.value.toList + points w.rest := by
            rw [← points_append, ← htext]
          have hbehind : points (skipBlank r) = points d.value.toList + points d.rest := by
            rw [← points_append, ← hkeyword]
          refine ⟨hname, ?_⟩
          rw [points_skipBlank] at hword hbehind
          rw [hword, afterIn_points hin, hbehind, ofKeyword?_points hdomain, Nat.zero_add]

section Items

variable {α : Type} {item : (s : List Char) → Reading α s} {good : α → Prop} {size : α → Nat}
  (hitem : ∀ {s : List Char} {v : Read α s}, item s = .ok v → Taken good size s v.value v.rest)

include hitem

theorem moreItems_taken {s : List Char} {v : List α × { rest : List Char // rest.length ≤ s.length }}
    (h : moreItems item s = .ok v) :
    Taken (fun as => ∀ a ∈ as, good a) (fun as => (as.map size).sum) s v.1 v.2.1 := by
  have hnil : Taken (fun as => ∀ a ∈ as, good a) (fun as => (as.map size).sum) s [] s :=
    ⟨fun _ h => absurd h List.not_mem_nil, (Nat.zero_add _).symm⟩
  rw [moreItems] at h
  split at h
  · cases h
    exact hnil
  · next next lt hcomma =>
    split at h
    · cases h
      exact hnil
    · cases h
    · next first hfirst =>
      have lt' := first.shorter
      dsimp only at h
      split at h
      · cases h
      · next others rest le hothers =>
        cases h
        have hfirst := hitem hfirst
        have hothers := moreItems_taken hothers
        refine ⟨List.forall_mem_cons.2 ⟨hfirst.good, hothers.good⟩, ?_⟩
        rw [afterMark?_points (by decide) hcomma, hfirst.points, hothers.points, List.map_cons, List.sum_cons,
          Nat.add_assoc]
termination_by s.length

theorem items_taken {v : Read (List α) s} (h : items item s = .ok v) :
    Taken (fun as => as ≠ [] ∧ ∀ a ∈ as, good a) (fun as => (as.map size).sum) s v.value v.rest := by
  unfold items at h
  split at h
  · cases h
  · next first hfirst =>
    split at h
    · cases h
    · next others rest le hothers =>
      cases h
      have hfirst := hitem hfirst
      have hothers := moreItems_taken hitem hothers
      refine ⟨⟨List.cons_ne_nil _ _, List.forall_mem_cons.2 ⟨hfirst.good, hothers.good⟩⟩, ?_⟩
      rw [hfirst.points, hothers.points, List.map_cons, List.sum_cons, Nat.add_assoc]

end Items

theorem formula_taken {v : Read Formula s} (h : formula s = .ok v) :
    Taken (fun f => f.body.Readable ∧ f.bindings ≠ [] ∧ ∀ b ∈ f.bindings, isName b.var.toList = true) Formula.points s
      v.value v.rest := by
  unfold formula at h
  split at h
  · cases h
  · next b hb =>
    split at h
    · cases h
    · next r lt hbars =>
      split at h
      · cases h
      · next bs hbs =>
        cases h
        have hb := body_taken hb
        have hbs := items_taken binding_taken hbs
        have hbars : points b.rest = points r := by
          rw [← points_skipBlank, afterToken?_spec hbars, points_append]
          exact Nat.zero_add _
        refine ⟨⟨hb.good, hbs.good⟩, ?_⟩
        rw [hb.points, hbars, hbs.points, Formula.points, Nat.add_assoc]

theorem subformula_taken {v : Read Subformula s} (h : subformula s = .ok v) :
    Taken (fun d => isName d.name.toList = true ∧ d.body.Readable ∧ d.params ≠ [] ∧
      ∀ p ∈ d.params, isName p.toList = true) Subformula.points s v.value v.rest := by
  unfold subformula at h
  split at h
  · cases h
  · next name hname =>
    split at h
    · cases h
    · next r lt hopen =>
      split at h
      · cases h
      · next params hparams =>
        split at h
        · cases h
        · next r' lt' hclose =>
          split at h
          · cases h
          · next r'' lt'' hdefine =>
            split at h
            · cases h
            · next b hb =>
              cases h
              have hname := parameter_taken hname
              have hparams := items_taken parameter_taken hparams
              have hb := body_taken hb
              have hdefine : points r' = points r'' := by
                rw [← points_skipBlank, afterToken?_spec hdefine, points_append]
                exact Nat.zero_add _
              refine ⟨⟨hname.good, hb.good, hparams.good⟩, ?_⟩
              rw [hname.points, afterMark?_points (by decide) hopen, hparams.points,
                afterMark?_points (by decide) hclose, hdefine, hb.points, Subformula.points]
              dsimp only
              omega

end Declarations

/-! ## Whole texts -/

theorem whole_taken {α : Type} {expected : Construct} {form : (s : List Char) → Reading α s} {good : α → Prop}
    {size : α → Nat} (hform : ∀ {s : List Char} {v : Read α s}, form s = .ok v → Taken good size s v.value v.rest)
    {text : String} {a : α} (h : whole expected form text = .ok a) : good a ∧ points text.toList = size a := by
  unfold whole at h
  dsimp only at h
  split at h
  · cases h
  · next r hr =>
    split at h
    · next hrest =>
      cases h
      have htaken := hform hr
      refine ⟨htaken.good, ?_⟩
      rw [htaken.points, ← points_skipBlank r.rest, hrest]
      rfl
    · cases h

theorem nodup_of_firstRepeated? {seen xs : List String} (hseen : seen.Nodup) (h : firstRepeated? seen xs = none) :
    (seen ++ xs).Nodup := by
  induction xs generalizing seen with
  | nil => rwa [List.append_nil]
  | cons x xs ih =>
    rw [firstRepeated?] at h
    split_ifs at h with hx
    have hx : x ∉ seen := by simpa using hx
    have hseen : (seen ++ [x]).Nodup := by
      rw [List.nodup_append]
      exact ⟨hseen, List.nodup_singleton x, fun a ha b hb => by rintro rfl; exact hx (List.mem_singleton.1 hb ▸ ha)⟩
    have hall := ih hseen h
    rwa [List.append_assoc] at hall

theorem body_accepted {text : String} {b : Body} (h : Body.parse text = .ok b) :
    b.Readable ∧ points text.toList = b.points :=
  whole_taken body_taken h

theorem formula_accepted {text : String} {f : Formula} (h : Formula.parse text = .ok f) :
    (AllFinite f.body.floats → f.WellFormed) ∧ points text.toList = f.points := by
  unfold Formula.parse at h
  split at h
  · cases h
  · next f' hf =>
    split at h
    · cases h
    · next hdistinct =>
      cases h
      obtain ⟨⟨hbody, hbound, hnames⟩, hpoints⟩ := whole_taken formula_taken hf
      exact ⟨fun hfinite => ⟨hbody hfinite, hbound, hnames, nodup_of_firstRepeated? List.nodup_nil hdistinct⟩, hpoints⟩

theorem subformula_accepted {text : String} {d : Subformula} (h : Subformula.parse text = .ok d) :
    (AllFinite d.body.floats → d.WellFormed) ∧ points text.toList = d.points := by
  unfold Subformula.parse at h
  split at h
  · cases h
  · next d' hd =>
    split at h
    · cases h
    · next hdistinct =>
      cases h
      obtain ⟨⟨hname, hbody, hparams, hnames⟩, hpoints⟩ := whole_taken subformula_taken hd
      exact ⟨fun hfinite => ⟨hname, hbody hfinite, hparams, hnames, nodup_of_firstRepeated? List.nodup_nil hdistinct⟩,
        hpoints⟩

end Grammar

end RoadRules
