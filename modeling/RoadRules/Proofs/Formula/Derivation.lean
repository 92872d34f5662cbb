/-
Every text that the grammar derives is read as the tree it is derived for.

- `Derives`: the lexemes that a tree may be written with, by level of precedence. Parentheses may stand around any
  operand, and around a quantifier unless it reaches to the end of what it stands in.
- `Spaced`, `LaidOut`: lexemes as text, with blanks between them.
- `Takes`: what a level of the grammar makes of a form and of what follows it. A loop goes on with the form as its
  left side, so this is said of every way the loop can go on (`takes_connected`).
- `takes_derived`: so each derived form is taken, by induction on its derivation.
- `parse_derived`: whole texts.
- `exists_derivation`: every well-formed tree has a derivation.
-/
import RoadRules.Proofs.Formula.Floats

namespace RoadRules

namespace Formula

open Grammar (Numeral)

/-! ## Derivations -/

mutual

/-- the lexemes of a term; a number may be written in any way that stands for it -/
def Term.Spelt : Term → List String → Prop
  | .var name, ts => ts = [name]
  | .int value, ts => ∃ n : Numeral, n.Proper ∧ n.term? = some (.int value) ∧ ts = [String.ofList n.chars]
  | .float value, ts => ∃ n : Numeral, n.Proper ∧ n.term? = some (.float value) ∧ ts = [String.ofList n.chars]
  | .str text, ts => ts = ["\"" ++ text ++ "\""]
  | .bool value, ts => ts = [if value then "true" else "false"]
  | .call name args, ts => ∃ inside, Term.ListSpelt args inside ∧ ts = name :: "(" :: (inside ++ [")"])

/-- terms with commas between them -/
def Term.ListSpelt : List Term → List String → Prop
  | [], ts => ts = []
  | t :: rest, ts => ∃ first others, t.Spelt first ∧ Term.TailSpelt rest others ∧ ts = first ++ others

/-- the terms behind the first one, each with a comma in front -/
def Term.TailSpelt : List Term → List String → Prop
  | [], ts => ts = []
  | t :: rest, ts => ∃ first others, t.Spelt first ∧ Term.TailSpelt rest others ∧ ts = "," :: (first ++ others)

end

/-- levels of precedence, from the loosest to the tightest -/
inductive Level where
  | equivalence
  | implication
  | disjunction
  | conjunction
  | operand
  deriving DecidableEq

/-- the next tighter level; there is none behind operands -/
def Level.tighter : Level → Level
  | equivalence => implication
  | implication => disjunction
  | disjunction => conjunction
  | conjunction | operand => operand

namespace Connective

def level : Connective → Level
  | .iff => .equivalence
  | .implies => .implication
  | .or => .disjunction
  | .and => .conjunction

/-- the left side of an arrow binds tighter than the arrow -/
def leftLevel : Connective → Level
  | .implies => .disjunction
  | op => op.level

/-- all other connectives have a right side that binds tighter -/
def rightLevel : Connective → Level
  | .implies => .implication
  | op => op.level.tighter

end Connective

/-- The lexemes `ts` stand for the body at a level. The form is the last one if a closing parenthesis or the end of the
text comes behind it; only then a quantifier needs no parentheses. -/
inductive Derives : Level → (last : Bool) → Body → List String → Prop
  | tighter (level : Level) {last : Bool} {b : Body} {ts : List String} :
      Derives level.tighter last b ts → Derives level last b ts
  | connected {op : Connective} {last : Bool} {l r : Body} {ls rs : List String} :
      Derives op.leftLevel false l ls → Derives op.rightLevel last r rs →
        Derives op.level last (.connected op l r) (ls ++ op.symbol :: rs)
  | not {last : Bool} {b : Body} {ts : List String} :
      Derives .operand last b ts → Derives .operand last (.not b) ("!" :: ts)
  | quantified {q : Quantifier} {var : String} {range : Range} {b : Body} {rs ts : List String} :
      (Grammar.termOfRange range).Spelt rs → Derives .equivalence true b ts →
        Derives .operand true (.quantified q var range b) (q.letter :: var :: "in" :: (rs ++ "." :: ts))
  | parenthesized {last : Bool} {b : Body} {ts : List String} :
      Derives .equivalence true b ts → Derives .operand last b ("(" :: (ts ++ [")"]))
  | compared {op : Comparison} {last : Bool} {l r : Term} {ls rs : List String} :
      l.Spelt ls → r.Spelt rs → Derives .operand last (.compared op l r) (ls ++ op.symbol :: rs)
  | predicate {name : String} {args : List Term} {last : Bool} {ts : List String} :
      (Term.call name args).Spelt ts → Derives .operand last (.predicate name args) ts
  | literal {value : Bool} {last : Bool} {ts : List String} :
      (Term.bool value).Spelt ts → Derives .operand last (.literal value) ts

theorem Derives.ne_nil {level : Level} {last : Bool} {b : Body} {ts : List String} (h : Derives level last b ts) :
    ts ≠ [] := by
  induction h with
  | tighter _ _ ih => exact ih
  | connected => simp
  | not => simp
  | quantified => simp
  | parenthesized => simp
  | compared => simp
  | predicate h =>
    obtain ⟨_, -, rfl⟩ := h
    simp
  | literal h =>
    obtain rfl := h
    simp

/-- an operand may stand at every level -/
theorem Derives.of_operand {last : Bool} {b : Body} {ts : List String} (h : Derives .operand last b ts)
    (level : Level) : Derives level last b ts := by
  have hconj : Derives .conjunction last b ts := .tighter .conjunction h
  have hdisj : Derives .disjunction last b ts := .tighter .disjunction hconj
  have himpl : Derives .implication last b ts := .tighter .implication hdisj
  cases level with
  | equivalence => exact .tighter .equivalence himpl
  | implication => exact himpl
  | disjunction => exact hdisj
  | conjunction => exact hconj
  | operand => exact h

/-- what stands at a level stands at the loosest one -/
theorem Derives.loosest {level : Level} {last : Bool} {b : Body} {ts : List String} (h : Derives level last b ts) :
    Derives .equivalence last b ts := by
  have of_impl (h : Derives .implication last b ts) : Derives .equivalence last b ts := .tighter .equivalence h
  have of_disj (h : Derives .disjunction last b ts) : Derives .equivalence last b ts :=
    of_impl (.tighter .implication h)
  cases level with
  | equivalence => exact h
  | implication => exact of_impl h
  | disjunction => exact of_disj h
  | conjunction => exact of_disj (.tighter .disjunction h)
  | operand => exact h.of_operand _

end Formula

namespace Grammar

open Formula

/-! ## Texts -/

/-- blanks, at least one -/
structure Gap (gap : List Char) : Prop where
  ne_nil : gap ≠ []
  blank : ∀ c ∈ gap, isBlank c = true

/-- lexemes as text, each behind a gap -/
inductive Spaced : List String → List Char → Prop
  | nil : Spaced [] []
  | cons {gap : List Char} {t : String} {ts : List String} {s : List Char} :
      Gap gap → Spaced ts s → Spaced (t :: ts) (gap ++ (t.toList ++ s))

/-- Lexemes as a whole text. With a blank added in front each of them stands behind a gap, so the first one may stand
at the very beginning; blanks may follow the last one. -/
def LaidOut (ts : List String) (text : String) : Prop :=
  ∃ s trail, ' ' :: text.toList = s ++ trail ∧ Spaced ts s ∧ ∀ c ∈ trail, isBlank c = true

/-- one blank in front of each lexeme is enough -/
theorem spaced_flatMap (ts : List String) : Spaced ts (ts.flatMap fun t => ' ' :: t.toList) := by
  induction ts with
  | nil => exact .nil
  | cons t ts ih => exact .cons (Gap.mk (List.cons_ne_nil ' ' []) (by simp [isBlank])) ih

theorem skipBlank_blanks {gap : List Char} (h : ∀ c ∈ gap, isBlank c = true) (s : List Char) :
    skipBlank (gap ++ s) = skipBlank s := by
  rw [skipBlank, skipBlank, List.dropWhile_append_of_pos h]

namespace Spaced

variable {t : String} {ts us : List String} {s : List Char}

theorem split (h : Spaced (ts ++ us) s) : ∃ s₁ s₂, s = s₁ ++ s₂ ∧ Spaced ts s₁ ∧ Spaced us s₂ := by
  induction ts generalizing s with
  | nil => exact ⟨[], s, rfl, .nil, h⟩
  | cons t ts ih =>
    cases h with
    | @cons gap _ _ s hgap h =>
      obtain ⟨s₁, s₂, rfl, h₁, h₂⟩ := ih h
      exact ⟨gap ++ (t.toList ++ s₁), s₂, by simp, .cons hgap h₁, h₂⟩

/-- a lexeme that begins with no blank is what stands behind the blanks of its gap -/
theorem blank_cons (h : Spaced (t :: ts) s) {c : Char} {w : List Char} (ht : t.toList = c :: w)
    (hc : isBlank c = false) : ∃ d bound s', s = d :: bound ∧ isBlank d = true ∧ Spaced ts s' ∧
      ∀ rest, skipBlank (bound ++ rest) = t.toList ++ (s' ++ rest) := by
  cases h with
  | @cons gap _ _ s' hgap h =>
    obtain ⟨d, gap, rfl⟩ := List.exists_cons_of_ne_nil hgap.ne_nil
    obtain ⟨hd, hblank⟩ := List.forall_mem_cons.1 hgap.blank
    refine ⟨d, gap ++ (t.toList ++ s'), s', rfl, hd, h, fun rest => ?_⟩
    rw [List.append_assoc, skipBlank_blanks hblank, List.append_assoc, ht, List.cons_append, Grammar.skipBlank_cons hc]

theorem skipBlank_cons (h : Spaced (t :: ts) s) {c : Char} {w : List Char} (ht : t.toList = c :: w)
    (hc : isBlank c = false) : ∃ s', Spaced ts s' ∧ ∀ rest, skipBlank (s ++ rest) = t.toList ++ (s' ++ rest) := by
  obtain ⟨d, bound, s', rfl, hd, h', hskip⟩ := h.blank_cons ht hc
  exact ⟨s', h', fun rest => (skipBlank_cons_blank hd (bound ++ rest)).trans (hskip rest)⟩

/-- there is a gap in front -/
theorem blank_head (h : Spaced ts s) (hts : ts ≠ []) (rest : List Char) :
    ∀ c ∈ (s ++ rest).head?, isBlank c = true := by
  cases h with
  | nil => exact absurd rfl hts
  | @cons gap t ts s hgap h =>
    obtain ⟨c, gap, rfl⟩ := List.exists_cons_of_ne_nil hgap.ne_nil
    rintro d ⟨⟩
    exact hgap.blank c List.mem_cons_self

end Spaced

/-! ## Terms -/

/-- A term begins with a lexeme that is no parenthesis. If it begins with the letter of a quantifier, the lexeme is a
name, and it is called or is all of the term. -/
theorem spelt_opens {t : Term} (hwf : t.wellFormed = true) {ts : List String} (h : t.Spelt ts) :
    ∃ w us c v, ts = w :: us ∧ w.toList = c :: v ∧ opensTerm c = true ∧
      (c ≠ 'A' ∧ c ≠ 'E' ∨ isName w.toList = true ∧ ((∃ name, t = .var name) ∧ us = [] ∨ ∃ vs, us = "(" :: vs)) := by
  have number {n : Numeral} (hn : n.Proper) : ∃ c v, (String.ofList n.chars).toList = c :: v ∧
      opensTerm c = true ∧ c ≠ 'A' ∧ c ≠ 'E' := by
    obtain ⟨c, v, hcv, hc⟩ := hn.opens
    refine ⟨c, v, (String.toList_ofList).trans hcv, ?_, ?_, ?_⟩
    · obtain rfl | hc := hc
      · decide
      · simp only [opensTerm, hc, Bool.or_true, Bool.true_or]
    all_goals
      rintro rfl
      revert hc
      decide
  cases t with
  | var name =>
    obtain rfl := h
    simp only [Term.wellFormed, Bool.and_eq_true] at hwf
    obtain ⟨c, v, hcv, hc⟩ := opens_of_isName hwf.1.1
    exact ⟨name, [], c, v, rfl, hcv, hc, Or.inr ⟨hwf.1.1, Or.inl ⟨⟨name, rfl⟩, rfl⟩⟩⟩
  | int value =>
    obtain ⟨n, hn, -, rfl⟩ := h
    obtain ⟨c, v, hcv, hc, hletter⟩ := number hn
    exact ⟨_, [], c, v, rfl, hcv, hc, Or.inl hletter⟩
  | float value =>
    obtain ⟨n, hn, -, rfl⟩ := h
    obtain ⟨c, v, hcv, hc, hletter⟩ := number hn
    exact ⟨_, [], c, v, rfl, hcv, hc, Or.inl hletter⟩
  | str text =>
    obtain rfl := h
    exact ⟨_, [], '"', text.toList ++ ['"'], rfl, by simp, by decide, Or.inl (by decide)⟩
  | bool value =>
    obtain rfl := h
    cases value
    · exact ⟨_, [], 'f', ['a', 'l', 's', 'e'], rfl, rfl, by decide, Or.inl (by decide)⟩
    · exact ⟨_, [], 't', ['r', 'u', 'e'], rfl, rfl, by decide, Or.inl (by decide)⟩
  | call name args =>
    obtain ⟨inside, -, rfl⟩ := h
    simp only [Term.wellFormed, Bool.and_eq_true] at hwf
    obtain ⟨c, v, hcv, hc⟩ := opens_of_isName hwf.1
    exact ⟨name, _, c, v, rfl, hcv, hc, Or.inr ⟨hwf.1, Or.inr ⟨_, rfl⟩⟩⟩

section Layout

variable {ts : List String} {laid s : List Char}

/-- a lexeme ends the term in front of it, unless it opens an argument list -/
theorem Spaced.endsTerm {t : String} {c : Char} {w : List Char} (h : Spaced (t :: ts) laid) (ht : t.toList = c :: w)
    (hc : isBlank c = false) (hcall : c ≠ '(') (rest : List Char) : EndsTerm (laid ++ rest) := by
  obtain ⟨s, -, hskip⟩ := h.skipBlank_cons ht hc
  refine endsTerm_of_blank (h.blank_head (List.cons_ne_nil _ _) rest) ?_
  rw [hskip, ht]
  rintro d ⟨⟩
  exact hcall

/-- behind an argument stands another one or the closing parenthesis -/
theorem endsTerm_tailSpelt {args : List Term} (ht : Term.TailSpelt args ts) (hl : Spaced ts laid)
    (hclose : Spaced [")"] s) (rest : List Char) : EndsTerm (laid ++ (s ++ rest)) := by
  cases args with
  | nil =>
    obtain rfl := ht
    cases hl
    exact hclose.endsTerm rfl (by decide) (by decide) rest
  | cons t args =>
    obtain ⟨first, others, -, -, rfl⟩ := ht
    exact hl.endsTerm rfl (by decide) (by decide) _

mutual

/-- a term is read from any text of its lexemes -/
theorem reads_spelt (t : Term) (hwf : t.wellFormed = true) {ts : List String} (ht : t.Spelt ts) {laid s rest : List Char}
    (hl : Spaced ts laid) (hrest : EndsTerm rest) (hs : skipBlank s = skipBlank (laid ++ rest)) :
    Reads (term s) t rest := by
  -- terms of one lexeme
  have alone {t : String} (ht : ts = [t]) {c : Char} {w : List Char} (hcw : t.toList = c :: w)
      (hc : isBlank c = false) : skipBlank s = t.toList ++ rest := by
    subst ht
    obtain ⟨s', h, hskip⟩ := hl.skipBlank_cons hcw hc
    cases h
    rw [hs, hskip, List.nil_append]
  have number {n : Numeral} (hn : n.Proper) (ht : ts = [String.ofList n.chars]) : skipBlank s = n.chars ++ rest := by
    obtain ⟨c, v, hcv, hc⟩ := hn.opens
    have hblank : isBlank c = false := (not_opensTerm (c := c) (by
      obtain rfl | hc := hc
      · decide
      · simp only [opensTerm, hc, Bool.or_true, Bool.true_or])).1
    rw [alone ht (String.toList_ofList.trans hcv) hblank, String.toList_ofList]
  cases t with
  | var name =>
    simp only [Term.wellFormed, Bool.and_eq_true, bne_iff_ne, ne_eq] at hwf
    obtain ⟨c, v, hcv, hc⟩ := opens_of_isName hwf.1.1
    have h := reads_word hwf.1.1 hrest (alone ht hcv (not_opensTerm hc).1)
    rwa [String.ofList_toList, wordTerm, if_neg hwf.1.2, if_neg hwf.2] at h
  | int value =>
    obtain ⟨n, hn, hterm, ht⟩ := ht
    exact reads_numeral hn hterm hrest (number hn ht)
  | float value =>
    obtain ⟨n, hn, hterm, ht⟩ := ht
    exact reads_numeral hn hterm hrest (number hn ht)
  | str text =>
    have hquote : '"' ∉ text.toList := fun h => absurd rfl (bne_iff_ne.1 (List.all_eq_true.1 hwf '"' h))
    have htext : ("\"" ++ text ++ "\"").toList = '"' :: (text.toList ++ ['"']) := by simp
    have h : Reads (term s) (.str (String.ofList text.toList)) rest := reads_str hquote (by
      rw [alone ht htext (by decide), htext]
      simp)
    rwa [String.ofList_toList] at h
  | bool value =>
    cases value with
    | true => exact reads_word (w := "true".toList) (by decide) hrest (alone ht rfl (by decide))
    | false => exact reads_word (w := "false".toList) (by decide) hrest (alone ht rfl (by decide))
  | call name args =>
    obtain ⟨inside, hargs, rfl⟩ := ht
    simp only [Term.wellFormed, Bool.and_eq_true] at hwf
    obtain ⟨c, v, hcv, hc⟩ := opens_of_isName hwf.1
    obtain ⟨s₁, h₁, hname⟩ := hl.skipBlank_cons hcv (not_opensTerm hc).1
    obtain ⟨s₂, h₂, hopen⟩ := h₁.skipBlank_cons rfl (by decide)
    obtain ⟨s₃, close, rfl, h₃, hclose⟩ := h₂.split
    obtain ⟨s₄, h₄, hskip⟩ := hclose.skipBlank_cons rfl (by decide)
    cases h₄
    have hnext : ∀ c ∈ (s₁ ++ rest).head?, isWordPart c = false := fun c hc =>
      not_isWordPart_of_isBlank (h₁.blank_head (List.cons_ne_nil _ _) rest c hc)
    have h := reads_call hwf.1 (hs.trans (hname rest)) hnext (hopen rest)
      (List.append_assoc s₃ close rest ▸ continues_listSpelt args hwf.2 hargs h₃ hclose rest) (hskip rest)
    rwa [String.ofList_toList] at h

theorem continues_listSpelt (args : List Term) (hwf : Term.allWellFormed args = true) {ts : List String}
    (ht : Term.ListSpelt args ts) {laid close : List Char} (hl : Spaced ts laid) (hclose : Spaced [")"] close)
    (rest : List Char) : Continues (terms (laid ++ (close ++ rest))) args (close ++ rest) := by
  cases args with
  | nil =>
    obtain rfl := ht
    cases hl
    obtain ⟨s', -, hskip⟩ := hclose.skipBlank_cons rfl (by decide)
    refine continues_terms_nil fun c hc => ?_
    rw [List.nil_append, hskip] at hc
    cases hc
    rfl
  | cons t args =>
    obtain ⟨first, others, hfirst, hothers, rfl⟩ := ht
    simp only [Term.allWellFormed, Bool.and_eq_true] at hwf
    obtain ⟨s₁, s₂, rfl, h₁, h₂⟩ := hl.split
    rw [List.append_assoc]
    exact continues_terms_cons (reads_spelt t hwf.1 hfirst h₁ (endsTerm_tailSpelt hothers h₂ hclose rest) rfl)
      (continues_tailSpelt args hwf.2 hothers h₂ hclose rest)

theorem continues_tailSpelt (args : List Term) (hwf : Term.allWellFormed args = true) {ts : List String}
    (ht : Term.TailSpelt args ts) {laid close : List Char} (hl : Spaced ts laid) (hclose : Spaced [")"] close)
    (rest : List Char) : Continues (moreTerms (laid ++ (close ++ rest))) args (close ++ rest) := by
  cases args with
  | nil =>
    obtain rfl := ht
    cases hl
    obtain ⟨s', -, hskip⟩ := hclose.skipBlank_cons rfl (by decide)
    refine continues_moreTerms_nil fun c hc => ?_
    rw [List.nil_append, hskip] at hc
    cases hc
    decide
  | cons t args =>
    obtain ⟨first, others, hfirst, hothers, rfl⟩ := ht
    simp only [Term.allWellFormed, Bool.and_eq_true] at hwf
    obtain ⟨s', h', hcomma⟩ := hl.skipBlank_cons rfl (by decide)
    obtain ⟨s₁, s₂, rfl, h₁, h₂⟩ := h'.split
    refine continues_moreTerms_cons ((hcomma _).trans ?_)
      (reads_spelt t hwf.1 hfirst h₁ (endsTerm_tailSpelt hothers h₂ hclose rest) rfl)
      (continues_tailSpelt args hwf.2 hothers h₂ hclose rest)
    rw [List.append_assoc]
    rfl

end

end Layout

/-! ## Levels -/

/-- What a level of the grammar makes of a form `b` at the front of `s`, with `rest` behind it. Operands and
implications are `b` itself. The loops come to whatever they make of `b` and of what they find in `rest`. -/
def Takes (level : Level) (b : Body) (s rest : List Char) : Prop :=
  match level with
  | .operand => Reads (unary s) b rest
  | .conjunction => ∀ b' rest', Continues (moreConjuncts b rest) b' rest' → Reads (conjunction s) b' rest'
  | .disjunction => (∀ c ∈ (skipBlank rest).head?, c ≠ '&') →
      ∀ b' rest', Continues (moreDisjuncts b rest) b' rest' → Reads (disjunction s) b' rest'
  | .implication => (∀ c ∈ (skipBlank rest).head?, c ≠ '&') → afterOr? rest = none → afterImplies? rest = none →
      Reads (implication s) b rest
  | .equivalence => (∀ c ∈ (skipBlank rest).head?, c ≠ '&') → afterOr? rest = none → afterImplies? rest = none →
      ∀ b' rest', Continues (moreEquivalences b rest) b' rest' → Reads (body s) b' rest'

section Levels

variable {level : Level} {b l r : Body} {s next right rest : List Char}

/-- a form of a tighter level is one of the looser level, too -/
theorem takes_of_tighter (h : Takes level.tighter b s rest) : Takes level b s rest := by
  cases level with
  | equivalence => exact fun hand hor himplies _ _ hmore => (h hand hor himplies).body hmore
  | implication => exact fun hand hor himplies => (h hand _ _ (continues_moreDisjuncts_nil hor)).implication himplies
  | disjunction => exact fun hand _ _ hmore => (h _ _ (continues_moreConjuncts_nil hand)).disjunction hmore
  | conjunction => exact fun _ _ hmore => h.conjunction hmore
  | operand => exact h

/-- **Connectives.** The left side is taken at its level, and what follows it is the connective with the right side. -/
theorem takes_connected {op : Connective} (hnext : skipBlank next = op.symbol.toList ++ right)
    (hright : ∀ c ∈ right.head?, isBlank c = true) (hl : Takes op.leftLevel l s next)
    (hr : Takes op.rightLevel r right rest) : Takes op.level (.connected op l r) s rest := by
  -- no tighter level takes a looser connective
  have other {c d : Char} {t : List Char} (h : skipBlank next = c :: t) (hne : c ≠ d) :
      ∀ x ∈ (skipBlank next).head?, x ≠ d := by
    rw [h]
    rintro x ⟨⟩
    exact hne
  cases op with
  | and => exact fun _ _ hmore => hl _ _ (continues_moreConjuncts_cons hnext hr hmore)
  | or =>
    have bar := afterOr?_eq_some hnext fun c hc hbar => by
      have := hright c hc
      rw [hbar] at this
      exact absurd this (by decide)
    exact fun hand _ _ hmore => hl (other hnext (by decide)) _ _
      (continues_moreDisjuncts_cons bar (hr _ _ (continues_moreConjuncts_nil hand)) hmore)
  | implies =>
    have hl := hl (other hnext (by decide)) _ _
      (continues_moreDisjuncts_nil (afterOr?_eq_none (other hnext (by decide))))
    exact fun hand hor himplies => reads_implication hl (afterImplies?_eq_some hnext) (hr hand hor himplies)
  | iff =>
    exact fun hand hor himplies _ _ hmore => hl (other hnext (by decide))
      (afterOr?_eq_none (other hnext (by decide))) (afterImplies?_eq_none (other hnext (by decide))) _ _
      (continues_moreEquivalences_cons (afterIff?_eq_some hnext) (hr hand hor himplies) hmore)

/-- a form that nothing goes on with is a body -/
theorem reads_body_of_takes (h : Takes .equivalence b s rest) (hrest : EndsBody rest) : Reads (body s) b rest :=
  h hrest.and hrest.or hrest.implies _ _ (continues_moreEquivalences_nil hrest.iff)

end Levels

/-! ## What stands behind a form -/

/-- behind a form stands nothing that it goes on with; behind the last one, nothing that connects it -/
structure Ends (last : Bool) (rest : List Char) : Prop where
  operand : EndsOperand rest
  body : last = true → EndsBody rest

theorem EndsBody.ends {rest : List Char} (h : EndsBody rest) (last : Bool) : Ends last rest := ⟨h.toEndsOperand, fun _ => h⟩

section Behind

variable {ts : List String} {laid rest : List Char}

/-- a closing parenthesis or the end, behind blanks -/
theorem endsBody_of_blank (hblank : ∀ c ∈ rest.head?, isBlank c = true) (h : ∀ c ∈ (skipBlank rest).head?, c = ')') :
    EndsBody rest where
  toEndsTerm := endsTerm_of_blank hblank fun c hc => by rw [h c hc]; decide
  comparison := by
    cases hs : skipBlank rest with
    | nil => rfl
    | cons c t =>
      rw [hs] at h
      rw [h c rfl]
      rfl
  and c hc := by rw [h c hc]; decide
  or := afterOr?_eq_none fun c hc => by rw [h c hc]; decide
  implies := afterImplies?_eq_none fun c hc => by rw [h c hc]; decide
  iff := afterIff?_eq_none fun c hc => by rw [h c hc]; decide

theorem Spaced.endsBody_close (h : Spaced [")"] laid) (rest : List Char) : EndsBody (laid ++ rest) := by
  obtain ⟨s, -, hskip⟩ := h.skipBlank_cons rfl (by decide)
  refine endsBody_of_blank (h.blank_head (List.cons_ne_nil _ _) rest) ?_
  rw [hskip]
  rintro c ⟨⟩
  rfl

theorem symbol_opens (op : Connective) : ∃ c w, op.symbol.toList = c :: w ∧ isBlank c = false ∧ c ≠ '(' := by
  cases op <;> exact ⟨_, _, rfl, by decide, by decide⟩

theorem comparison_opens (op : Comparison) : ∃ c w, op.symbol.toList = c :: w ∧ isBlank c = false ∧ c ≠ '(' ∧
    isWordStart c = false := by
  cases op <;> exact ⟨_, _, rfl, by decide, by decide, by decide⟩

/-- a connective does not go on with the operand in front of it -/
theorem Spaced.ends_connective {op : Connective} (h : Spaced (op.symbol :: ts) laid) (rest : List Char) :
    Ends false (laid ++ rest) := by
  obtain ⟨c, w, hcw, hc, hopen⟩ := symbol_opens op
  obtain ⟨s, -, hskip⟩ := h.skipBlank_cons hcw hc
  refine ⟨⟨h.endsTerm hcw hc hopen rest, ?_⟩, fun hlast => by cases hlast⟩
  rw [hskip]
  cases op
  case iff | implies | or | and => rfl

end Behind

/-! ## Operands -/

section Operands

variable {ts : List String} {laid s next rest : List Char}

/-- a term is taken neither for a negation nor for a quantifier or a parenthesis -/
theorem reads_operand_of_spelt {t : Term} {b : Body} (hwf : t.wellFormed = true) (ht : t.Spelt ts)
    (hl : Spaced ts laid) (hs : skipBlank s = skipBlank (laid ++ next))
    (hnext : (∃ name, t = .var name) → ∀ c ∈ (skipBlank next).head?, isWordStart c = false)
    (h : Reads (Reading.orElse (compared (skipBlank s)) fun _ => predicate (skipBlank s)) b rest) :
    Reads (unary s) b rest := by
  obtain ⟨w, us, c, v, rfl, hcv, hc, hletter⟩ := spelt_opens hwf ht
  obtain ⟨s₁, h₁, hskip⟩ := hl.skipBlank_cons hcv (not_opensTerm hc).1
  have hs' : skipBlank s = c :: (v ++ (s₁ ++ next)) := by rw [hs, hskip, hcv, List.cons_append]
  refine reads_unary (reads_operand_of_term ?_ (fails_quantified fun q d r heq hd hq => ?_) h)
  · rw [hs']
    rintro d ⟨⟩
    exact ⟨(not_opensTerm hc).2.1, (not_opensTerm hc).2.2.1⟩
  · rw [hs'] at heq
    obtain ⟨rfl, htail⟩ := List.cons.inj heq
    obtain ⟨hA, hE⟩ | ⟨hname, hus⟩ := hletter
    · exact absurd hq (not_or.2 ⟨hA, hE⟩)
    -- the blank behind the letter ends the name
    have hv : v = [] := by
      cases v with
      | nil => rfl
      | cons e v =>
        obtain rfl : e = d := (List.cons.inj htail).1
        rw [hcv] at hname
        have hpart : isWordPart e = true := (List.all_eq_true.1 (Bool.and_eq_true_iff.1 hname).2) e List.mem_cons_self
        rw [isBlank_of_isWordPart hpart] at hd
        cases hd
    subst hv
    have hr : skipBlank r = skipBlank (s₁ ++ next) := by
      rw [List.nil_append] at htail
      rw [htail]
      exact (skipBlank_cons_blank hd r).symm
    rw [hr]
    obtain ⟨hvar, rfl⟩ | ⟨vs, rfl⟩ := hus
    · cases h₁
      exact hnext hvar
    · obtain ⟨s₂, -, hopen⟩ := h₁.skipBlank_cons rfl (by decide)
      rw [hopen]
      rintro x ⟨⟩
      decide

end Operands

/-! ## Bodies -/

/-- **Derived forms** are taken at their level, by induction on the derivation. -/
theorem takes_derived {level : Level} {last : Bool} {b : Body} {ts : List String} (h : Derives level last b ts)
    (hwf : b.wellFormed = true) {laid s rest : List Char} (hl : Spaced ts laid) (hrest : Ends last rest)
    (hs : skipBlank s = skipBlank (laid ++ rest)) : Takes level b s rest := by
  induction h generalizing laid s rest with
  | tighter _ _ ih => exact takes_of_tighter (ih hwf hl hrest hs)
  | @connected op last l r ls rs _ hright ihl ihr =>
    simp only [Body.wellFormed, Bool.and_eq_true] at hwf
    obtain ⟨s₁, s₂, rfl, h₁, h₂⟩ := hl.split
    obtain ⟨c, w, hcw, hc, -⟩ := symbol_opens op
    obtain ⟨s₃, h₃, hskip⟩ := h₂.skipBlank_cons hcw hc
    rw [List.append_assoc] at hs
    exact takes_connected (hskip rest) (h₃.blank_head hright.ne_nil rest) (ihl hwf.1 h₁ (h₂.ends_connective rest) hs)
      (ihr hwf.2 h₃ hrest rfl)
  | not hb ih =>
    obtain ⟨s₁, h₁, hskip⟩ := hl.skipBlank_cons rfl (by decide)
    refine reads_unary (reads_negation (hs.trans (hskip rest)) (fun c hc => ?_) (ih hwf h₁ hrest rfl))
    have hblank := h₁.blank_head hb.ne_nil rest c hc
    rintro rfl
    exact absurd hblank (by decide)
  | @quantified q var range b rs ts hrange _ ih =>
    simp only [Body.wellFormed, Bool.and_eq_true] at hwf
    obtain ⟨⟨hvar, hrangewf⟩, hbody⟩ := hwf
    obtain ⟨l, w, hletter, hl'⟩ : ∃ l w, q.letter.toList = l :: w ∧ isBlank l = false := by
      cases q <;> exact ⟨_, _, rfl, by decide⟩
    obtain ⟨s₁, h₁, hskip⟩ := hl.skipBlank_cons hletter hl'
    obtain ⟨v, w, hname, hv⟩ := opens_of_isName hvar
    obtain ⟨d, bound, s₂, rfl, hd, h₂, hbound⟩ := h₁.blank_cons hname (not_opensTerm hv).1
    obtain ⟨e, word, s₃, rfl, he, h₃, hword⟩ := h₂.blank_cons rfl (by decide)
    have hin : ∀ c ∈ (s₃ ++ rest).head?, isWordPart c = false := fun c hc =>
      not_isWordPart_of_isBlank (h₃.blank_head (by simp) rest c hc)
    obtain ⟨s₄, s₅, rfl, h₄, h₅⟩ := h₃.split
    obtain ⟨s₆, h₆, hpoint⟩ := h₅.skipBlank_cons rfl (by decide)
    have hterm := reads_spelt _ (termOfRange_wellFormed hrangewf) hrange h₄
      (h₅.endsTerm rfl (by decide) (by decide) rest) rfl
    rw [← List.append_assoc] at hterm
    have hread := reads_quantified (hs.trans (hskip rest)) hd hvar (hbound rest) he (hword rest) hin hterm
      (hpoint rest) (reads_body_of_takes (ih hbody h₆ hrest rfl) (hrest.body rfl))
    rw [String.ofList_toList, rangeOf_termOfRange hrangewf] at hread
    exact reads_unary hread
  | parenthesized _ ih =>
    obtain ⟨s₁, h₁, hopen⟩ := hl.skipBlank_cons rfl (by decide)
    obtain ⟨s₂, close, rfl, h₂, hclose⟩ := h₁.split
    obtain ⟨s₄, h₄, hskip⟩ := hclose.skipBlank_cons rfl (by decide)
    cases h₄
    have hend := hclose.endsBody_close rest
    refine reads_unary (reads_parenthesized (hs.trans (hopen rest)) ?_ (hskip rest))
    rw [List.append_assoc]
    exact reads_body_of_takes (ih hwf h₂ (hend.ends true) rfl) hend
  | @compared op last l r ls rs hl' hr =>
    simp only [Body.wellFormed, Bool.and_eq_true] at hwf
    obtain ⟨s₁, s₂, rfl, h₁, h₂⟩ := hl.split
    obtain ⟨c, w, hcw, hc, hopen, hstart⟩ := comparison_opens op
    obtain ⟨s₃, h₃, hskip⟩ := h₂.skipBlank_cons hcw hc
    rw [List.append_assoc] at hs
    refine reads_operand_of_spelt hwf.1 hl' h₁ hs (fun _ => ?_) (reads_compared
      (reads_spelt l hwf.1 hl' h₁ (h₂.endsTerm hcw hc hopen rest) ((skipBlank_skipBlank s).trans hs)) ?_
      (reads_spelt r hwf.2 hr h₃ hrest.operand.toEndsTerm rfl))
    · rw [hskip, hcw]
      rintro d ⟨⟩
      exact hstart
    · obtain ⟨_, _, _, _, rfl, -⟩ := spelt_opens hwf.2 hr
      rw [hskip]
      exact comparison?_symbol op (h₃.blank_head (List.cons_ne_nil _ _) rest)
  | @predicate name args last ts ht =>
    have hread := reads_spelt (.call name args) hwf ht hl hrest.operand.toEndsTerm ((skipBlank_skipBlank s).trans hs)
    refine reads_operand_of_spelt (t := .call name args) hwf ht hl hs ?_ (reads_predicate hread hrest.operand.comparison)
    rintro ⟨_, hvar⟩
    cases hvar
  | @literal value last ts ht =>
    have hread := reads_spelt (.bool value) rfl ht hl hrest.operand.toEndsTerm ((skipBlank_skipBlank s).trans hs)
    refine reads_operand_of_spelt (t := .bool value) rfl ht hl hs ?_ (reads_literal hread hrest.operand.comparison)
    rintro ⟨_, hvar⟩
    cases hvar

/-- **Texts of the grammar.** A text that is derived for a well-formed tree is read as this tree, whatever the blanks
between its lexemes and whatever parentheses it has besides those it needs. -/
theorem parse_derived {b : Body} (hwf : b.wellFormed = true) {ts : List String}
    (h : Derives .equivalence true b ts) {text : String} (ht : LaidOut ts text) : Body.parse text = .ok b := by
  obtain ⟨s, trail, htext, hl, hblank⟩ := ht
  have hskip : skipBlank trail = [] := by
    rw [← List.append_nil trail, skipBlank_blanks hblank]
    rfl
  have hend : EndsBody trail := by
    refine endsBody_of_blank (fun c hc => hblank c (List.mem_of_mem_head? hc)) ?_
    rw [hskip]
    rintro c ⟨⟩
  have hs : skipBlank text.toList = skipBlank (s ++ trail) := by rw [← htext, skipBlank_space]
  exact whole_eq_ok_of_blank (reads_body_of_takes (takes_derived h hwf hl (hend.ends true) hs) hend) hskip .body

/-- an arrow beside a double arrow, and on its right a quantifier that reaches to the end; parentheses that are not
needed, and a number with zeros in front -/
theorem parse_derived_sample : ∃ b ts,
    b = .connected .iff (.literal true) (.connected .implies (.literal false) (.quantified .every "x" (.domain .lanelets)
      (.connected .implies (.connected .and (.compared .eq (.var "x") (.int 7)) (.literal true)) (.literal false)))) ∧
    b.wellFormed = true ∧ Derives .equivalence true b ts ∧
    LaidOut ts "true <-> false -> A x in L . ( x = 007 ) & true -> false" ∧
    Body.parse "true <-> false -> A x in L . ( x = 007 ) & true -> false" = .ok b := by
  have truth (value last : Bool) : Derives .operand last (.literal value) [if value then "true" else "false"] :=
    .literal rfl
  have number : (Term.int 7).Spelt ["007"] := ⟨⟨false, ['0', '0', '7'], []⟩, ⟨by decide, by simp, by simp⟩, rfl, rfl⟩
  have comparison : Derives .operand false (.compared .eq (.var "x") (.int 7)) ("(" :: (["x", "=", "007"] ++ [")"])) :=
    .parenthesized ((Derives.compared (l := .var "x") rfl number).of_operand _)
  have conjunction := @Derives.connected .and _ _ _ _ _ (comparison.of_operand _) (truth true false)
  have inner := (@Derives.connected .implies _ _ _ _ _ (.tighter .disjunction conjunction)
    ((truth false true).of_operand _)).loosest
  have quantified := @Derives.quantified .every "x" (.domain .lanelets) _ ["L"] _ rfl inner
  have h := @Derives.connected .iff _ _ _ _ _ ((truth true false).of_operand _)
    (@Derives.connected .implies _ _ _ _ _ ((truth false false).of_operand _) (quantified.of_operand _))
  refine ⟨_, _, rfl, ?wellFormed, h, ?laidOut, parse_derived ?wellFormed h ?laidOut⟩
  case wellFormed => decide
  case laidOut => exact ⟨_, [], by decide +kernel, spaced_flatMap _, by simp⟩

/-! ## Every tree has a text -/

mutual

theorem exists_spelt (t : Term) (hwf : t.wellFormed = true) : ∃ ts, t.Spelt ts := by
  cases t with
  | var name => exact ⟨_, rfl⟩
  | int value => exact ⟨_, numeralOfInt value.toInt, numeralOfInt_proper _, term?_numeralOfInt value, rfl⟩
  | float value =>
    obtain ⟨n, hn, -, -, hterm⟩ := readsBack_of_isFinite hwf
    exact ⟨_, n, hn, hterm, rfl⟩
  | str text => exact ⟨_, rfl⟩
  | bool value => exact ⟨_, rfl⟩
  | call name args =>
    simp only [Term.wellFormed, Bool.and_eq_true] at hwf
    obtain ⟨inside, h⟩ := exists_listSpelt args hwf.2
    exact ⟨_, inside, h, rfl⟩

theorem exists_listSpelt (args : List Term) (hwf : Term.allWellFormed args = true) : ∃ ts, Term.ListSpelt args ts := by
  cases args with
  | nil => exact ⟨_, rfl⟩
  | cons t args =>
    simp only [Term.allWellFormed, Bool.and_eq_true] at hwf
    obtain ⟨first, hfirst⟩ := exists_spelt t hwf.1
    obtain ⟨others, hothers⟩ := exists_tailSpelt args hwf.2
    exact ⟨_, first, others, hfirst, hothers, rfl⟩

theorem exists_tailSpelt (args : List Term) (hwf : Term.allWellFormed args = true) : ∃ ts, Term.TailSpelt args ts := by
  cases args with
  | nil => exact ⟨_, rfl⟩
  | cons t args =>
    simp only [Term.allWellFormed, Bool.and_eq_true] at hwf
    obtain ⟨first, hfirst⟩ := exists_spelt t hwf.1
    obtain ⟨others, hothers⟩ := exists_tailSpelt args hwf.2
    exact ⟨_, first, others, hfirst, hothers, rfl⟩

end

/-- **Every well-formed tree** has a derivation: with parentheses around each connective and quantifier. -/
theorem exists_derivation (b : Body) (hwf : b.wellFormed = true) (last : Bool) : ∃ ts, Derives .operand last b ts := by
  induction b generalizing last with
  | quantified q var range b ih =>
    simp only [Body.wellFormed, Bool.and_eq_true] at hwf
    obtain ⟨rs, hrange⟩ := exists_spelt _ (termOfRange_wellFormed hwf.1.2)
    obtain ⟨ts, h⟩ := ih hwf.2 true
    exact ⟨_, .parenthesized (Derives.quantified hrange h.loosest).loosest⟩
  | not b ih =>
    obtain ⟨ts, h⟩ := ih hwf last
    exact ⟨_, .not h⟩
  | connected op l r ihl ihr =>
    simp only [Body.wellFormed, Bool.and_eq_true] at hwf
    obtain ⟨ls, hl⟩ := ihl hwf.1 false
    obtain ⟨rs, hr⟩ := ihr hwf.2 true
    exact ⟨_, .parenthesized (Derives.connected (hl.of_operand _) (hr.of_operand _)).loosest⟩
  | predicate name args =>
    obtain ⟨ts, h⟩ := exists_spelt (.call name args) hwf
    exact ⟨_, .predicate h⟩
  | compared op l r =>
    simp only [Body.wellFormed, Bool.and_eq_true] at hwf
    obtain ⟨ls, hl⟩ := exists_spelt l hwf.1
    obtain ⟨rs, hr⟩ := exists_spelt r hwf.2
    exact ⟨_, .compared hl hr⟩
  | literal value => exact ⟨_, .literal rfl⟩

end Grammar

end RoadRules
