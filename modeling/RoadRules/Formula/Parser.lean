/-
Reading formula text.

```text
formula    := body "||" binding ("," binding)*
binding    := word "in" domain
subformula := word "(" word ("," word)* ")" ":=" body
body       := implies ("<->" implies)*
implies    := or ("->" implies)?
or         := and ("|" and)*
and        := unary ("&" unary)*
unary      := "!" unary | quantifier | atom
quantifier := ("A" | "E") word "in" (domain | term) "." body
atom       := "(" body ")" | term comparison term | call | "true" | "false"
```

Alternatives are tried in this order and the first one that fits is taken. The body of a quantifier reaches as far to
the right as it can. A single bar is disjunction, two bars end the body of a formula.

When no alternative fits, the place that is reported is where the operand had to start; only an integer that 64 bits
cannot hold ends the reading at once, and is itself the place.
-/
import RoadRules.Formula.Lexeme

namespace RoadRules

namespace Grammar

open Formula

/-- why reading stopped, with the text from that place on -/
inductive Stop where
  /-- nothing that is expected here: another alternative may still fit -/
  | mismatch (rest : List Char)
  /-- an integer that 64 bits cannot hold: no other alternative is tried -/
  | outOfRange (rest : List Char)
  deriving DecidableEq

def Stop.rest : Stop → List Char
  | mismatch rest | outOfRange rest => rest

/-- the outcome of reading one form from the front of `s` -/
abbrev Reading (α : Type) (s : List Char) := Except Stop (Read α s)

/-- the outcome of going on with a form that may already be complete -/
abbrev Continued (α : Type) (s : List Char) := Except Stop (α × { rest : List Char // rest.length ≤ s.length })

/-- the first alternative if it fits, or else the second one -/
def Reading.orElse {α : Type} {s : List Char} (first : Reading α s) (second : Unit → Reading α s) : Reading α s :=
  match first with
  | .error (.mismatch _) => second ()
  | r => r

/-! ## Terms -/

/-- a word alone: a truth value or a variable -/
def wordTerm (name : String) : Term :=
  if name = "true" then .bool true else if name = "false" then .bool false else .var name

mutual

/-- a string, a number, a call, or a word alone -/
def term (s : List Char) : Reading Term s :=
  let t := skipBlank s
  have le : t.length ≤ s.length := skipBlank_length_le s
  match quoted? t with
  | some r => .ok ((r.map Term.str).lift le)
  | none =>
    match numeral? t with
    | some r =>
      match r.value.term? with
      | some value => .ok ⟨value, r.rest, Nat.lt_of_lt_of_le r.shorter le⟩
      | none => .error (.outOfRange t)
    | none =>
      match word? t with
      | none => .error (.mismatch t)
      | some w =>
        have lt : w.rest.length < s.length := Nat.lt_of_lt_of_le w.shorter le
        match arguments? w.rest with
        | .error e => .error e
        | .ok (some args) => .ok ⟨.call w.value args.value, args.rest, Nat.lt_trans args.shorter lt⟩
        | .ok none => .ok ⟨wordTerm w.value, w.rest, lt⟩
termination_by 8 * s.length + 0

/-- arguments in parentheses, if the text goes on with them -/
def arguments? (s : List Char) : Except Stop (Option (Read (List Term) s)) :=
  match afterMark? '(' s with
  | none => .ok none
  | some ⟨inside, lt⟩ =>
    match terms inside with
    | .error e => .error e
    | .ok (args, ⟨rest, le⟩) =>
      match afterMark? ')' rest with
      | none => .ok none
      | some ⟨rest, lt'⟩ => .ok (some ⟨args, rest, by omega⟩)
termination_by 8 * s.length + 0

/-- terms with commas between them, maybe none -/
def terms (s : List Char) : Continued (List Term) s :=
  match term s with
  | .error (.mismatch _) => .ok ([], ⟨s, Nat.le_refl _⟩)
  | .error e => .error e
  | .ok first =>
    have lt := first.shorter
    match moreTerms first.rest with
    | .error e => .error e
    | .ok (others, ⟨rest, le⟩) => .ok (first.value :: others, ⟨rest, by omega⟩)
termination_by 8 * s.length + 1

/-- the terms behind the first one, each with a comma in front; a comma without a term is left where it is -/
def moreTerms (s : List Char) : Continued (List Term) s :=
  match afterMark? ',' s with
  | none => .ok ([], ⟨s, Nat.le_refl _⟩)
  | some ⟨next, lt⟩ =>
    match term next with
    | .error (.mismatch _) => .ok ([], ⟨s, Nat.le_refl _⟩)
    | .error e => .error e
    | .ok item =>
      have lt' := item.shorter
      match moreTerms item.rest with
      | .error e => .error e
      | .ok (others, ⟨rest, le⟩) => .ok (item.value :: others, ⟨rest, by omega⟩)
termination_by 8 * s.length + 0

end

/-! ## Operators -/

/-- the comparison at the front of the text; `<` before a minus sign is none, so that `<->` stays whole -/
def comparison? (s : List Char) : Option (Read Comparison s) :=
  match s with
  | '!' :: '=' :: r => some ⟨.ne, r, lt_length_add_two r⟩
  | '<' :: '=' :: r => some ⟨.le, r, lt_length_add_two r⟩
  | '>' :: '=' :: r => some ⟨.ge, r, lt_length_add_two r⟩
  | '<' :: '-' :: _ => none
  | '<' :: r => some ⟨.lt, r, lt_length_succ r⟩
  | '>' :: r => some ⟨.gt, r, lt_length_succ r⟩
  | '=' :: r => some ⟨.eq, r, lt_length_succ r⟩
  | _ => none

/-- the text behind `<->` -/
def afterIff? (s : List Char) : Option { rest : List Char // rest.length < s.length } :=
  match h : skipBlank s with
  | '<' :: '-' :: '>' :: r => some ⟨r, by have := skipBlank_length_le s; simp only [h, List.length_cons] at this; omega⟩
  | _ => none

/-- the text behind `->` -/
def afterImplies? (s : List Char) : Option { rest : List Char // rest.length < s.length } :=
  match h : skipBlank s with
  | '-' :: '>' :: r => some ⟨r, by have := skipBlank_length_le s; simp only [h, List.length_cons] at this; omega⟩
  | _ => none

/-- the text behind a single bar -/
def afterOr? (s : List Char) : Option { rest : List Char // rest.length < s.length } :=
  match h : skipBlank s with
  | '|' :: '|' :: _ => none
  | '|' :: r => some ⟨r, by have := skipBlank_length_le s; simp only [h, List.length_cons] at this; omega⟩
  | _ => none

/-- the text behind `!` where it does not start `!=` -/
def afterNot? (s : List Char) : Option { rest : List Char // rest.length < s.length } :=
  match s with
  | '!' :: '=' :: _ => none
  | '!' :: r => some ⟨r, lt_length_succ r⟩
  | _ => none

/-- the quantifier at the front of the text, with at least one blank behind its letter -/
def quantifier? (s : List Char) : Option (Read Quantifier s) :=
  match s with
  | q :: c :: r =>
    if isBlank c then
      if q = 'A' then some ⟨.every, r, lt_length_add_two r⟩
      else if q = 'E' then some ⟨.some, r, lt_length_add_two r⟩
      else none
    else none
  | _ => none

/-- a word that names a domain is that domain; every other term is the list it evaluates to -/
def rangeOf : Term → Range
  | .var name =>
    match Domain.ofKeyword? name with
    | some d => .domain d
    | none => .term (.var name)
  | t => .term t

/-- quantifier, variable and range, up to the point in front of the body -/
structure Head where
  quantifier : Quantifier
  var : String
  range : Range

def head (s : List Char) : Reading Head s :=
  match quantifier? s with
  | none => .error (.mismatch s)
  | some q =>
    match word? (skipBlank q.rest) with
    | none => .error (.mismatch s)
    | some v =>
      match afterIn v.rest with
      | .error _ => .error (.mismatch s)
      | .ok ⟨r, _⟩ =>
        match term r with
        | .error e => .error e
        | .ok range =>
          match afterMark? '.' range.rest with
          | none => .error (.mismatch s)
          | some ⟨rest, _⟩ => .ok ⟨⟨q.value, v.value, rangeOf range.value⟩, rest, by
              have := q.shorter
              have := skipBlank_length_le q.rest
              have := v.shorter
              have := range.shorter
              omega⟩

/-- two terms with a comparison between them -/
def compared (s : List Char) : Reading Body s :=
  match term s with
  | .error e => .error e
  | .ok lhs =>
    match comparison? (skipBlank lhs.rest) with
    | none => .error (.mismatch s)
    | some op =>
      match term op.rest with
      | .error e => .error e
      | .ok rhs => .ok ⟨.compared op.value lhs.value rhs.value, rhs.rest, by
          have := lhs.shorter
          have := skipBlank_length_le lhs.rest
          have := op.shorter
          have := rhs.shorter
          omega⟩

/-- a call or a truth value -/
def predicate (s : List Char) : Reading Body s :=
  match term s with
  | .error e => .error e
  | .ok t =>
    match t.value with
    | .call name args => .ok ⟨.predicate name args, t.rest, t.shorter⟩
    | .bool value => .ok ⟨.literal value, t.rest, t.shorter⟩
    | _ => .error (.mismatch s)

/-! ## Bodies -/

mutual

/-- sides of equivalences, grouped from the left -/
def body (s : List Char) : Reading Body s :=
  match implication s with
  | .error e => .error e
  | .ok lhs =>
    have lt := lhs.shorter
    match moreEquivalences lhs.value lhs.rest with
    | .error e => .error e
    | .ok (b, ⟨rest, le⟩) => .ok ⟨b, rest, by omega⟩
termination_by 8 * s.length + 6

def moreEquivalences (lhs : Body) (s : List Char) : Continued Body s :=
  match afterIff? s with
  | none => .ok (lhs, ⟨s, Nat.le_refl _⟩)
  | some ⟨next, lt⟩ =>
    match implication next with
    | .error e => .error e
    | .ok rhs =>
      have lt' := rhs.shorter
      match moreEquivalences (.connected .iff lhs rhs.value) rhs.rest with
      | .error e => .error e
      | .ok (b, ⟨rest, le⟩) => .ok (b, ⟨rest, by omega⟩)
termination_by 8 * s.length + 0

/-- an implication reaches over everything to the right of its arrow -/
def implication (s : List Char) : Reading Body s :=
  match disjunction s with
  | .error e => .error e
  | .ok lhs =>
    have lt := lhs.shorter
    match afterImplies? lhs.rest with
    | none => .ok lhs
    | some ⟨next, lt'⟩ =>
      match implication next with
      | .error e => .error e
      | .ok rhs => .ok ⟨.connected .implies lhs.value rhs.value, rhs.rest, by have := rhs.shorter; omega⟩
termination_by 8 * s.length + 5

/-- disjuncts, grouped from the left -/
def disjunction (s : List Char) : Reading Body s :=
  match conjunction s with
  | .error e => .error e
  | .ok lhs =>
    have lt := lhs.shorter
    match moreDisjuncts lhs.value lhs.rest with
    | .error e => .error e
    | .ok (b, ⟨rest, le⟩) => .ok ⟨b, rest, by omega⟩
termination_by 8 * s.length + 4

def moreDisjuncts (lhs : Body) (s : List Char) : Continued Body s :=
  match afterOr? s with
  | none => .ok (lhs, ⟨s, Nat.le_refl _⟩)
  | some ⟨next, lt⟩ =>
    match conjunction next with
    | .error e => .error e
    | .ok rhs =>
      have lt' := rhs.shorter
      match moreDisjuncts (.connected .or lhs rhs.value) rhs.rest with
      | .error e => .error e
      | .ok (b, ⟨rest, le⟩) => .ok (b, ⟨rest, by omega⟩)
termination_by 8 * s.length + 0

/-- conjuncts, grouped from the left -/
def conjunction (s : List Char) : Reading Body s :=
  match unary s with
  | .error e => .error e
  | .ok lhs =>
    have lt := lhs.shorter
    match moreConjuncts lhs.value lhs.rest with
    | .error e => .error e
    | .ok (b, ⟨rest, le⟩) => .ok ⟨b, rest, by omega⟩
termination_by 8 * s.length + 3

def moreConjuncts (lhs : Body) (s : List Char) : Continued Body s :=
  match afterMark? '&' s with
  | none => .ok (lhs, ⟨s, Nat.le_refl _⟩)
  | some ⟨next, lt⟩ =>
    match unary next with
    | .error e => .error e
    | .ok rhs =>
      have lt' := rhs.shorter
      match moreConjuncts (.connected .and lhs rhs.value) rhs.rest with
      | .error e => .error e
      | .ok (b, ⟨rest, le⟩) => .ok (b, ⟨rest, by omega⟩)
termination_by 8 * s.length + 0

/-- blanks and an operand -/
def unary (s : List Char) : Reading Body s :=
  have le := skipBlank_length_le s
  match operand (skipBlank s) with
  | .error e => .error e
  | .ok r => .ok (r.lift le)
termination_by 8 * s.length + 2

/-- a negation, a quantifier, a body in parentheses, a comparison, a call or a truth value -/
def operand (s : List Char) : Reading Body s :=
  Reading.orElse (negation s) fun _ =>
  Reading.orElse (quantified s) fun _ =>
  Reading.orElse (parenthesized s) fun _ =>
  Reading.orElse (compared s) fun _ => predicate s
termination_by 8 * s.length + 1

def negation (s : List Char) : Reading Body s :=
  match afterNot? s with
  | none => .error (.mismatch s)
  | some ⟨next, lt⟩ =>
    match unary next with
    | .error e => .error e
    | .ok inner => .ok ⟨.not inner.value, inner.rest, by have := inner.shorter; omega⟩
termination_by 8 * s.length + 0

def quantified (s : List Char) : Reading Body s :=
  match head s with
  | .error e => .error e
  | .ok h =>
    have lt := h.shorter
    match body h.rest with
    | .error e => .error e
    | .ok b => .ok ⟨.quantified h.value.quantifier h.value.var h.value.range b.value, b.rest, by
        have := b.shorter
        omega⟩
termination_by 8 * s.length + 0

def parenthesized (s : List Char) : Reading Body s :=
  match afterChar? '(' s with
  | none => .error (.mismatch s)
  | some ⟨inside, lt⟩ =>
    match body inside with
    | .error e => .error e
    | .ok b =>
      match afterMark? ')' b.rest with
      | none => .error (.mismatch s)
      | some ⟨rest, lt'⟩ => .ok ⟨b.value, rest, by have := b.shorter; omega⟩
termination_by 8 * s.length + 0

end

/-! ## Declarations -/

/-- an outer variable and its domain -/
def binding (s : List Char) : Reading Binding s :=
  match word? (skipBlank s) with
  | none => .error (.mismatch (skipBlank s))
  | some v =>
    match afterIn v.rest with
    | .error place => .error (.mismatch place)
    | .ok ⟨r, lt⟩ =>
      match word? (skipBlank r) with
      | none => .error (.mismatch (skipBlank r))
      | some d =>
        match Domain.ofKeyword? d.value with
        | none => .error (.mismatch r)
        | some domain => .ok ⟨⟨v.value, domain⟩, d.rest, by
            have := skipBlank_length_le s
            have := v.shorter
            have := skipBlank_length_le r
            have := d.shorter
            omega⟩

/-- the items behind the first one, each with a comma in front; a comma without an item is left where it is -/
def moreItems {α : Type} (item : (s : List Char) → Reading α s) (s : List Char) : Continued (List α) s :=
  match afterMark? ',' s with
  | none => .ok ([], ⟨s, Nat.le_refl _⟩)
  | some ⟨next, lt⟩ =>
    match item next with
    | .error (.mismatch _) => .ok ([], ⟨s, Nat.le_refl _⟩)
    | .error e => .error e
    | .ok first =>
      have lt' := first.shorter
      match moreItems item first.rest with
      | .error e => .error e
      | .ok (others, ⟨rest, le⟩) => .ok (first.value :: others, ⟨rest, by omega⟩)
termination_by s.length

/-- items with commas between them, at least one -/
def items {α : Type} (item : (s : List Char) → Reading α s) (s : List Char) : Reading (List α) s :=
  match item s with
  | .error e => .error e
  | .ok first =>
    match moreItems item first.rest with
    | .error e => .error e
    | .ok (others, ⟨rest, le⟩) => .ok ⟨first.value :: others, rest, by have := first.shorter; omega⟩

/-- a body, two bars and the outer bindings -/
def formula (s : List Char) : Reading Formula s :=
  match body s with
  | .error e => .error e
  | .ok b =>
    match afterToken? ['|', '|'] (skipBlank b.rest) with
    | none => .error (.mismatch (skipBlank b.rest))
    | some ⟨r, lt⟩ =>
      match items binding r with
      | .error e => .error e
      | .ok bs => .ok ⟨⟨b.value, bs.value⟩, bs.rest, by
          have := b.shorter
          have := skipBlank_length_le b.rest
          have := bs.shorter
          simp only [List.length_cons] at lt
          omega⟩

/-- a parameter's name -/
def parameter (s : List Char) : Reading String s :=
  match word? (skipBlank s) with
  | none => .error (.mismatch (skipBlank s))
  | some w => .ok (w.lift (skipBlank_length_le s))

/-- a name, its parameters in parentheses, `:=` and a body -/
def subformula (s : List Char) : Reading Subformula s :=
  match parameter s with
  | .error e => .error e
  | .ok name =>
    match afterMark? '(' name.rest with
    | none => .error (.mismatch (skipBlank name.rest))
    | some ⟨r, _⟩ =>
      match items parameter r with
      | .error e => .error e
      | .ok params =>
        match afterMark? ')' params.rest with
        | none => .error (.mismatch (skipBlank params.rest))
        | some ⟨r, _⟩ =>
          match afterToken? [':', '='] (skipBlank r) with
          | none => .error (.mismatch (skipBlank r))
          | some ⟨r, lt⟩ =>
            match body r with
            | .error e => .error e
            | .ok b => .ok ⟨⟨name.value, params.value, b.value⟩, b.rest, by
                have := name.shorter
                have := params.shorter
                have := b.shorter
                simp only [List.length_cons] at lt
                have := skipBlank_length_le
                grind⟩

/-! ## Whole texts -/

/-- what a whole text is read as -/
inductive Construct where
  | formula
  | body
  | subformula
  deriving DecidableEq, Repr

def Construct.description : Construct → String
  | formula => "`<body> || <var> in <domain>, ...`"
  | body => "a boolean expression"
  | subformula => "`<name>(<param>, ...) := <body>`"

inductive ParseError where
  /-- the text stops making sense `offset` bytes from its start, where `near` stands -/
  | unexpected (offset : Nat) (near : String) (expected : Construct)
  | duplicateBinding (var : String)
  | duplicateParameter (subformula param : String)
  deriving DecidableEq, Repr

def ParseError.message : ParseError → String
  | unexpected offset near expected =>
    s!"syntax error at offset {offset} (near `{near}`): expected {expected.description}"
  | duplicateBinding var => s!"outer variable `{var}` is bound more than once"
  | duplicateParameter subformula param => s!"subformula `{subformula}` declares parameter `{param}` twice"

/-- bytes that a text takes in UTF-8 -/
def byteCount (s : List Char) : Nat := s.foldl (fun size c => size + c.utf8Size) 0

/-- reads a whole text: blanks may follow the form, and nothing else -/
def whole {α : Type} (expected : Construct) (form : (s : List Char) → Reading α s) (text : String) :
    Except ParseError α :=
  let s := text.toList
  let stopped (place : List Char) : ParseError :=
    .unexpected (byteCount s - byteCount place) (String.ofList (place.take 24)) expected
  match form s with
  | .error e => .error (stopped e.rest)
  | .ok r =>
    match skipBlank r.rest with
    | [] => .ok r.value
    | place => .error (stopped place)

/-- the first item that stands in the list a second time, by its second occurrence -/
def firstRepeated? : (seen rest : List String) → Option String
  | _, [] => none
  | seen, x :: rest => if seen.contains x then some x else firstRepeated? (seen ++ [x]) rest

end Grammar

namespace Formula

/-- reads the text of a body -/
def Body.parse (text : String) : Except Grammar.ParseError Body := Grammar.whole .body Grammar.body text

/-- reads the text of a formula, whose outer variables have to be distinct -/
def parse (text : String) : Except Grammar.ParseError Formula :=
  match Grammar.whole .formula Grammar.formula text with
  | .error e => .error e
  | .ok f =>
    match Grammar.firstRepeated? [] (f.bindings.map (·.var)) with
    | some var => .error (.duplicateBinding var)
    | none => .ok f

end Formula

/-- reads the text of a subformula, whose parameters have to be distinct -/
def Subformula.parse (text : String) : Except Grammar.ParseError Subformula :=
  match Grammar.whole .subformula Grammar.subformula text with
  | .error e => .error e
  | .ok f =>
    match Grammar.firstRepeated? [] f.params with
    | some param => .error (.duplicateParameter f.name param)
    | none => .ok f

end RoadRules
