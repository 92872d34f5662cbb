/-
Formulas with their names resolved.

Compiling turns variables into slots of a frame and calls into references to a builtin or to an earlier subformula.
Names that mean nothing, wrong numbers of arguments and unbound variables are found here, before anything is
evaluated. The slot of a variable is the number of variables in scope around it, so quantifiers beside each other use
the same slot.
-/
import RoadRules.Rule.Builtin
import RoadRules.Formula.Parser

namespace RoadRules

/-- what a call refers to: a builtin, or a position in the table of subformulas -/
inductive Callee where
  | builtin (b : Builtin)
  | subformula (index : Nat)
  deriving DecidableEq

/-- a term with its names resolved -/
inductive Operand where
  | slot (slot : Nat)
  | const (value : Value)
  | call (callee : Callee) (args : List Operand)

/-- what a quantifier ranges over -/
inductive Items where
  | domain (d : Domain)
  | operand (t : Operand)

/-- a body with its names resolved -/
inductive Code where
  | quantified (quantifier : Formula.Quantifier) (slot : Nat) (items : Items) (body : Code)
  | not (inner : Code)
  | connected (op : Formula.Connective) (lhs rhs : Code)
  | predicate (callee : Callee) (args : List Operand)
  | compared (op : Formula.Comparison) (lhs rhs : Operand)
  | literal (value : Bool)

/-- how many slots the code writes to: one more than the highest one -/
def Code.slots : Code → Nat
  | .quantified _ slot _ body => max (slot + 1) body.slots
  | .not inner => inner.slots
  | .connected _ lhs rhs => max lhs.slots rhs.slots
  | .predicate .. | .compared .. | .literal _ => 0

/-- a subformula with its parameters in the first slots -/
structure CompiledSubformula where
  name : String
  arity : Nat
  body : Code

/-- a formula with its outer variables in the first slots -/
structure CompiledFormula where
  bindings : List Formula.Binding
  body : Code

def CompiledSubformula.frameSize (s : CompiledSubformula) : Nat := max s.arity s.body.slots

def CompiledFormula.frameSize (f : CompiledFormula) : Nat := max f.bindings.length f.body.slots

/-- what is wrong with the sources of a catalog; `context` names the source -/
inductive CatalogError where
  | unknownFormula (name : String)
  | parse (context : String) (cause : Grammar.ParseError)
  | unknownName (context name : String)
  | arity (context name : String) (expected got : Nat)
  | notAPredicate (context name : String)
  | unboundVariable (context var : String)
  | duplicateSubformula (name : String)
  deriving DecidableEq, Repr

def CatalogError.message : CatalogError → String
  | unknownFormula name => s!"unknown formula id `{name}`"
  | parse context cause => s!"failed to parse {context}: {cause.message}"
  | unknownName context name => s!"{context}: unknown predicate or function `{name}`"
  | arity context name expected got => s!"{context}: `{name}` takes {expected} argument(s), got {got}"
  | notAPredicate context name =>
    s!"{context}: `{name}` does not yield a truth value and cannot be used as a predicate"
  | unboundVariable context var => s!"{context}: unbound variable `{var}`"
  | duplicateSubformula name => s!"subformula `{name}` is declared twice"

/-- what names can refer to while one source is compiled -/
structure Names where
  subformulas : List CompiledSubformula
  context : String

namespace Names

open Formula (Term Range Body)

/-- the slot of a variable, by its innermost binder; the scope lists the innermost variable first -/
def slot? (var : String) : (scope : List String) → Option Nat
  | [] => none
  | x :: outer => if x = var then some outer.length else slot? var outer

/-- the callee of a name and the number of its arguments; a subformula hides a builtin of the same name -/
def callee? (names : Names) (name : String) : Option (Callee × Nat) :=
  match names.subformulas.findIdx? (·.name == name) with
  | some index => names.subformulas[index]?.map fun s => (.subformula index, s.arity)
  | none => (Builtin.ofName? name).map fun b => (.builtin b, b.arity)

/-- the callee of a name, for a call with `got` arguments -/
def callee (names : Names) (name : String) (got : Nat) : Except CatalogError Callee :=
  match names.callee? name with
  | none => .error (.unknownName names.context name)
  | some (callee, expected) =>
    if got = expected then .ok callee else .error (.arity names.context name expected got)

mutual

def operand (names : Names) (scope : List String) : Term → Except CatalogError Operand
  | .var name =>
    match slot? name scope with
    | some slot => .ok (.slot slot)
    | none => .error (.unboundVariable names.context name)
  | .int i => .ok (.const (.int i))
  | .float x => .ok (.const (.float x))
  | .str s => .ok (.const (.str s))
  | .bool b => .ok (.const (.bool b))
  | .call name args => do
    let callee ← names.callee name args.length
    let args ← operands names scope args
    return .call callee args

def operands (names : Names) (scope : List String) : List Term → Except CatalogError (List Operand)
  | [] => .ok []
  | t :: rest => do
    let t ← operand names scope t
    let rest ← operands names scope rest
    return t :: rest

end

def items (names : Names) (scope : List String) : Range → Except CatalogError Items
  | .domain d => .ok (.domain d)
  | .term t => (operand names scope t).map .operand

def code (names : Names) (scope : List String) : Body → Except CatalogError Code
  | .quantified q var range body => do
    let range ← items names scope range
    let body ← code names (var :: scope) body
    return .quantified q scope.length range body
  | .not inner => do return .not (← code names scope inner)
  | .connected op lhs rhs => do
    let lhs ← code names scope lhs
    let rhs ← code names scope rhs
    return .connected op lhs rhs
  | .predicate name args => do
    let callee ← names.callee name args.length
    let args ← operands names scope args
    match callee with
    | .builtin b => if b.isPredicate then return .predicate callee args else .error (.notAPredicate names.context name)
    | .subformula _ => return .predicate callee args
  | .compared op lhs rhs => do
    let lhs ← operand names scope lhs
    let rhs ← operand names scope rhs
    return .compared op lhs rhs
  | .literal b => .ok (.literal b)

end Names

/-- compiles a subformula, which may call the earlier ones -/
def Subformula.compile (s : Subformula) (earlier : List CompiledSubformula) :
    Except CatalogError CompiledSubformula := do
  if earlier.any (·.name == s.name) then .error (.duplicateSubformula s.name)
  let body ← Names.code ⟨earlier, s!"subformula `{s.name}`"⟩ s.params.reverse s.body
  return ⟨s.name, s.params.length, body⟩

def Formula.compile (f : Formula) (subformulas : List CompiledSubformula) (context : String) :
    Except CatalogError CompiledFormula := do
  let body ← Names.code ⟨subformulas, context⟩ (f.bindings.map (·.var)).reverse f.body
  return ⟨f.bindings, body⟩

end RoadRules
