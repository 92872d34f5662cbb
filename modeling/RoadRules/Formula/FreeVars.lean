/-
Free variables of a body, in the order of their first occurrence.
-/
import RoadRules.Formula.Basic

namespace RoadRules.Formula

mutual

/-- `found` followed by the free variables of a term that are not in it yet -/
def Term.addFree (bound : List String) : Term → List String → List String
  | .var name, found => if bound.contains name || found.contains name then found else found ++ [name]
  | .call _ args, found => Term.addFreeAll bound args found
  | .int _, found | .float _, found | .str _, found | .bool _, found => found

def Term.addFreeAll (bound : List String) : List Term → List String → List String
  | [], found => found
  | t :: rest, found => Term.addFreeAll bound rest (t.addFree bound found)

end

/-- the range of a quantifier lies outside its variable's scope -/
def Range.addFree (bound : List String) : Range → List String → List String
  | .domain _, found => found
  | .term t, found => t.addFree bound found

def Body.addFree (bound : List String) : Body → List String → List String
  | .quantified _ var range body, found => body.addFree (var :: bound) (range.addFree bound found)
  | .not inner, found => inner.addFree bound found
  | .connected _ lhs rhs, found => rhs.addFree bound (lhs.addFree bound found)
  | .predicate _ args, found => Term.addFreeAll bound args found
  | .compared _ lhs rhs, found => rhs.addFree bound (lhs.addFree bound found)
  | .literal _, found => found

/-- the variables of a body that no quantifier inside it binds -/
def Body.freeVars (body : Body) : List String := body.addFree [] []

end RoadRules.Formula
