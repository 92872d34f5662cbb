/-
Finding the places where rules are broken.

A rule is checked at every choice of elements for its outer variables. It is broken at a choice where its formula is
false or has no truth value; the ids of the chosen elements are the location, and locations that look the same are
reported once.
-/
import RoadRules.Rule.Catalog
import RoadRules.Rule.Odometer

namespace RoadRules

/-- a location behind the ones found so far, unless it is among them -/
def noteLocation (found : List Location) (l : Location) : List Location :=
  if found.contains l then found else found ++ [l]

namespace Catalog

/-- the choices of elements for the outer variables of a rule, in the order in which they are checked -/
def bindings (v : NetworkView) (e : CatalogEntry) : List (List Handle) :=
  choices (e.formula.bindings.map fun b => v.index.domain b.domain)

/-- is the formula true at a choice? Without a truth value it is not. -/
def holdsAt (s : Setting) (e : CatalogEntry) (binding : List Handle) : Bool :=
  match s.evaluate e.formula binding with
  | .ok b => b
  | .error _ => false

/-- the locations at which a rule is broken -/
def verifyRule (c : Catalog) (v : NetworkView) (rule : RuleId) : List Location :=
  match c.entry? rule with
  | none => []
  | some e =>
    let s := c.setting v
    visitChoices (e.formula.bindings.map fun b => v.index.domain b.domain) (fun found binding =>
      if holdsAt s e binding then found else noteLocation found (binding.filterMap v.network.idOf?)) []

/-- the broken ones of the given rules, with their locations -/
def verify (c : Catalog) (n : Network) (rules : List RuleId) : Violations :=
  let v := n.view
  .ofList ((rules.map fun r => (r, c.verifyRule v r)).filter fun e => !e.2.isEmpty)

end Catalog

end RoadRules
