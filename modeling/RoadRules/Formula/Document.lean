/-
The tree of a formula as JSON. Each node is an object with one member, whose name says what kind of node it is.
-/
import RoadRules.Formula.Basic
import RoadRules.Json.Basic

namespace RoadRules

def Domain.tag : Domain → String
  | lanelets => "Lanelets"
  | trafficSigns => "TrafficSigns"
  | trafficLights => "TrafficLights"
  | intersections => "Intersections"
  | all => "All"

namespace Formula

def Quantifier.tag : Quantifier → String
  | every => "ForAll"
  | some => "Exists"

def Connective.tag : Connective → String
  | and => "And"
  | or => "Or"
  | implies => "Implies"
  | iff => "Iff"

def Comparison.tag : Comparison → String
  | eq => "Eq"
  | ne => "Ne"
  | lt => "Lt"
  | le => "Le"
  | gt => "Gt"
  | ge => "Ge"

/-- a node -/
def node (tag : String) (content : Json) : Json := .object [(tag, content)]

mutual

def Term.toJson : Term → Json
  | .var name => node "Var" (.str name)
  | .int value => node "Int" (.int value.toInt)
  | .float value => node "Float" (.ofFloat value)
  | .str text => node "Str" (.str text)
  | .bool value => node "Bool" (.bool value)
  | .call name args => node "Call" (.object [("name", .str name), ("args", .list (Term.allToJson args))])

def Term.allToJson : List Term → List Json
  | [] => []
  | t :: rest => t.toJson :: Term.allToJson rest

end

def Range.toJson : Range → Json
  | .domain d => node "Named" (.str d.tag)
  | .term t => node "Term" t.toJson

def Body.toJson : Body → Json
  | .quantified q var range body => node "Quantifier" (.object
      [("quantifier", .str q.tag), ("var", .str var), ("domain", range.toJson), ("body", body.toJson)])
  | .not inner => node "Not" inner.toJson
  | .connected op lhs rhs =>
    node "Connective" (.object [("op", .str op.tag), ("lhs", lhs.toJson), ("rhs", rhs.toJson)])
  | .predicate name args =>
    node "Predicate" (.object [("name", .str name), ("args", .list (Term.allToJson args))])
  | .compared op lhs rhs =>
    node "Compare" (.object [("op", .str op.tag), ("lhs", lhs.toJson), ("rhs", rhs.toJson)])
  | .literal value => node "Literal" (.bool value)

def Binding.toJson (b : Binding) : Json := .object [("var", .str b.var), ("domain", .str b.domain.tag)]

def toJson (f : Formula) : Json :=
  .object [("bindings", .list (f.bindings.map Binding.toJson)), ("body", f.body.toJson)]

end Formula

def Subformula.toJson (s : Subformula) : Json :=
  .object [("name", .str s.name), ("params", .list (s.params.map .str)), ("body", s.body.toJson)]

end RoadRules
