/-
Formula text. Every connective and quantifier is written with its own parentheses, so that the text reads back as the
same tree whatever the precedence of the operators around it.
-/
import RoadRules.Formula.Basic
import RoadRules.Number.Decimal

namespace RoadRules

namespace Formula

mutual

def Term.text : Term → String
  | .var name => name
  | .int value => toString value.toInt
  | .float value => Number.plain value
  | .str text => "\"" ++ text ++ "\""
  | .bool value => if value then "true" else "false"
  | .call name args => name ++ "(" ++ Term.listText args ++ ")"

/-- arguments with a comma and a blank between them -/
def Term.listText : List Term → String
  | [] => ""
  | t :: rest => t.text ++ Term.tailText rest

/-- the arguments behind the first one, each with the comma in front of it -/
def Term.tailText : List Term → String
  | [] => ""
  | t :: rest => ", " ++ t.text ++ Term.tailText rest

end

def Range.text : Range → String
  | .domain d => d.keyword
  | .term t => t.text

def Quantifier.letter : Quantifier → String
  | .every => "A"
  | .some => "E"

def Body.text : Body → String
  | .quantified q var range body => "(" ++ q.letter ++ " " ++ var ++ " in " ++ range.text ++ ". " ++ body.text ++ ")"
  | .not inner => "!" ++ inner.text
  | .connected op lhs rhs => "(" ++ lhs.text ++ " " ++ op.symbol ++ " " ++ rhs.text ++ ")"
  | .predicate name args => name ++ "(" ++ Term.listText args ++ ")"
  | .compared op lhs rhs => lhs.text ++ " " ++ op.symbol ++ " " ++ rhs.text
  | .literal value => if value then "true" else "false"

def Binding.text (b : Binding) : String := b.var ++ " in " ++ b.domain.keyword

/-- the body, two bars, and the outer bindings -/
def text (f : Formula) : String :=
  f.body.text ++ " ||" ++ (if f.bindings.isEmpty then "" else " " ++ ", ".intercalate (f.bindings.map Binding.text))

end Formula

def Subformula.text (s : Subformula) : String :=
  s.name ++ "(" ++ ", ".intercalate s.params ++ ") := " ++ s.body.text

end RoadRules
