/-
The formula language: terms, bodies, formulas and named subformulas.

A body is a boolean condition over the elements of a road network. A formula states a body for every choice of its outer
variables from named domains; a subformula gives a body a name and parameters, so that other bodies can call it.
-/

namespace RoadRules

/-- a named finite set of elements -/
inductive Domain where
  | lanelets
  | trafficSigns
  | trafficLights
  | intersections
  | all
  deriving DecidableEq, Repr

namespace Domain

/-- the word for a domain in formula text -/
def keyword : Domain → String
  | lanelets => "L"
  | trafficSigns => "TS"
  | trafficLights => "TL"
  | intersections => "I"
  | all => "M"

/-- every domain, in declaration order -/
def values : List Domain := [lanelets, trafficSigns, trafficLights, intersections, all]

/-- the domain a word stands for -/
def ofKeyword? (word : String) : Option Domain := values.find? (·.keyword == word)

theorem ofKeyword?_keyword (d : Domain) : ofKeyword? d.keyword = some d := by cases d <;> rfl

end Domain

namespace Formula

inductive Quantifier where
  | every
  | some
  deriving DecidableEq, Repr

inductive Connective where
  | and
  | or
  | implies
  | iff
  deriving DecidableEq, Repr

def Connective.symbol : Connective → String
  | and => "&"
  | or => "|"
  | implies => "->"
  | iff => "<->"

inductive Comparison where
  | eq
  | ne
  | lt
  | le
  | gt
  | ge
  deriving DecidableEq, Repr

def Comparison.symbol : Comparison → String
  | eq => "="
  | ne => "!="
  | lt => "<"
  | le => "<="
  | gt => ">"
  | ge => ">="

/-- an expression that stands for a value -/
inductive Term where
  | var (name : String)
  | int (value : Int64)
  | float (value : Float)
  | str (text : String)
  | bool (value : Bool)
  | call (name : String) (args : List Term)

/-- what a quantifier ranges over: a named domain, or the items of a list-valued term -/
inductive Range where
  | domain (d : Domain)
  | term (t : Term)

/-- a boolean condition -/
inductive Body where
  | quantified (quantifier : Quantifier) (var : String) (range : Range) (body : Body)
  | not (inner : Body)
  | connected (op : Connective) (lhs rhs : Body)
  | predicate (name : String) (args : List Term)
  | compared (op : Comparison) (lhs rhs : Term)
  | literal (value : Bool)

/-- an outer variable and the domain it is taken from -/
structure Binding where
  var : String
  domain : Domain
  deriving DecidableEq, Repr

end Formula

/-- a body that is stated for every choice of the outer variables -/
structure Formula where
  body : Formula.Body
  bindings : List Formula.Binding

/-- a body with a name and parameters -/
structure Subformula where
  name : String
  params : List String
  body : Formula.Body

namespace Formula

/-! ## Equality of trees

Two trees are the same when they have the same shape and the same leaves; numbers with a point are compared as
numbers, so that `0.0` and `-0.0` are the same leaf and a NaN is never one. -/

mutual

def Term.same : Term → Term → Bool
  | .var a, .var b => a == b
  | .int a, .int b => a == b
  | .float a, .float b => a == b
  | .str a, .str b => a == b
  | .bool a, .bool b => a == b
  | .call f as, .call g bs => f == g && Term.sameAll as bs
  | _, _ => false

def Term.sameAll : List Term → List Term → Bool
  | [], [] => true
  | a :: as, b :: bs => a.same b && Term.sameAll as bs
  | _, _ => false

end

def Range.same : Range → Range → Bool
  | .domain a, .domain b => a == b
  | .term a, .term b => a.same b
  | _, _ => false

def Body.same : Body → Body → Bool
  | .quantified q x r b, .quantified q' x' r' b' => q == q' && x == x' && r.same r' && b.same b'
  | .not a, .not b => a.same b
  | .connected o a b, .connected o' a' b' => o == o' && a.same a' && b.same b'
  | .predicate f as, .predicate g bs => f == g && Term.sameAll as bs
  | .compared o a b, .compared o' a' b' => o == o' && a.same a' && b.same b'
  | .literal a, .literal b => a == b
  | _, _ => false

end Formula

end RoadRules
