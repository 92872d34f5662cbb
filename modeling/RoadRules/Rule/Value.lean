/-
Values of formula terms, and what can go wrong when a formula is evaluated.
-/
import RoadRules.Network.Element

namespace RoadRules

/-- the components of an element that a formula can name -/
inductive PartKind where
  | signPlate
  | cycleStep
  | incomingGroup
  deriving DecidableEq, Repr

def PartKind.name : PartKind → String
  | signPlate => "sign element"
  | cycleStep => "cycle element"
  | incomingGroup => "incoming group"

/-- the component of an element at a position -/
structure Part where
  owner : Handle
  kind : PartKind
  index : Nat
  deriving DecidableEq, Repr

inductive Value where
  | bool (value : Bool)
  | int (value : Int64)
  | float (value : Float)
  | str (text : String)
  | point (p : Point)
  | list (items : List Value)
  | element (h : Handle)
  | part (p : Part)

/-- why a formula has no truth value at a binding -/
inductive EvalError where
  | typeMismatch (function expected found : String)
  | indexOutOfRange (function : String) (index : Int) (length : Nat)
  | notFound (function : String)
  | missingArgument (function : String) (position : Nat)
  | danglingHandle (kind : Kind)
  | incomparable (lhs rhs : String)
  | notIterable (found : String)
  /-- code that reads past the end of its frame -/
  | noSlot (slot : Nat)
  /-- code that calls a subformula which is not in the table -/
  | noSubformula (index : Nat)
  deriving DecidableEq, Repr

def EvalError.message : EvalError → String
  | typeMismatch function expected found => s!"`{function}` expected {expected}, got {found}"
  | indexOutOfRange function index length => s!"`{function}`: index {index} is out of range for length {length}"
  | notFound function => s!"`{function}`: value not found"
  | missingArgument function position => s!"`{function}`: missing argument {position}"
  | danglingHandle kind => s!"handle to a {kind.name} that is no longer in the network"
  | incomparable lhs rhs => s!"cannot order {lhs} against {rhs}"
  | notIterable found => s!"quantifier range must be a list, got {found}"
  | noSlot slot => s!"no slot {slot} in the frame"
  | noSubformula index => s!"no subformula {index} in the table"

namespace Value

def typeName : Value → String
  | bool _ => "bool"
  | int _ => "int"
  | float _ => "float"
  | str _ => "string"
  | point _ => "point"
  | list _ => "list"
  | element _ => "element"
  | part _ => "part"

def ofId (id : ElementId) : Value := int (Int64.ofNat id.toNat)

def ofIds (ids : List ElementId) : Value := list (ids.map ofId)

def ofPoints (points : List Point) : Value := list (points.map point)

def ofNat (n : Nat) : Value := int (Int64.ofNat n)

/-! ## Reading a value as one of a type

The name of the function that asks stands in the error. -/

def mismatch {α : Type} (v : Value) (function expected : String) : Except EvalError α :=
  .error (.typeMismatch function expected v.typeName)

def asBool (function : String) : Value → Except EvalError Bool
  | bool b => .ok b
  | v => v.mismatch function "bool"

def asInt (function : String) : Value → Except EvalError Int64
  | int i => .ok i
  | v => v.mismatch function "int"

/-- integers count as numbers too, as the nearest double -/
def asNumber (function : String) : Value → Except EvalError Float
  | int i => .ok (Number.ofInt64 i)
  | float x => .ok x
  | v => v.mismatch function "number"

def asStr (function : String) : Value → Except EvalError String
  | str s => .ok s
  | v => v.mismatch function "string"

def asPoint (function : String) : Value → Except EvalError Point
  | point p => .ok p
  | v => v.mismatch function "point"

def asList (function : String) : Value → Except EvalError (List Value)
  | list items => .ok items
  | v => v.mismatch function "list"

/-! ## Comparing values -/

mutual

/-- equality, also between an integer and a float of the same size; values of other types are never equal -/
def looseEq : Value → Value → Bool
  | bool a, bool b => a == b
  | int a, int b => a == b
  | float a, float b => a == b
  | int a, float b => Number.ofInt64 a == b
  | float a, int b => Number.ofInt64 b == a
  | str a, str b => a == b
  | point p, point q => p == q
  | list as, list bs => looseEqAll as bs
  | element g, element h => g == h
  | part p, part q => p == q
  | _, _ => false

def looseEqAll : List Value → List Value → Bool
  | [], [] => true
  | a :: as, b :: bs => looseEq a b && looseEqAll as bs
  | _, _ => false

end

/-- the order of two floats, if both are numbers -/
def compareFloat? (a b : Float) : Option Ordering :=
  if a < b then some .lt else if a == b then some .eq else if b < a then some .gt else none

/-- the order of two numbers or two strings -/
def compare (a b : Value) : Except EvalError Ordering :=
  let incomparable : EvalError := .incomparable a.typeName b.typeName
  match a, b with
  | int x, int y => .ok (if x < y then .lt else if x = y then .eq else .gt)
  | str s, str t => .ok (if s < t then .lt else if s = t then .eq else .gt)
  | int x, float y => (compareFloat? (Number.ofInt64 x) y).elim (.error incomparable) .ok
  | float x, int y => (compareFloat? x (Number.ofInt64 y)).elim (.error incomparable) .ok
  | float x, float y => (compareFloat? x y).elim (.error incomparable) .ok
  | _, _ => .error incomparable

end Value

end RoadRules
