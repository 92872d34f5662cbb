/-
Points of the plane.

Coordinates are doubles where the program runs; `Scalar` names what a computation with them may use, so that the same
computation can be carried out on exact numbers.
-/
import RoadRules.Number.Binary

namespace RoadRules

/-- numbers that coordinates are made of -/
class Scalar (α : Type) extends Add α, Sub α, Mul α, Div α, Zero α, BEq α where
  lt : α → α → Bool
  le : α → α → Bool
  lesser : α → α → α
  greater : α → α → α

/-- the smaller of two doubles; one that is not a number loses against the other -/
def lesserFloat (a b : Float) : Float := if a < b || b.isNaN then a else b

/-- the larger of two doubles; one that is not a number loses against the other -/
def greaterFloat (a b : Float) : Float := if b < a || b.isNaN then a else b

instance : Scalar Float where
  zero := 0.0
  lt a b := a < b
  le a b := a ≤ b
  lesser := lesserFloat
  greater := greaterFloat

/-- a point with coordinates in `α` -/
structure Vec2 (α : Type) where
  x : α
  y : α
  deriving DecidableEq, Repr

abbrev Point := Vec2 Float

namespace Vec2

variable {α : Type} [Scalar α]

/-- points are compared by their coordinates; one with a coordinate that is not a number differs from itself -/
instance : BEq (Vec2 α) := ⟨fun p q => p.x == q.x && p.y == q.y⟩

/-- the point that divides the way from `p` to `q` at `t` -/
def lerp (p q : Vec2 α) (t : α) : Vec2 α := ⟨p.x + (q.x - p.x) * t, p.y + (q.y - p.y) * t⟩

/-- twice the signed area of the triangle `o`, `a`, `b` -/
def cross (o a b : Vec2 α) : α := (a.x - o.x) * (b.y - o.y) - (a.y - o.y) * (b.x - o.x)

/-- does `p` lie in the box spanned by `a` and `b`? -/
def inBox (p a b : Vec2 α) : Bool :=
  Scalar.le (Scalar.lesser a.x b.x) p.x && Scalar.le p.x (Scalar.greater a.x b.x) &&
    Scalar.le (Scalar.lesser a.y b.y) p.y && Scalar.le p.y (Scalar.greater a.y b.y)

/-- a point that the segments `p1 p2` and `q1 q2` share, ends included -/
def crossing? (p1 p2 q1 q2 : Vec2 α) : Option (Vec2 α) :=
  let d1 := cross q1 q2 p1
  let d2 := cross q1 q2 p2
  let d3 := cross p1 p2 q1
  let d4 := cross p1 p2 q2
  let opposite (a b : α) := (Scalar.lt 0 a && Scalar.lt b 0) || (Scalar.lt a 0 && Scalar.lt 0 b)
  if opposite d1 d2 && opposite d3 d4 then some (lerp p1 p2 (d1 / (d1 - d2)))
  else if d1 == 0 && inBox p1 q1 q2 then some p1
  else if d2 == 0 && inBox p2 q1 q2 then some p2
  else if d3 == 0 && inBox q1 p1 p2 then some q1
  else if d4 == 0 && inBox q2 p1 p2 then some q2
  else none

/-- the length of the way from `p` to `q` -/
def distance (p q : Point) : Float := Number.hypot (p.x - q.x) (p.y - q.y)

def midpoint (p q : Point) : Point := p.lerp q 0.5

end Vec2

end RoadRules
