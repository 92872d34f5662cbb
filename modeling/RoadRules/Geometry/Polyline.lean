/-
Lines through a list of points: length, resampling, centre lines, self-crossings and distance.
-/
import RoadRules.Geometry.Point

namespace RoadRules

namespace Polyline

/-- the pairs of points that follow each other -/
def segments {α : Type} (line : List α) : List (α × α) := line.zip line.tail

/-- the sum of the segments' lengths, added up from the start -/
def length (line : List Point) : Float := (segments line).foldl (fun sum s => sum + s.1.distance s.2) (-0.0)

/-- a value moved into the interval from 0 to 1; what is not a number stays as it is -/
def clampUnit (t : Float) : Float :=
  let t := if t < 0.0 then 0.0 else t
  if 1.0 < t then 1.0 else t

/-- walks from the segment `a b`, which starts at distance `start`, to the one in which the point at distance `target`
lies; the last segment is never left -/
def seek (target : Float) : (start : Float) → (a b : Point) → (rest : List Point) → Float × Point × Point × List Point
  | start, a, b, [] => (start, a, b, [])
  | start, a, b, c :: rest =>
    let len := a.distance b
    if target ≤ start + len then (start, a, b, c :: rest) else seek target (start + len) b c rest

/-- points at the distances `total * i / (count - 1)` along the line, for `i` from `next` on; every walk goes on where
the last one stopped -/
def sample (total : Float) (count : Nat) : (next left : Nat) → (start : Float) → (a b : Point) → List Point → List Point
  | _, 0, _, _, _, _ => []
  | next, left + 1, start, a, b, rest =>
    let target := total * next.toFloat / (count - 1).toFloat
    let (start, a, b, rest) := seek target start a b rest
    let len := a.distance b
    let t := if len == 0.0 then 0.0 else clampUnit ((target - start) / len)
    a.lerp b t :: sample total count (next + 1) left start a b rest

/-- a line with `count` points at equal distances along the given one; the two end points stay -/
def resample (line : List Point) (count : Nat) : List Point :=
  match line with
  | [] => []
  | [p] => List.replicate count p
  | a :: b :: rest =>
    if count ≤ 1 then List.replicate count a
    else
      let total := length line
      if total == 0.0 then List.replicate count a
      else
        let last := (b :: rest).getLast (List.cons_ne_nil b rest)
        (sample total count 0 (count - 1) 0.0 a b rest) ++ [last]

/-- the points halfway between two borders; the shorter border is resampled first -/
def centerline (left right : List Point) : List Point :=
  if left.isEmpty || right.isEmpty then []
  else if left.length = right.length then (left.zip right).map fun (l, r) => l.midpoint r
  else
    let n := max left.length right.length
    ((resample left n).zip (resample right n)).map fun (l, r) => l.midpoint r

/-! ## Crossings

The functions here take the crossing test as a parameter: what is cut away depends on its answers only. -/

section Crossings

variable {α : Type} (cross? : α → α → α → α → Option α)

/-- the first segment of `line` that the segment `a b` crosses: its number, counted from `j`, and the common point -/
def crossedBy (a b : α) (j : Nat) : (line : List α) → Option (Nat × α)
  | c :: d :: rest =>
    match cross? a b c d with
    | some p => some (j, p)
    | none => crossedBy a b (j + 1) (d :: rest)
  | _ => none

/-- the first two segments that cross and do not follow each other, numbered from `i`, with their common point -/
def firstCrossing (i : Nat) : (line : List α) → Option (Nat × Nat × α)
  | a :: b :: rest =>
    match crossedBy cross? a b (i + 2) rest with
    | some (j, p) => some (i, j, p)
    | none => firstCrossing (i + 1) (b :: rest)
  | _ => none

/-- how many segments of `line` the segment `a b` crosses -/
def crossedCount (a b : α) : (line : List α) → Nat
  | c :: d :: rest => (if (cross? a b c d).isSome then 1 else 0) + crossedCount a b (d :: rest)
  | _ => 0

/-- how many pairs of segments cross that do not follow each other -/
def crossingCount : (line : List α) → Nat
  | a :: b :: rest => crossedCount cross? a b rest + crossingCount (b :: rest)
  | _ => 0

/-- does the line cross itself? -/
def isSelfCrossing (line : List α) : Bool := (firstCrossing cross? 0 line).isSome

/-- a list without the items that equal the one before them; of equal neighbours the first one stays -/
def dropRepeats [BEq α] : List α → List α
  | [] => []
  | a :: rest => a :: dropEqual a rest
where
  /-- the items of a list that do not equal the last one kept, which is `a` at first -/
  dropEqual (a : α) : List α → List α
    | [] => []
    | b :: rest => if b == a then dropEqual a rest else b :: dropEqual b rest

/-- the line with its first loop cut off at the crossing: the points between the two crossing segments give way to the
common point, and points that are repeated afterwards are dropped. `none` when the line does not cross itself. -/
def cutFirstLoop [BEq α] (line : List α) : Option (List α) :=
  match firstCrossing cross? 0 line with
  | none => none
  | some (i, j, p) => some (dropRepeats (line.take (i + 1) ++ p :: line.drop (j + 1)))

end Crossings

/-! ## Distance -/

/-- a distance as a place in the search for the least one: one that cannot be computed from coordinates that are numbers
comes first, one to a point without a position comes last -/
inductive Reach where
  | undefined
  | within (distance : Float)
  | nowhere

namespace Reach

/-- the distance itself -/
def value : Reach → Float
  | undefined | nowhere => 0.0 / 0.0
  | within d => d

/-- does `a` come before `b`? -/
def before : Reach → Reach → Bool
  | undefined, undefined => false
  | undefined, _ => true
  | within _, undefined => false
  | within a, within b => a < b
  | within _, nowhere => true
  | nowhere, _ => false

/-- a computed distance between points, some of whose coordinates may not be numbers -/
def of (points : List Point) (distance : Float) : Reach :=
  if distance.isNaN then (if points.any fun p => p.x.isNaN || p.y.isNaN then nowhere else undefined)
  else within distance

end Reach

/-- distance from a point to the closest point of a segment -/
def distanceToSegment (p a b : Point) : Float :=
  let square (t : Float) := t * t
  let len2 := square (b.x - a.x) + square (b.y - a.y)
  if len2 == 0.0 then p.distance a
  else
    let t := clampUnit (((p.x - a.x) * (b.x - a.x) + (p.y - a.y) * (b.y - a.y)) / len2)
    p.distance (a.lerp b t)

/-- distance from a point to the closest point of a line; an empty line has none -/
def reach? (p : Point) (line : List Point) : Option Reach :=
  match line with
  | [] => none
  | [a] => some (.of [p, a] (p.distance a))
  | a :: b :: rest =>
    let reach (s : Point × Point) := Reach.of [p, s.1, s.2] (distanceToSegment p s.1 s.2)
    let nearer (least : Reach) (s : Point × Point) := if (reach s).before least then reach s else least
    some ((segments (b :: rest)).foldl nearer (reach (a, b)))

/-- distance from a point to the closest point of a line; an empty line has none -/
def distance? (p : Point) (line : List Point) : Option Float := (reach? p line).map Reach.value

end Polyline

end RoadRules
