/-
Doubles written in decimal.

`fixed places x` is the exact binary value rounded to a number of places, a tie going to the even digit. `shortest x`
finds the fewest digits that read back as `x`: on each decimal grid, coarsest first, it tries the two neighbours of
`x`; of two that both read back the nearer one wins, and the upper one when `x` lies halfway. `plain` writes a double
positionally with those digits, and `scientific` switches to an exponent for very large and very small numbers.
-/
import RoadRules.Number.Binary

namespace RoadRules.Number

/-- the decimal digits of `n`, padded with zeros on the left to at least `width` of them -/
def padded (width n : Nat) : String :=
  let s := toString n
  "".pushn '0' (width - s.length) ++ s

/-- `num / den` with `places` decimal places; a tie goes to the even digit -/
def fixedQuotient (places num den : Nat) : String :=
  let n := roundHalfEven (num * Nat.pow 10 places) den
  if places = 0 then toString n
  else toString (n / Nat.pow 10 places) ++ "." ++ padded places (n % Nat.pow 10 places)

/-- the minus sign of a negative number -/
def sign (negative : Bool) : String := if negative then "-" else ""

/-- a double with exactly `places` decimal places -/
def fixed (places : Nat) (x : Float) : String :=
  match parts x with
  | .nan => "NaN"
  | .infinite negative => sign negative ++ "inf"
  | .finite negative m e =>
    let (num, den) := fraction m e
    sign negative ++ fixedQuotient places num den

/-- a decimal number `digits * 10 ^ exponent` -/
structure Decimal where
  digits : Nat
  exponent : Int
  deriving DecidableEq, Repr

/-- the numbers `n / 4 * 2 ^ exponent` that read back as `m * 2 ^ exponent`: the interval between the halfway points
to its two neighbours, with its ends when `m` is even. Below a power of two the lower neighbour is only half as far
away. -/
structure Interval where
  low : Nat
  value : Nat
  high : Nat
  closed : Bool

/-- the interval of a finite non-zero double, in quarters of its last binary place -/
def interval (m : Nat) (e : Int) : Interval :=
  { low := 4 * m - (if m = 1 <<< 52 ∧ e ≠ -1074 then 1 else 2)
    value := 4 * m
    high := 4 * m + 2
    closed := m % 2 = 0 }

/-- is `num / den` inside the interval from `low / unit` to `high / unit`? -/
def Interval.holds (i : Interval) (unit num den : Nat) : Bool :=
  if i.closed then i.low * den ≤ num * unit && num * unit ≤ i.high * den
  else i.low * den < num * unit && num * unit < i.high * den

/-- the exponent `k` with `10 ^ (k - 1) ≤ num / den < 10 ^ k`, for a positive quotient -/
def magnitude (num den : Nat) : Int :=
  if den ≤ num then ((toString (num / den)).length : Int)
  else
    -- the quotient of `den - 1` by `num` has as many digits as there are zeros behind the point, and one more
    1 - ((toString ((den - 1) / num)).length : Int)

/-- the neighbours of `value / unit` on the grid of the multiples of `10 ^ exponent`; the nearer one that is inside the
interval, the upper one when both are equally near -/
def Interval.onGrid (i : Interval) (unit : Nat) (exponent : Int) : Option Nat :=
  let step : Nat × Nat := match exponent with
    | .ofNat k => (Nat.pow 10 k, 1)
    | .negSucc k => (1, Nat.pow 10 (k + 1))
  -- value / unit divided by the grid's step
  let num := i.value * step.2
  let den := unit * step.1
  let below := num / den
  let above := below + 1
  let inside (n : Nat) := i.holds unit (n * step.1) step.2
  let near := if 2 * (num % den) < den then below else above
  let far := if near = below then above else below
  if inside near then some near else if inside far then some far else none

/-- the fewest digits of a positive double `m * 2 ^ e` that read back as it; seventeen always do -/
def shortest (m : Nat) (e : Int) : Decimal :=
  let i := interval m e
  let (num, den) := fraction i.value (e - 2)
  let (unitNum, unit) := fraction 1 (e - 2)
  let i : Interval := ⟨i.low * unitNum, i.value * unitNum, i.high * unitNum, i.closed⟩
  let top := magnitude num den
  let ofLength (count : Nat) : Option Decimal :=
    (i.onGrid unit (top - count)).map fun n => ⟨n, top - count⟩
  match (List.range 18).findSome? fun k => ofLength (k + 1) with
  | some d => d
  | none => ⟨0, 0⟩

/-- a decimal number in positional form, with at least one digit on each side of the point -/
def Decimal.positional (d : Decimal) : String :=
  match d.exponent with
  | .ofNat k => toString (d.digits * Nat.pow 10 k) ++ ".0"
  | .negSucc k =>
    let places := k + 1
    let unit := Nat.pow 10 places
    -- zeros at the end are not written
    let tail := (padded places (d.digits % unit)).toList.reverse.dropWhile (· == '0') |>.reverse
    toString (d.digits / unit) ++ "." ++ (if tail.isEmpty then "0" else String.ofList tail)

/-- a double in positional form: an integral one with all its digits and `.0`, another one with the fewest digits that
read back -/
def plain (x : Float) : String :=
  match parts x with
  | .nan => "NaN"
  | .infinite negative => sign negative ++ "inf"
  | .finite negative m e =>
    let (num, den) := fraction m e
    if num % den = 0 then sign negative ++ toString (num / den) ++ ".0"
    else sign negative ++ (shortest m e).positional

/-- zeros at the end of the digits moved into the exponent; `fuel` bounds how many -/
def Decimal.trim : Nat → Decimal → Decimal
  | 0, d => d
  | fuel + 1, d => if d.digits ≠ 0 ∧ d.digits % 10 = 0 then trim fuel ⟨d.digits / 10, d.exponent + 1⟩ else d

/-- a finite double with the fewest digits that read back: positional from `0.00001` up to sixteen digits before the
point, with an exponent outside -/
def scientific (negative : Bool) (m : Nat) (e : Int) : String :=
  if m = 0 then sign negative ++ "0.0" else
    let d := (shortest m e).trim 20
    let text := toString d.digits
    let top := d.exponent + text.length
    if -5 < top ∧ top ≤ 16 then sign negative ++ d.positional
    else
      let mantissa := match text.toList with
        | [] => ""
        | [c] => String.singleton c
        | c :: rest => String.singleton c ++ "." ++ String.ofList rest
      sign negative ++ mantissa ++ "e" ++ toString (top - 1)

/-- the double that a decimal number `digits * 10 ^ exponent` is nearest to; exponents far outside the range of a double
are cut off first -/
def ofDecimal (digits : Nat) (exponent : Int) : Float :=
  if digits = 0 then 0.0
  else
    let size := exponent + (toString digits).length
    if size > 400 then Float.ofBits (UInt64.ofNat (2047 <<< 52))
    else if size < -400 then 0.0
    else match exponent with
      | .ofNat k => Float.ofScientific (digits * Nat.pow 10 k) false 0
      | .negSucc k => Float.ofScientific digits true (k + 1)

end RoadRules.Number
