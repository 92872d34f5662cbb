/-
Doubles taken apart and put together again.

`parts` reads the 64 bits of a double as sign, mantissa and power of two; `nearest` goes the other way and rounds
`mantissa * 2 ^ exponent` to the closest double, a tie going to the even mantissa. `isqrt` is the integer square root,
and `hypot` the length of a planar vector, computed on integers so that nothing overflows on the way and only the
result is rounded.
-/

namespace RoadRules.Number

/-- what the bits of a double stand for; a finite one is `mantissa * 2 ^ exponent` with its sign -/
inductive Parts where
  | finite (negative : Bool) (mantissa : Nat) (exponent : Int)
  | infinite (negative : Bool)
  | nan
  deriving DecidableEq

/-- sign, mantissa and exponent of a double -/
def parts (x : Float) : Parts :=
  let bits := x.toBits.toNat
  let negative := decide (bits >>> 63 = 1)
  let exponent : Nat := (bits >>> 52) % 2048
  let fraction : Nat := bits % 1 <<< 52
  if exponent = 2047 then (if fraction = 0 then .infinite negative else .nan)
  else if exponent = 0 then .finite negative fraction (-1074)
  else .finite negative (1 <<< 52 + fraction) ((exponent : Int) - 1075)

/-- `num / den` rounded to an integer, a tie going to the even neighbour -/
def roundHalfEven (num den : Nat) : Nat :=
  let q := num / den
  let r := num % den
  if 2 * r < den then q
  else if den < 2 * r then q + 1
  else if q % 2 = 0 then q else q + 1

/-- the quotient that the number `mantissa * 2 ^ exponent` is, as numerator and denominator -/
def fraction (mantissa : Nat) (exponent : Int) : Nat × Nat :=
  match exponent with
  | .ofNat e => (mantissa <<< e, 1)
  | .negSucc e => (mantissa, 1 <<< (e + 1))

/-- the double nearest to `mantissa * 2 ^ exponent`, infinite above the range -/
def nearest (mantissa : Nat) (exponent : Int) : Float :=
  if mantissa = 0 then 0.0 else
    -- the exponent of the last place that a double of this size keeps
    let last := max (exponent + (mantissa.log2 : Int) - 52) (-1074)
    let (num, den) := fraction mantissa (exponent - last)
    let kept := roundHalfEven num den
    let (kept, last) := if kept = 1 <<< 53 then (1 <<< 52, last + 1) else (kept, last)
    if last > 971 then Float.ofBits (UInt64.ofNat (2047 <<< 52))
    else if kept < 1 <<< 52 then Float.ofBits (UInt64.ofNat kept)
    else Float.ofBits (UInt64.ofNat ((last + 1075).toNat <<< 52 + (kept - 1 <<< 52)))

/-- the largest number whose square is at most `n` -/
def isqrt (n : Nat) : Nat :=
  if h : n = 0 then 0 else
    let root := 2 * isqrt (n / 4)
    if (root + 1) * (root + 1) ≤ n then root + 1 else root
termination_by n
decreasing_by omega

theorem isqrt_bounds (n : Nat) : isqrt n * isqrt n ≤ n ∧ n < (isqrt n + 1) * (isqrt n + 1) := by
  induction n using Nat.strongRecOn with
  | ind n ih =>
    rw [isqrt]
    split
    · next h => simp [h]
    · next h =>
      obtain ⟨lo, hi⟩ := ih (n / 4) (by omega)
      generalize isqrt (n / 4) = r at *
      have square : ∀ a : Nat, (2 * a) * (2 * a) = 4 * (a * a) := fun a => by rw [Nat.mul_mul_mul_comm]
      have next : (2 * r + 1 + 1) * (2 * r + 1 + 1) = 4 * ((r + 1) * (r + 1)) := square (r + 1)
      dsimp only
      split
      · next le => exact ⟨le, by omega⟩
      · next lt => exact ⟨by rw [square]; omega, by omega⟩

/-- the double nearest to an integer of 64 bits; a tie goes to the even mantissa -/
def ofInt64 (i : Int64) : Float := Float.ofInt i.toInt

/-- Length of the vector `(x, y)`: the double nearest to the square root of the sum of the squares; infinite as soon as
one part is infinite, also when the other is not a number.

The standard library leaves the precision of this function unspecified: its result may differ in the last place from one
machine to the next. Here it is the correctly rounded value. No general result relies on that: all that they use of a
length is when it is a number. -/
def hypot (x y : Float) : Float :=
  match parts x, parts y with
  | .infinite _, _ | _, .infinite _ => Float.ofBits (UInt64.ofNat (2047 <<< 52))
  | .nan, _ | _, .nan => Float.ofBits (UInt64.ofNat (2047 <<< 52 + 1 <<< 51))
  | .finite _ mx ex, .finite _ my ey =>
    let e := min ex ey
    let a := mx <<< (ex - e).toNat
    let b := my <<< (ey - e).toNat
    let square := a * a + b * b
    if square = 0 then 0.0 else
      -- sixty binary places more than an integer root has, and one that says whether anything is left
      let scaled := square <<< 120
      let root := isqrt scaled
      let rest := if root * root = scaled then 0 else 1
      nearest (2 * root + rest) (e - 61)

end RoadRules.Number
