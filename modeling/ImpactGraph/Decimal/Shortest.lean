/-!
# The shortest decimal of a binary fraction

A finite double is `m · 2 ^ q` with `m < 2 ^ 53`.  The reals that round to it form an interval
around it, closed exactly when `m` is even.  `Decimal.shortest` tries the decimal grids of one,
two, … seventeen digits and returns the point of the first grid that hits the interval; of two
points of one grid it takes the nearer one, and of two that are equally near the one whose last
digit is even.  All arithmetic is on natural numbers.
-/

set_option autoImplicit false

namespace ImpactGraph

/-- A decimal number `digits · 10 ^ exponent`. -/
structure Decimal where
  /-- The digits, without their point. -/
  digits : Nat
  /-- The power of ten that the digits are multiplied by. -/
  exponent : Int
  deriving DecidableEq, Repr

namespace Decimal

/-- A positive binary fraction `m · 2 ^ q`. -/
structure Binary where
  /-- The significand. -/
  significand : Nat
  /-- The power of two it is multiplied by. -/
  exponent : Int
  /-- Whether the next smaller value is only half as far away as the next larger one. -/
  narrowBelow : Bool

/-- The number of fractions between two powers of two, which take 52 bits. -/
def fractionCount : Nat := 0x10000000000000

/-- The number of exponents, which take 11 bits. -/
def exponentCount : Nat := 0x800

/-- The significand and exponent in the bits of a finite double, without its sign. -/
def Binary.ofBits (bits : UInt64) : Binary :=
  let fraction := bits.toNat % fractionCount
  let biased := bits.toNat / fractionCount % exponentCount
  if biased = 0 then ⟨fraction, -1074, false⟩
  else ⟨fraction + fractionCount, (biased : Int) - 1075, fraction = 0 && 1 < biased⟩

/-- Quarters of the value scaled to an integer over a power of two: `(numerator, denominator)`. -/
def Binary.quarters (b : Binary) (quarter : Nat) : Nat × Nat :=
  if 2 ≤ b.exponent then (quarter * Nat.pow 2 (b.exponent - 2).toNat, 1)
  else (quarter, Nat.pow 2 (2 - b.exponent).toNat)

/-- Compares `d · 10 ^ e` with a fraction. -/
def compareScaled (d : Nat) (e : Int) (fraction : Nat × Nat) : Ordering :=
  if 0 ≤ e then compare (d * Nat.pow 10 e.toNat * fraction.2) fraction.1
  else compare (d * fraction.2) (fraction.1 * Nat.pow 10 (-e).toNat)

/-- Whether `d · 10 ^ e` rounds to the value. -/
def Binary.covers (b : Binary) (d : Nat) (e : Int) : Bool :=
  let m := 4 * b.significand
  let low := compareScaled d e (b.quarters (if b.narrowBelow then m - 1 else m - 2))
  let high := compareScaled d e (b.quarters (m + 2))
  (low == .gt && high == .lt) || (b.significand % 2 == 0 && (low == .eq || high == .eq))

/-- The integer part of the value divided by `10 ^ e`. -/
def Binary.floorAt (b : Binary) (e : Int) : Nat :=
  let (num, den) := b.quarters (4 * b.significand)
  if 0 ≤ e then num / (den * Nat.pow 10 e.toNat) else num * Nat.pow 10 (-e).toNat / den

/-- Whether the value goes to `(d + 1) · 10 ^ e` rather than to `d · 10 ^ e`: where it is nearer, or
equally near and `d` is odd. -/
def Binary.goesAbove (b : Binary) (d : Nat) (e : Int) : Bool :=
  let (num, den) := b.quarters (4 * b.significand)
  match compareScaled (2 * d + 1) e (2 * num, den) with
  | .lt => true
  | .eq => d % 2 == 1
  | .gt => false

/-- The number of decimal digits of a positive number. -/
def digitCount (n : Nat) : Nat := (Nat.toDigits 10 n).length

/-- The power of ten of the first digit of the value. -/
def Binary.magnitude (b : Binary) : Int :=
  let (num, den) := b.quarters (4 * b.significand)
  if den ≤ num then (digitCount (num / den) : Int) - 1
  else
    let places := digitCount (den / num)
    if den ≤ num * Nat.pow 10 (places - 1) then -((places : Int) - 1) else -(places : Int)

/-- Drops zeros at the end of the digits. -/
def normalize : Nat → Nat → Int → Decimal
  | 0, d, e => ⟨d, e⟩
  | fuel + 1, d, e => if d % 10 = 0 ∧ d ≠ 0 then normalize fuel (d / 10) (e + 1) else ⟨d, e⟩

/-- Tries the grids from `n` digits on; `tries` is the number of grids left. -/
def shortestFrom (b : Binary) (magnitude : Int) : Nat → Nat → Decimal
  | 0, n => ⟨b.floorAt (magnitude - n + 1), magnitude - n + 1⟩
  | tries + 1, n =>
    let e := magnitude - n + 1
    let d := b.floorAt e
    match b.covers d e, b.covers (d + 1) e with
    | true, true => if b.goesAbove d e then ⟨d + 1, e⟩ else ⟨d, e⟩
    | true, false => ⟨d, e⟩
    | false, true => ⟨d + 1, e⟩
    | false, false => shortestFrom b magnitude tries (n + 1)

/-- The shortest decimal that rounds to a positive binary fraction. -/
def shortest (b : Binary) : Decimal :=
  let found := shortestFrom b b.magnitude 17 1
  normalize 20 found.digits found.exponent

end Decimal
end ImpactGraph
