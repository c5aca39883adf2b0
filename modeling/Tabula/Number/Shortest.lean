import Tabula.Number.Binary64

/-!
The shortest decimal of a double: among all decimals that read back as the double, those with the
fewest digits, and of these the nearest. A decimal reads back when it lies in the interval of reals
that round to the double, whose ends belong to it when the mantissa is even. If a point of a decimal
grid lies in the interval, so does one of the two grid points next to the double, so only these two
are tried for one digit, two digits, and so on up to seventeen, which always suffice.
-/

namespace Tabula.Number

/-- The number `digits * 10 ^ exponent`; zero has no digits to trim. -/
structure Decimal where
  digits : Nat
  exponent : Int
  deriving DecidableEq, Repr

/-- Drops zeros at the end of the digits, at most `fuel` of them. -/
def Decimal.trim : Nat → Decimal → Decimal
  | 0, d => d
  | fuel + 1, d =>
      if d.digits ≠ 0 ∧ d.digits % 10 = 0 then trim fuel ⟨d.digits / 10, d.exponent + 1⟩ else d

/-- How many decimal digits the number has; zero has one. -/
def digitCount (n : Nat) : Nat := (Nat.toDigits 10 n).length

/-- The number of digits before the point, counted negatively for zeros after it. -/
def Decimal.point (d : Decimal) : Int := digitCount d.digits + d.exponent

/-- A quotient of naturals with a power of ten on either side. -/
def scaleDown (num den : Nat) (power : Int) : Nat × Nat :=
  if 0 ≤ power then (num, den * tenTo power.toNat) else (num * tenTo (-power).toNat, den)

/-- The least power of ten above `num / den`, starting two or fewer below it. -/
def powerAbove (num den : Nat) (start : Int) : Int :=
  let below (p : Int) : Bool := let (n, d) := scaleDown num den p; n < d
  if below start then start else if below (start + 1) then start + 1 else start + 2

/-- The reals that round to one double, in quarters of the last place of its mantissa. -/
structure Interval where
  low : Nat
  middle : Nat
  high : Nat
  closed : Bool

def Interval.contains (i : Interval) (num den : Nat) : Bool :=
  let low := i.low * den
  let high := i.high * den
  if i.closed then low ≤ num ∧ num ≤ high else low < num ∧ num < high

/-- The double `mantissa * 2 ^ exponent` has a nearer neighbour below it when it is a power of
two. -/
def Interval.of (mantissa exponent : Nat) : Interval where
  low := 4 * mantissa - (if mantissa = twoTo 52 ∧ exponent ≠ 0 then 1 else 2)
  middle := 4 * mantissa
  high := 4 * mantissa + 2
  closed := mantissa % 2 = 0

/-- The grid of multiples of `10 ^ grid`: of the two next to the middle, the one inside the
interval, or the nearer if both are, or the even one if they are equally near. The quarters count
`unitNum / unitDen` each. -/
def Interval.onGrid? (i : Interval) (unitNum unitDen : Nat) (grid : Int) : Option Decimal :=
  let (num, den) := scaleDown (i.middle * unitNum) unitDen grid
  let below := num / den
  let twiceRest := 2 * (num % den)
  let inside (k : Nat) : Bool :=
    if 0 ≤ grid then i.contains (k * tenTo grid.toNat * unitDen) unitNum
    else i.contains (k * unitDen) (unitNum * tenTo (-grid).toNat)
  let preferBelow := twiceRest < den || (twiceRest = den && below % 2 = 0)
  if inside below && (preferBelow || !inside (below + 1)) then some ⟨below, grid⟩
  else if inside (below + 1) then some ⟨below + 1, grid⟩
  else none

/-- The first grid with a hit, from one digit on. -/
def Interval.search (i : Interval) (unitNum unitDen : Nat) (top : Int) : Nat → Nat → Decimal
  | 0, _ => ⟨0, 0⟩
  | fuel + 1, count =>
      match i.onGrid? unitNum unitDen (top - count) with
      | some d => d.trim 20
      | none => search i unitNum unitDen top fuel (count + 1)

/-- The shortest decimal of the magnitude `mantissa * 2 ^ exponent` units, the mantissa not being
zero. -/
def shortest (mantissa exponent : Nat) : Decimal :=
  let shift : Int := exponent - unitBits - 2
  let unitNum := if 0 ≤ shift then twoTo shift.toNat else 1
  let unitDen := if 0 ≤ shift then 1 else twoTo (-shift).toNat
  let i := Interval.of mantissa exponent
  let bits : Int := mantissa.log2 + exponent - unitBits
  let top := powerAbove (i.middle * unitNum) unitDen (bits * 30103 / 100000)
  if mantissa = 0 then ⟨0, 0⟩ else i.search unitNum unitDen top 17 1

end Tabula.Number
