import Tabula.Number.Quotient

/-!
Doubles as exact multiples of one unit. Every finite double is a whole number of units of
`2 ^ -1074`, so order and rounding are questions about integers: `Parts.of` takes a double apart,
`units?` gives its number of units, and `nearest?` is the double nearest to a quotient, a tie going
to the even mantissa.
-/

namespace Tabula.Number

/-- A double taken apart; a finite one has magnitude `mantissa * 2 ^ exponent` units. -/
inductive Parts
  | nan
  | infinite (negative : Bool)
  | finite (negative : Bool) (mantissa exponent : Nat)
  deriving DecidableEq, Repr

/-- The unit is `2 ^ -unitBits`. -/
def unitBits : Nat := 1074

def Parts.of (x : Float) : Parts :=
  let bits := x.toBits.toNat
  let negative := bits / twoTo 63 = 1
  let field := bits / twoTo 52 % twoTo 11
  let fraction := bits % twoTo 52
  if field = 2047 then
    if fraction = 0 then .infinite negative else .nan
  else if field = 0 then .finite negative fraction 0
  else .finite negative (twoTo 52 + fraction) (field - 1)

/-- The exact value of a finite double, in units. -/
def units? (x : Float) : Option Int :=
  match Parts.of x with
  | .finite false m e => some (m <<< e : Nat)
  | .finite true m e => some (-(m <<< e : Nat) : Int)
  | _ => none

/-- The double with the given sign whose magnitude is nearest to `num / den`; none if the nearest
one would lie past the largest double. -/
def nearest? (negative : Bool) (num den : Nat) : Option Float :=
  let scaled := num <<< unitBits
  let exponent := (scaled / den).log2 - 52
  let magnitude := exponent * twoTo 52 + roundDiv .toEven scaled (den <<< exponent)
  if magnitude < 2047 * twoTo 52 then
    some (Float.ofBits (UInt64.ofNat (if negative then twoTo 63 + magnitude else magnitude)))
  else none

/-- The double nearest to an integer. -/
def ofInt? (n : Int) : Option Float := nearest? (n < 0) n.natAbs 1

/-- The double nearest to a quotient of two integers, the divisor not being zero. A zero keeps the
sign that the two operands give it. -/
def ofDiv? (n d : Int) : Option Float := nearest? ((n < 0) != (d < 0)) n.natAbs d.natAbs

def signedZero (negative : Bool) : Float := if negative then -0.0 else 0.0

def infinity (negative : Bool) : Float :=
  Float.ofBits (if negative then 0xFFF0000000000000 else 0x7FF0000000000000)

/-- The double nearest to `digits * 10 ^ exponent`, infinite past the largest double. Powers that
are far out of range are settled by the count of digits alone. -/
def ofDecimal (negative : Bool) (digits : Nat) (exponent : Int) : Float :=
  let places : Int := (digits.log2 + 1) * 30103 / 100000 + exponent
  if digits = 0 then signedZero negative
  else if 320 < places then infinity negative
  else if places < -340 then signedZero negative
  else
    let nearest :=
      if 0 ≤ exponent then nearest? negative (digits * tenTo exponent.toNat) 1
      else nearest? negative digits (tenTo (-exponent).toNat)
    nearest.getD (infinity negative)

example : units? 0.0 = some 0 := by decide
example : units? (-1.5) = some (-(3 * twoTo 1073 : Nat) : Int) := by decide +kernel
example : nearest? false 1 10 = some 0.1 := by decide +kernel
example : ofInt? (twoTo 53 + 1) = some (Float.ofBits 0x4340000000000000) := by decide +kernel
example : ofInt? (twoTo 1024) = none := by decide +kernel

/-- A double rounded to a whole number, halves away from zero; the sign is kept, also of zero. -/
def roundWhole (x : Float) : Float :=
  match Parts.of x with
  | .finite negative m e =>
      (nearest? negative (roundDiv .up (m <<< e) (1 <<< unitBits)) 1).getD x
  | _ => x

/-- A double rounded to a multiple of `1 / power`, or of `power`, by scaling it in doubles, so that
the scaled number and not the exact value decides. Where scaling overflows, a fraction is kept as it
is and a multiple is zero. -/
def roundScaled (x power : Float) (fraction : Bool) : Float :=
  if fraction then
    let rounded := roundWhole (x * power) / power
    if rounded.isFinite then rounded else x
  else
    let rounded := roundWhole (x / power) * power
    if rounded.isFinite then rounded else 0.0

/-- The natural logarithm of a positive integer; one past the range of doubles is split into a
mantissa and a power of two first. -/
def logNat (n : Nat) : Float :=
  match nearest? false n 1 with
  | some x => x.log
  | none =>
      let bits := n.log2 + 1
      let mantissa := (nearest? false n (1 <<< bits)).getD 1.0
      if mantissa == 1.0 then Float.log 0.5 + Float.log 2.0 * (bits + 1).toFloat
      else mantissa.log + Float.log 2.0 * bits.toFloat

/-- A double rounded to `places` decimal places by its exact value, ties to the even digit. Past
the resolution of doubles nothing changes, above their range only a zero is left. None if the
rounded value is past the largest double. -/
def roundExact? (x : Float) (places : Int) : Option Float :=
  match Parts.of x with
  | .finite negative m e =>
      if 323 < places then some x
      else if places < -308 then some (0.0 * x)
      else if 0 ≤ places then
        let power := tenTo places.toNat
        nearest? negative (roundDiv .toEven ((m <<< e) * power) (1 <<< unitBits)) power
      else
        let power := tenTo (-places).toNat
        nearest? negative (roundDiv .toEven (m <<< e) (power <<< unitBits) * power) 1
  | _ => some x

example : roundExact? 0.285 2 = some 0.28 := by decide +kernel
example : roundExact? 2.5 0 = some 2.0 := by decide +kernel

end Tabula.Number
