import Tabula.Number.Shortest

/-!
How a decimal is laid out as text: positional or scientific, by the place of its point. A `Layout`
holds the decisions of one format, and `Layout.text` follows them.
-/

namespace Tabula.Number

/-- The decisions of a number format. -/
structure Layout where
  /-- The least and the greatest count of digits before the point that is written positionally. -/
  least : Int
  greatest : Int
  /-- Whether a whole number is written with `.0`. -/
  pointZero : Bool
  mark : String
  /-- The least number of digits of the exponent. -/
  exponentWidth : Nat

def zeros (n : Nat) : String := String.ofList (List.replicate n '0')

/-- The digits with the point after the first `point` of them; `point` may lie outside. -/
def positional (digits : String) (point : Int) (pointZero : Bool) : String :=
  let size : Int := digits.length
  if point ≤ 0 then "0." ++ zeros (-point).toNat ++ digits
  else if size ≤ point then
    digits ++ zeros (point - size).toNat ++ (if pointZero then ".0" else "")
  else
    let chars := digits.toList
    String.ofList (chars.take point.toNat) ++ "." ++ String.ofList (chars.drop point.toNat)

/-- One digit, the point and the others, and the exponent with its sign. -/
def scientific (digits : String) (exponent : Int) (mark : String) (width : Nat) : String :=
  let rest := String.ofList (digits.toList.drop 1)
  let head := String.ofList (digits.toList.take 1)
  let magnitude := toString exponent.natAbs
  head ++ (if rest.isEmpty then "" else "." ++ rest) ++ mark
    ++ (if exponent < 0 then "-" else "+")
    ++ zeros (width - magnitude.length) ++ magnitude

def Layout.text (l : Layout) (d : Decimal) : String :=
  let digits := toString d.digits
  if l.least ≤ d.point ∧ d.point ≤ l.greatest then positional digits d.point l.pointZero
  else scientific digits (d.point - 1) l.mark l.exponentWidth

/-- The text of a double: its sign, then the shortest decimal in the layout. -/
def Layout.ofFloat (l : Layout) (x : Float) : String :=
  match Parts.of x with
  | .nan => "nan"
  | .infinite negative => if negative then "-inf" else "inf"
  | .finite negative m e => (if negative then "-" else "") ++ l.text (shortest m e)

end Tabula.Number
