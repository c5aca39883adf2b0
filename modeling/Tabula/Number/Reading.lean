import Tabula.Number.Binary64

/-!
Reading numerals. An integer is digits, single underscores between them allowed; a decimal has
digits with at most one point among them, and may have an exponent.
-/

namespace Tabula.Number

/-- The most digits that a numeral may have to be read as an integer. -/
def maxIntegerDigits : Nat := 4300

/-- The value of a run of digits, read onto what stands before it. -/
def digitsFrom (start : Nat) (cs : List Char) : Nat :=
  cs.foldl (fun n c => 10 * n + (c.toNat - '0'.toNat)) start

/-- The digits of a run without its underscores, which stand singly and between digits; an empty run
has no digits. -/
def plainDigits? : List Char → Option (List Char)
  | [] => none
  | [c] => if c.isDigit then some [c] else none
  | c :: '_' :: d :: rest =>
      if c.isDigit then (c :: ·) <$> plainDigits? (d :: rest) else none
  | c :: d :: rest => if c.isDigit then (c :: ·) <$> plainDigits? (d :: rest) else none

/-- A numeral of digits only, if it is not too long. -/
def readNat? (cs : List Char) : Option Nat := do
  let digits ← plainDigits? cs
  if digits.length ≤ maxIntegerDigits then some (digitsFrom 0 digits) else none

/-- Digits that may be missing. -/
def someDigits? (cs : List Char) : Option (List Char) :=
  if cs.isEmpty then some [] else plainDigits? cs

def readExponent? : List Char → Option Int
  | '-' :: cs => (fun ds => -(digitsFrom 0 ds : Int)) <$> plainDigits? cs
  | '+' :: cs => (fun ds => (digitsFrom 0 ds : Int)) <$> plainDigits? cs
  | cs => (fun ds => (digitsFrom 0 ds : Int)) <$> plainDigits? cs

def isExponentMark (c : Char) : Bool := c = 'e' || c = 'E'

/-- The double nearest to an unsigned decimal numeral. -/
def readUnsigned? (negative : Bool) (cs : List Char) : Option Float := do
  let mantissa := cs.takeWhile fun c => !isExponentMark c
  let whole ← someDigits? (mantissa.takeWhile (· ≠ '.'))
  let fraction ← someDigits? ((mantissa.dropWhile (· ≠ '.')).drop 1)
  if whole.isEmpty && fraction.isEmpty then none
  else
    let exponent ←
      match cs.dropWhile fun c => !isExponentMark c with
      | [] => some 0
      | _ :: rest => readExponent? rest
    some (ofDecimal negative (digitsFrom 0 (whole ++ fraction)) (exponent - fraction.length))

/-- What follows a sign, read as negative or not. -/
def readSigned? {α : Type} (read : Bool → List Char → Option α) : List Char → Option α
  | '-' :: cs => read true cs
  | '+' :: cs => read false cs
  | cs => read false cs

/-- The double that a text names, with the names of the infinities and of not-a-number in any
case. -/
def readFloat? (text : String) : Option Float :=
  readSigned? (fun negative cs =>
    match String.ofList (cs.map Char.toLower) with
    | "inf" | "infinity" => some (infinity negative)
    | "nan" => some (0.0 / 0.0)
    | _ => readUnsigned? negative cs) text.toList

/-- An integer in digits, with or without a sign, however long. -/
def readInt? (text : String) : Option Int :=
  readSigned? (fun negative cs => (plainDigits? cs).map fun ds =>
    if negative then -(digitsFrom 0 ds : Int) else digitsFrom 0 ds) text.toList

example : readUnsigned? false "1.5e3".toList = some 1500.0 := by decide +kernel
example : readNat? "007".toList = some 7 := by decide

end Tabula.Number
