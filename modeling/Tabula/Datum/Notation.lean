import Tabula.Datum
import Tabula.Number.Reading

/-!
Reading data from text: lists in brackets, groups in braces, texts between double quotes. A number
is an integer unless it has a point or an exponent; the infinities and not-a-number are written by
name. A reader takes characters from the front and gives back those after what it has read.
-/

namespace Tabula.Datum

open Number (digitsFrom maxIntegerDigits readUnsigned? isExponentMark infinity)

def dropSpace (cs : List Char) : List Char :=
  cs.dropWhile fun c => c = ' ' || c = '\t' || c = '\n' || c = '\r'

/-- What follows a run of characters, if the text begins with them. -/
def after? : List Char → List Char → Option (List Char)
  | [], cs => some cs
  | _ :: _, [] => none
  | m :: ms, c :: cs => if m = c then after? ms cs else none

def hexValue? (c : Char) : Option Nat :=
  if c.isDigit then some (c.toNat - '0'.toNat)
  else if 'a' ≤ c ∧ c ≤ 'f' then some (c.toNat - 'a'.toNat + 10)
  else if 'A' ≤ c ∧ c ≤ 'F' then some (c.toNat - 'A'.toNat + 10)
  else none

/-- The number of four digits in base sixteen. -/
def hexUnit? (a b c d : Char) : Option Nat := do
  return ((← hexValue? a) * 16 + (← hexValue? b)) * 256 + (← hexValue? c) * 16 + (← hexValue? d)

/-- Characters that are escaped by a letter. -/
def escapes : List (Char × Char) :=
  [('"', '"'), ('\\', '\\'), ('/', '/'), ('b', '\x08'), ('f', '\x0c'), ('n', '\n'), ('r', '\r'),
    ('t', '\t')]

/-- Code points, of which two halves of a pair are one character. -/
def charsOfUnits : List Nat → List Char
  | [] => []
  | [u] => [Char.ofNat u]
  | u :: v :: us =>
      if 0xD800 ≤ u ∧ u < 0xDC00 ∧ 0xDC00 ≤ v ∧ v < 0xE000 then
        Char.ofNat (0x10000 + (u - 0xD800) * 0x400 + (v - 0xDC00)) :: charsOfUnits us
      else Char.ofNat u :: charsOfUnits (v :: us)

/-- The code points up to the closing quote. A control character has to be escaped. -/
def readUnits : List Char → Option (List Nat × List Char)
  | [] => none
  | '"' :: rest => some ([], rest)
  | '\\' :: 'u' :: a :: b :: c :: d :: rest => do
      let u ← hexUnit? a b c d
      let (us, rest) ← readUnits rest
      return (u :: us, rest)
  | '\\' :: e :: rest => do
      let c ← escapes.lookup e
      let (us, rest) ← readUnits rest
      return (c.toNat :: us, rest)
  | c :: rest =>
      if c.toNat < 0x20 || c = '\\' then none
      else do
        let (us, rest) ← readUnits rest
        return (c.toNat :: us, rest)

def readText (cs : List Char) : Option (String × List Char) := do
  let (us, rest) ← readUnits cs
  return (String.ofList (charsOfUnits us), rest)

/-- A point and digits, if they come next. -/
def fractionOf : List Char → List Char
  | '.' :: cs =>
      if (cs.head?.map Char.isDigit).getD false then '.' :: cs.takeWhile Char.isDigit else []
  | _ => []

/-- The mark of an exponent, a sign and digits, if they come next. -/
def exponentOf : List Char → List Char
  | e :: cs =>
      let sign := (cs.take 1).filter fun c => c = '+' || c = '-'
      let digits := (cs.drop sign.length).takeWhile Char.isDigit
      if isExponentMark e && !digits.isEmpty then e :: sign ++ digits else []
  | [] => []

/-- A number after its sign. A zero is the only digit before the point where it is the first. -/
def readNumber (negative : Bool) (cs : List Char) : Option (Datum × List Char) :=
  let digits := cs.takeWhile Char.isDigit
  let whole := if digits.head? = some '0' then ['0'] else digits
  let rest := cs.drop whole.length
  let fraction := fractionOf rest
  let exponent := exponentOf (rest.drop fraction.length)
  let rest := rest.drop (fraction.length + exponent.length)
  if whole.isEmpty then none
  else if fraction.isEmpty && exponent.isEmpty then
    if maxIntegerDigits < whole.length then none
    else
      let n : Int := digitsFrom 0 whole
      some (int (if negative then -n else n), rest)
  else do return (float (← readUnsigned? negative (whole ++ fraction ++ exponent)), rest)

/-- Words that stand for data. -/
def words : List (String × Datum) :=
  [("null", null), ("true", bool true), ("false", bool false), ("NaN", float (0.0 / 0.0)),
    ("Infinity", float (infinity false)), ("-Infinity", float (infinity true))]

def readWord (cs : List Char) : Option (Datum × List Char) :=
  words.findSome? fun w => (after? w.1.toList cs).map fun rest => (w.2, rest)

mutual
/-- Reads data with at most `bound` steps into them. -/
def read : Nat → List Char → Option (Datum × List Char)
  | 0, _ => none
  | bound + 1, cs =>
      match cs with
      | '"' :: rest => do
          let (s, rest) ← readText rest
          return (text s, rest)
      | '[' :: rest =>
          match dropSpace rest with
          | ']' :: rest => some (list [], rest)
          | rest => do
              let (items, rest) ← readItems bound rest
              return (list items, rest)
      | '\x7b' :: rest =>
          match dropSpace rest with
          | '\x7d' :: rest => some (group [], rest)
          | rest => do
              let (fields, rest) ← readFields bound rest
              return (group (Entries.ofList fields), rest)
      | cs =>
          match readWord cs, cs with
          | some found, _ => some found
          | none, '-' :: rest => readNumber true rest
          | none, cs => readNumber false cs
/-- Reads the items of a list up to the closing bracket. -/
def readItems : Nat → List Char → Option (List Datum × List Char)
  | 0, _ => none
  | bound + 1, cs => do
      let (d, rest) ← read bound cs
      match dropSpace rest with
      | ']' :: rest => return ([d], rest)
      | ',' :: rest =>
          let (ds, rest) ← readItems bound (dropSpace rest)
          return (d :: ds, rest)
      | _ => none
/-- Reads the fields of a group up to the closing brace. -/
def readFields : Nat → List Char → Option (List (String × Datum) × List Char)
  | 0, _ => none
  | bound + 1, cs => do
      match cs with
      | '"' :: rest =>
          let (name, rest) ← readText rest
          let rest ← after? [':'] (dropSpace rest)
          let (d, rest) ← read bound (dropSpace rest)
          match dropSpace rest with
          | '\x7d' :: rest => return ([(name, d)], rest)
          | ',' :: rest =>
              let (ds, rest) ← readFields bound (dropSpace rest)
              return ((name, d) :: ds, rest)
          | _ => none
      | _ => none
end

/-- The data that a text says, if it says nothing else. -/
def ofText? (text : String) : Option Datum :=
  let cs := dropSpace text.toList
  match read (2 * cs.length + 1) cs with
  | some (d, rest) => if (dropSpace rest).isEmpty then some d else none
  | none => none

end Tabula.Datum
