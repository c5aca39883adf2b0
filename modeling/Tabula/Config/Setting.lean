import Tabula.Datum
import Tabula.Number.Reading
import Tabula.Text.Blank

/-!
Settings: data that are read as truth values, integers, texts or the names of options. They come in
groups, and a setting is read under its name with a default for where it is missing. Everything that
is wrong is reported, each with its place.
-/

namespace Tabula

/-- What is wrong with a setting. -/
inductive SettingFault
  | notAnOption
  | notALiteral
  | notAnInteger
  | integerForm
  | integerSize
  | fractional
  | notFinite
  | notABoolean
  | booleanForm
  | textForm
  | tooSmall
  | tooLarge
  | notAGroup
  | unknown
  deriving DecidableEq, Repr

def SettingFault.code : SettingFault → String
  | notAnOption => "enum"
  | notALiteral => "literal_error"
  | notAnInteger => "int_parsing"
  | integerForm => "int_type"
  | integerSize => "int_parsing_size"
  | fractional => "int_from_float"
  | notFinite => "finite_number"
  | notABoolean => "bool_parsing"
  | booleanForm => "bool_type"
  | textForm => "string_type"
  | tooSmall => "greater_than_equal"
  | tooLarge => "less_than_equal"
  | notAGroup => "model_type"
  | unknown => "extra_forbidden"

/-- A fault and its place: the group and the name in it. -/
structure SettingError where
  place : List String
  fault : SettingFault
  deriving DecidableEq, Repr

/-- A value, or everything that is wrong. -/
inductive Checked (α : Type)
  | ok (a : α)
  | wrong (errors : List SettingError)

/-- Applies a function to a value; the errors of both are kept, in order. -/
def Checked.apply {α β : Type} (f : Checked (α → β)) (x : Checked α) : Checked β :=
  match f, x with
  | ok f, ok x => ok (f x)
  | wrong e, ok _ => wrong e
  | ok _, wrong e => wrong e
  | wrong e, wrong e' => wrong (e ++ e')

/-- Goes on with a value if a check succeeds; the errors of both are kept, in order. -/
def Checked.alongside {α : Type} (x : Checked α) (check : Checked Unit) : Checked α :=
  match x, check with
  | x, ok () => x
  | ok _, wrong e => wrong e
  | wrong e, wrong e' => wrong (e ++ e')

/-! Integers in text. Blanks may stand around them, zeros and underscores before the first digit,
and a point with zeros after the last. -/

/-- Without what fills a numeral up from the left; a zero that is all of it stays. -/
def dropZeros : List Char → List Char
  | '0' :: c :: cs =>
      if c = '.' then '0' :: c :: cs
      else match (c :: cs).dropWhile fun c => c = '0' || c = '_' with
        | [] => [(c :: cs).getLast (by simp)]
        | '.' :: rest => '0' :: '.' :: rest
        | rest => rest
  | cs => cs

/-- Without a point at the end and the zeros after it. -/
def dropPoint (cs : List Char) : List Char :=
  let zeros := (cs.dropWhile (· ≠ '.')).drop 1
  if !zeros.isEmpty && zeros.all (· = '0') then cs.takeWhile (· ≠ '.') else cs

/-- Reads a natural number, which has a limited number of digits. -/
def readWhole (cs : List Char) : Except SettingFault Nat :=
  if (cs.head?.map Char.isDigit).getD false then
    match Number.plainDigits? (dropPoint (dropZeros cs)) with
    | none => .error .notAnInteger
    | some digits =>
        if digits.length ≤ Number.maxIntegerDigits then .ok (Number.digitsFrom 0 digits)
        else .error .integerSize
  else .error .notAnInteger

def readInteger (s : String) : Except SettingFault Int :=
  match ((s.toList.dropWhile Text.isSpace).reverse.dropWhile Text.isSpace).reverse with
  | '-' :: rest => do return -((← readWhole rest : Nat) : Int)
  | '+' :: rest => do return ((← readWhole rest : Nat) : Int)
  | cs => do return ((← readWhole cs : Nat) : Int)

/-- Whether an integer fits into 64 bits. -/
def isWord (n : Int) : Bool :=
  -(Number.twoTo 63 : Int) ≤ n && n < (Number.twoTo 63 : Int)

/-- The integer that a double is, which lies strictly between the ends of 64 bits. -/
def integerOf (x : Float) : Except SettingFault Int :=
  match Number.Parts.of x with
  | .finite negative m e =>
      let units := m <<< e
      let whole : Int := (units / Number.twoTo Number.unitBits : Nat)
      if units % Number.twoTo Number.unitBits ≠ 0 then .error .fractional
      else if (Number.twoTo 63 : Int) ≤ whole then .error .integerSize
      else .ok (if negative then -whole else whole)
  | _ => .error .notFinite

namespace Datum

/-- Reads the name of an option. -/
def asOption {α : Type} (fault : SettingFault) (named? : String → Option α) :
    Datum → Except SettingFault α
  | text s =>
      match named? s with
      | some a => .ok a
      | none => .error fault
  | _ => .error fault

def trueWords : List String := ["1", "true", "t", "yes", "y", "on"]

def falseWords : List String := ["0", "false", "f", "no", "n", "off"]

/-- One is true and zero is false. -/
def truthOf (n : Int) : Except SettingFault Bool :=
  if n = 1 then .ok true else if n = 0 then .ok false else .error .notABoolean

/-- Reads a truth value, words in any case. -/
def asBool : Datum → Except SettingFault Bool
  | bool b => .ok b
  | int n => if isWord n then truthOf n else .error .booleanForm
  | float x =>
      match integerOf x with
      | .ok n => truthOf n
      | .error _ => .error .booleanForm
  | text s =>
      let word := s.map Char.toLower
      if trueWords.contains word then .ok true
      else if falseWords.contains word then .ok false
      else .error .notABoolean
  | _ => .error .booleanForm

def asInt : Datum → Except SettingFault Int
  | bool b => .ok (if b then 1 else 0)
  | int n => .ok n
  | float x => integerOf x
  | text s => readInteger s
  | _ => .error .integerForm

/-- An integer between bounds. -/
def asIntBetween (least greatest : Int) (d : Datum) : Except SettingFault Int := do
  let n ← d.asInt
  if n < least then throw .tooSmall
  if greatest < n then throw .tooLarge
  return n

def asText : Datum → Except SettingFault String
  | text s => .ok s
  | _ => .error .textForm

def asOptionalText : Datum → Except SettingFault (Option String)
  | null => .ok none
  | d => some <$> d.asText

/-- The setting of a name in a group, read, or the default. Where there is no group, nothing is read
and nothing is reported. -/
def setting {α : Type} (d : Datum) (group name : String) (reader : Datum → Except SettingFault α)
    (default : α) : Checked α :=
  match d.get? name with
  | none => .ok default
  | some s =>
      match reader s with
      | .ok a => .ok a
      | .error fault => .wrong [⟨[group, name], fault⟩]

/-- Reports something that is no group. -/
def checkGroup (d : Datum) (name : String) : Checked Unit :=
  match d with
  | group _ => .ok ()
  | _ => .wrong [⟨[name], .notAGroup⟩]

end Datum

end Tabula
