import Tabula.Number.Layout
import Tabula.Number.Reading
import Tabula.Text.Quoted

/-!
The values that rows hold. Nulls, booleans, numbers and texts are what a plan computes with; a list
may arrive with the data and is carried along, but nothing is defined on it except order and
equality. No two lists arrive under one number.
-/

namespace Tabula

inductive Value
  | null
  | bool (b : Bool)
  | int (n : Int)
  | float (x : Float)
  | str (s : String)
  | list (number : Nat) (items : List Value)
  deriving Inhabited

/-- Values are compared and computed with only inside one kind. -/
inductive Kind
  | null
  | boolean
  | number
  | string
  | list
  deriving DecidableEq, Repr

def Kind.name : Kind → String
  | .null => "null"
  | .boolean => "boolean"
  | .number => "number"
  | .string => "string"
  | .list => "list"

namespace Value

def kind : Value → Kind
  | null => .null
  | bool _ => .boolean
  | int _ => .number
  | float _ => .number
  | str _ => .string
  | list .. => .list

/-- The name of a value's form in storage, finer than its kind. -/
def formName : Value → String
  | null => "NoneType"
  | bool _ => "bool"
  | int _ => "int"
  | float _ => "float"
  | str _ => "str"
  | list .. => "list"

def isNull : Value → Bool
  | null => true
  | _ => false

def isNaN : Value → Bool
  | float x => x.isNaN
  | _ => false

@[simp] theorem isNull_eq_true {v : Value} : v.isNull = true ↔ v = null := by
  cases v <;> simp [isNull]

@[simp] theorem kind_eq_null {v : Value} : v.kind = .null ↔ v = null := by
  cases v <;> simp [kind]

/-- Doubles are written positionally from four zeros after the point to sixteen digits before
it. -/
def floatLayout : Number.Layout := ⟨-3, 16, true, "e", 2⟩

def floatText (x : Float) : String := floatLayout.ofFloat x

mutual
/-- A value as messages show it. -/
def text : Value → String
  | null => "None"
  | bool b => if b then "True" else "False"
  | int n => toString n
  | float x => floatText x
  | str s => Text.quoted s
  | list _ items => Text.bracketed (texts items)
def texts : List Value → List String
  | [] => []
  | v :: vs => v.text :: texts vs
end

mutual
/-- Whether a message can show a value: integers have a limited number of digits. -/
def isWritable : Value → Bool
  | int n => n.natAbs < Number.tenTo Number.maxIntegerDigits
  | list _ items => areWritable items
  | _ => true
def areWritable : List Value → Bool
  | [] => true
  | v :: vs => v.isWritable && areWritable vs
end

theorem texts_eq_map (vs : List Value) : texts vs = vs.map text := by
  induction vs with
  | nil => rfl
  | cons v vs ih => simp [texts, ih]

end Value

end Tabula
