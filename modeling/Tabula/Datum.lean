import Tabula.Entries
import Tabula.Value

/-!
Data without columns: what configurations are read from, and what events and spans hold. Groups have
named fields in an order.
-/

namespace Tabula

inductive Datum
  | null
  | bool (b : Bool)
  | int (n : Int)
  | float (x : Float)
  | text (s : String)
  | list (items : List Datum)
  | group (fields : List (String × Datum))
  deriving Inhabited

namespace Datum

/-- The field of a group. -/
def get? (name : String) : Datum → Option Datum
  | group fields => fields.lookup name
  | _ => none

mutual
/-- Data as messages show them. -/
def shown : Datum → String
  | null => "None"
  | bool b => if b then "True" else "False"
  | int n => toString n
  | float x => Value.floatText x
  | text s => Text.quoted s
  | list items => Text.bracketed (itemsShown items)
  | group fields => "\x7b" ++ ", ".intercalate (fieldsShown fields) ++ "\x7d"
def itemsShown : List Datum → List String
  | [] => []
  | d :: ds => d.shown :: itemsShown ds
def fieldsShown : List (String × Datum) → List String
  | [] => []
  | (name, d) :: fields => (Text.quoted name ++ ": " ++ d.shown) :: fieldsShown fields
end

end Datum

/-- Data under names. -/
structure Fields where
  entries : List (String × Datum)
  deriving Inhabited

namespace Fields

def empty : Fields := ⟨[]⟩

def set (f : Fields) (name : String) (d : Datum) : Fields := ⟨Entries.set name d f.entries⟩

/-- The fields, and in their place or after them those that win over them. -/
def update (fields winning : Fields) : Fields := ⟨Entries.update fields.entries winning.entries⟩

def names (f : Fields) : List String := f.entries.map Prod.fst

def get? (f : Fields) (name : String) : Option Datum := f.entries.lookup name

/-- Without the fields of some names. -/
def without (f : Fields) (names : List String) : Fields :=
  ⟨f.entries.filter fun e => !names.contains e.1⟩

end Fields

/-- The fields of a group; anything else has none. -/
def Datum.fields : Datum → Fields
  | group fields => ⟨fields⟩
  | _ => .empty

end Tabula
