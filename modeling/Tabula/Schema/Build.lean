import Tabula.Failure

/-!
Building table references, orderings and windows from names as they are given. A list of columns
has non-empty names, each once; a table has a name and at least one column; and only columns of an
ordering can be reversed in it.
-/

namespace Tabula

/-- One name, or a list of them. -/
inductive Names
  | one (name : String)
  | many (names : List String)
  deriving DecidableEq, Repr

namespace Names

def toList : Names → List String
  | one name => [name]
  | many names => names

/-- Whether anything is named: neither the empty name nor no name. -/
def isGiven : Names → Bool
  | one name => name ≠ ""
  | many names => !names.isEmpty

/-- As values, which a list of columns is checked as. -/
def values (n : Names) : List Value := n.toList.map .str

end Names

/-- Checks a list of columns: `seen` are those before. -/
def uniqueFrom (position : Option Int) (seen : List String) : List Value → Result (List String)
  | [] => .ok []
  | .str name :: rest =>
      if name = "" then .error (.argument (.columnName (.str name)))
      else if seen.contains name then .error (.build (.duplicateColumn name) position)
      else do
        let names ← uniqueFrom position (name :: seen) rest
        return name :: names
  | v :: _ => .error (.argument (.columnName v))

/-- The names of a list of columns, if all are non-empty texts and none is repeated. -/
def uniqueColumns (columns : List Value) (position : Option Int) : Result (List String) :=
  uniqueFrom position [] columns

def TableRef.make (name : String) (columns : List Value) (temporary : Bool) : Result TableRef := do
  if name = "" then throw (.argument .tableName)
  let columns ← uniqueColumns columns (some 0)
  if columns.isEmpty then throw (.argument (.noColumns name))
  return ⟨name, columns, temporary⟩

/-- Which columns of an ordering are reversed. -/
inductive Reversal
  | all (reversed : Bool)
  | only (names : Names)
  deriving DecidableEq, Repr

def Reversal.none : Reversal := .only (.many [])

/-- Whether the reversal asks for anything. -/
def Reversal.isGiven : Reversal → Bool
  | all reversed => reversed
  | only names => names.isGiven

/-- Whether a column is reversed. -/
def Reversal.reverses (r : Reversal) (column : String) : Bool :=
  match r with
  | all reversed => reversed
  | only names => names.toList.contains column

/-- The names that a reversal mentions beside the ordering. -/
def Reversal.stray (r : Reversal) (columns : List String) : List String :=
  match r with
  | all _ => []
  | only names => sortedNames (names.toList.filter fun n => !columns.contains n)

def orderTerms (columns : Names) (reverse : Reversal) : Result (List OrderTerm) :=
  let columns := columns.toList
  match reverse.stray columns with
  | [] => .ok (columns.map fun c => ⟨c, reverse.reverses c⟩)
  | stray => .error (.argument (.strayReverse stray))

end Tabula
