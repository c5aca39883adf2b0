import Tabula.Schema

/-!
The operators of a plan. Each reads some columns of what comes before it and turns its columns into
its own; what it does to rows is said elsewhere.
-/

namespace Tabula

inductive Operator
  /-- Computes a column, new at the end or in the place of an old one. -/
  | extend (name : String) (value : Expr) (window : Option Window)
  /-- Keeps the rows that satisfy a condition. -/
  | selectRows (condition : Expr)
  | orderBy (terms : List OrderTerm)
  /-- Keeps the named columns, in the given order. -/
  | selectColumns (columns : List String)
  | dropColumns (columns : List String)
  /-- Ends a plan: the result is kept as a table. -/
  | materialize (table : String) (temporary : Bool)

namespace Operator

def kind : Operator → String
  | extend .. => "Extend"
  | selectRows _ => "SelectRows"
  | orderBy _ => "OrderBy"
  | selectColumns _ => "SelectColumns"
  | dropColumns _ => "DropColumns"
  | materialize .. => "Materialize"

/-- Whether nothing may follow. -/
def isTerminal : Operator → Bool
  | materialize .. => true
  | _ => false

def isOrdering : Operator → Bool
  | orderBy _ => true
  | _ => false

/-- The columns before it that the operator itself reads. -/
def reads : Operator → List String
  | extend _ value none => value.columns
  | extend _ value (some w) => value.columns ++ w.columns
  | selectRows condition => condition.columns
  | orderBy terms => terms.map OrderTerm.column
  | selectColumns columns => columns
  | dropColumns _ => []
  | materialize .. => []

/-- The columns that come out when `columns` go in. -/
def output (columns : List String) : Operator → List String
  | extend name _ _ => if columns.contains name then columns else columns ++ [name]
  | selectRows _ => columns
  | orderBy _ => columns
  | selectColumns selected => selected
  | dropColumns dropped => columns.filter fun c => !dropped.contains c
  | materialize .. => columns

def parameters : Operator → String
  | extend name value window =>
      name ++ "=" ++ value.text ++ (match window with | none => "" | some w => ", " ++ w.text)
  | selectRows condition => condition.text
  | orderBy terms => orderText terms
  | selectColumns columns => nameList columns
  | dropColumns columns => nameList columns
  | materialize table temporary =>
      "name=" ++ Text.quoted table ++ ", temporary=" ++ flagText temporary

def text (o : Operator) : String := o.kind ++ "(" ++ o.parameters ++ ")"

/-- Equality of operators, literals counting as equal when their values are. -/
def same : Operator → Operator → Bool
  | extend n v w, extend n' v' w' => n == n' && v.same v' && w == w'
  | selectRows c, selectRows c' => c.same c'
  | orderBy ts, orderBy ts' => ts == ts'
  | selectColumns cs, selectColumns cs' => cs == cs'
  | dropColumns cs, dropColumns cs' => cs == cs'
  | materialize t b, materialize t' b' => t == t' && b == b'
  | _, _ => false

end Operator

end Tabula
