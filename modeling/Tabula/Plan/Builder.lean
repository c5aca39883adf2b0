import Tabula.Plan
import Tabula.Expr.Grammar

/-!
Adding operators from what callers write: expressions as they are or as text, names singly or in
lists, windows whole or as the columns to partition and order by. Text is read first, then the
arguments are checked against each other, then the operator against the plan.
-/

namespace Tabula

/-- An expression as a caller gives it. -/
inductive ExprSource
  | expr (e : Expr)
  | text (s : String)
  /-- A plain value, which is no expression. -/
  | value (v : Value)

def ExprSource.read (source : ExprSource) (position : Option Int) : Result Expr :=
  match source with
  | expr e => .ok e
  | text s => Expr.parse s position
  | value v => .error (.operand (.notAnExpression v))

/-- How a caller asks for a window. -/
structure WindowRequest where
  partitionBy : Names
  orderBy : Names
  reverse : Reversal
  window : Option Window

/-- The window for a value: the given one, or one of the columns named; a ranking without any ranks
the whole input as peers. -/
def WindowRequest.resolve (r : WindowRequest) (value : Expr) : Result (Option Window) := do
  let named := r.partitionBy.isGiven || r.orderBy.isGiven
  if r.window.isSome && named then throw (.argument .windowTwice)
  if r.reverse.isGiven && !r.orderBy.isGiven then throw (.argument .reverseWithoutOrder)
  match r.window with
  | some w => return some w
  | none =>
      if named then
        return some ⟨r.partitionBy.toList, ← orderTerms r.orderBy r.reverse⟩
      else
        match value with
        | .ranking _ => return some .whole
        | _ => return none

namespace Plan

def extend (p : Plan) (name : String) (source : ExprSource) (request : WindowRequest) :
    Result Plan := do
  let value ← source.read (some p.next)
  let window ← request.resolve value
  p.add (.extend name value window)

def selectRows (p : Plan) (source : ExprSource) : Result Plan := do
  p.add (.selectRows (← source.read (some p.next)))

def orderBy (p : Plan) (columns : Names) (reverse : Reversal) : Result Plan := do
  p.add (.orderBy (← orderTerms columns reverse))

def selectColumns (p : Plan) (columns : List Value) : Result Plan := p.add (.selectColumns columns)

def dropColumns (p : Plan) (columns : List Value) : Result Plan := p.add (.dropColumns columns)

def materialize (p : Plan) (table : String) (temporary : Bool) : Result Plan :=
  p.add (.materialize table temporary)

end Plan

end Tabula
