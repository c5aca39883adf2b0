import Tabula.Schema.Build

/-!
A plan is a table and a chain of operators on it. Operators are added one at a time and checked
against the columns that come out of what is there already, so that every column an operator reads
exists, rankings stand only where a window is given, and nothing follows the operator that keeps the
result. Node zero is the table, and the operators are numbered from one.
-/

namespace Tabula

structure Plan where
  table : TableRef
  operators : List Operator

/-- An operator that has not been checked. -/
inductive Draft
  | extend (name : String) (value : Expr) (window : Option Window)
  | selectRows (condition : Expr)
  | orderBy (terms : List OrderTerm)
  | selectColumns (columns : List Value)
  | dropColumns (columns : List Value)
  | materialize (table : String) (temporary : Bool)

def Draft.kind : Draft → String
  | extend .. => "Extend"
  | selectRows _ => "SelectRows"
  | orderBy _ => "OrderBy"
  | selectColumns _ => "SelectColumns"
  | dropColumns _ => "DropColumns"
  | materialize .. => "Materialize"

/-- All columns that are needed must be available. -/
def checkColumns (needed available : List String) (position : Option Int) : Result Unit :=
  match sortedNames (needed.filter fun c => !available.contains c) with
  | [] => .ok ()
  | missing => .error (.build (.unknownColumns missing available) position)

/-- A computed column is a ranking over a window, or an expression without any ranking. -/
def checkWindow (value : Expr) (window : Option Window) : Except BuildCause Unit :=
  match value, window with
  | .ranking _, some _ => .ok ()
  | .ranking _, none => .error (.rankingWithoutWindow value)
  | _, some _ => .error (.windowWithoutRanking value)
  | _, none => if value.hasRanking then .error (.nestedRanking value) else .ok ()

/-- The operator that a draft is, over the columns that go in. -/
def Draft.check (d : Draft) (columns : List String) (position : Option Int) : Result Operator := do
  match d with
  | extend name value window =>
      if name = "" then throw (.argument .extendedName)
      (checkWindow value window).mapError (.build · position)
      let o := Operator.extend name value window
      checkColumns o.reads columns position
      return o
  | selectRows condition =>
      if condition.hasRanking then throw (.build .rankingInCondition position)
      checkColumns condition.columns columns position
      return .selectRows condition
  | orderBy terms =>
      if terms.isEmpty then throw (.build .emptyOrdering position)
      checkColumns (terms.map OrderTerm.column) columns position
      return .orderBy terms
  | selectColumns selected =>
      let selected ← uniqueColumns selected position
      if selected.isEmpty then throw (.build .emptySelection position)
      checkColumns selected columns position
      return .selectColumns selected
  | dropColumns dropped =>
      let dropped ← uniqueColumns dropped position
      checkColumns dropped columns position
      let o := Operator.dropColumns dropped
      if (o.output columns).isEmpty then throw (.build .everyColumnDropped position)
      return o
  | materialize table temporary =>
      if table = "" then throw (.argument .materializedName)
      return .materialize table temporary

namespace Plan

def ofTable (t : TableRef) : Plan := ⟨t, []⟩

/-- A plan without operators over a table given by its name and columns. -/
def describe (name : String) (columns : List Value) (temporary : Bool) : Result Plan := do
  return ofTable (← TableRef.make name columns temporary)

/-- The columns after a chain of operators. -/
def columnsAfter (columns : List String) (operators : List Operator) : List String :=
  operators.foldl (fun cs o => o.output cs) columns

def columns (p : Plan) : List String := columnsAfter p.table.columns p.operators

/-- The place of the next operator. -/
def next (p : Plan) : Nat := p.operators.length + 1

/-- The operator that ends the plan, if one does. -/
def terminal? (p : Plan) : Option Operator := p.operators.getLast?.filter Operator.isTerminal

def isTerminated (p : Plan) : Bool := p.terminal?.isSome

/-- The plan with one more operator. -/
def add (p : Plan) (d : Draft) : Result Plan := do
  let position : Option Int := some p.next
  if let some o := p.terminal? then throw (.build (.terminated d.kind o.kind) position)
  let o ← d.check p.columns position
  return ⟨p.table, p.operators ++ [o]⟩

/-- The kept result of a plan as a table, if the plan ends by keeping it. -/
def asTable? (p : Plan) : Option (Result TableRef) :=
  match p.operators.getLast? with
  | some (.materialize name temporary) =>
      some (TableRef.make name (p.columns.map .str) temporary)
  | _ => none

/-- Equality of plans, literals counting as equal when their values are. -/
def same (p q : Plan) : Bool :=
  p.table == q.table && p.operators.length == q.operators.length &&
    (p.operators.zip q.operators).all fun (a, b) => a.same b

end Plan

/-- One step of a chain: its place, the operator, and the columns before and after it. -/
structure PlanStep where
  position : Nat
  operator : Operator
  input : List String
  output : List String

/-- The steps of a chain whose first operator has the given place. -/
def stepsFrom (position : Nat) (columns : List String) : List Operator → List PlanStep
  | [] => []
  | o :: os => ⟨position, o, columns, o.output columns⟩ ::
      stepsFrom (position + 1) (o.output columns) os

def Plan.steps (p : Plan) : List PlanStep := stepsFrom 1 p.table.columns p.operators

end Tabula
