import Tabula.Cursor
import Tabula.Expr.Eval
import Tabula.Plan

/-!
Running a plan over a table, row by row. The table is scanned, and every operator becomes a cursor
over the one before it: computed columns, selections and projections take rows one at a time, while
rankings and orderings read all rows when they are opened. Keeping the result changes no row.
-/

namespace Tabula

/-- A row with a computed column, for the node at `position`. -/
def Row.extend (r : Row) (name : String) (value : Expr) (position : Nat) : Result Row :=
  match value.eval r with
  | .ok v => .ok (r.set name v)
  | .error fault => .error (fault.at (some position))

/-- Whether a row satisfies a condition, for the node at `position`. -/
def Row.satisfies (r : Row) (condition : Expr) (position : Nat) : Result Bool :=
  (condition.holds r).mapError (·.at (some position))

/-- A row cut to columns that it has. -/
def Row.cut (r : Row) (columns : List String) : Result Row :=
  (r.project columns).mapError fun name => .lookup (.bare name)

/-- The ranking that a step adds, if it is a ranking over a window. -/
def PlanStep.ranked (s : PlanStep) : Result RankedWindow :=
  match s.operator with
  | .extend name (.ranking f) (some w) => .ok ⟨name, f, w, s.position⟩
  | o => .error (.eval (.notWindowed o) (some s.position))

/-- The forms of cursors. -/
inductive CursorKind
  | scan
  | extend
  | window
  | filter
  | sort
  | project
  deriving DecidableEq, Repr

def CursorKind.name : CursorKind → String
  | scan => "ScanOperator"
  | extend => "ExtendOperator"
  | window => "WindowOperator"
  | filter => "FilterOperator"
  | sort => "SortOperator"
  | project => "ProjectOperator"

/-- The form of the cursor of an operator; the operator that keeps the result has none. -/
def Operator.cursorKind? : Operator → Option CursorKind
  | extend _ _ none => some .extend
  | extend _ _ (some _) => some .window
  | selectRows _ => some .filter
  | orderBy _ => some .sort
  | selectColumns _ | dropColumns _ => some .project
  | materialize .. => none

/-- The form of a plan's outermost cursor. -/
def Plan.cursorKind (p : Plan) : CursorKind :=
  (p.operators.filterMap Operator.cursorKind?).getLast?.getD .scan

/-- The cursor of a ranking step over the one before it. -/
def Cursor.ranking (c : Cursor) (s : PlanStep) (order : RowOrder) : Cursor :=
  c.whole fun rows => do (← s.ranked).rows order rows

/-- The cursor of a step over the one before it. -/
def Cursor.step (order : RowOrder) (c : Cursor) (s : PlanStep) : Cursor :=
  match s.operator with
  | .extend name value none => c.mapRows (·.extend name value s.position)
  | .extend _ _ (some _) => c.ranking s order
  | .selectRows condition => c.filterRows (·.satisfies condition s.position)
  | .orderBy terms =>
      c.whole fun rows => (sortRows terms rows).mapError (·.at (some s.position))
  | .selectColumns _ | .dropColumns _ => c.mapRows (·.cut s.output)
  | .materialize .. => c

namespace Plan

/-- The cursor over the rows that the plan makes of a table. -/
def cursor (p : Plan) (t : Table) (order : RowOrder) : Cursor :=
  p.steps.foldl (Cursor.step order) (.scan t p.table)

/-- The last step of the plan, a ranking, straight over the table. -/
def rankingCursor (p : Plan) (t : Table) (order : RowOrder) : Cursor :=
  match p.steps.getLast? with
  | some s => (Cursor.scan t p.table).ranking s order
  | none => .scan t p.table

/-- The table that the plan makes of its source. -/
def run (p : Plan) (source : Source) (order : RowOrder) : Result Table := do
  let rows ← (p.cursor (source.toTable p.table.columns) order).toList
  return ⟨p.columns, rows⟩

end Plan

end Tabula
