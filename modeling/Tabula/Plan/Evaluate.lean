import Tabula.Plan.Run

/-!
What a plan makes of a table, said operator by operator over whole lists of rows: the scan cuts
every row to the declared columns, a computed column is a map, a selection keeps the rows whose
condition is true, rankings, orderings and projections are functions of the list, and keeping the
result changes nothing.
-/

namespace Tabula

/-- The rows of a table, cut to the declared columns. -/
def TableRef.rows (ref : TableRef) (t : Table) : Result (List Row) :=
  match sortedNames (ref.columns.filter fun c => !t.columns.contains c) with
  | [] =>
      t.rows.zipIdx.mapM fun (r, i) =>
        (r.project ref.columns).mapError fun name =>
          .eval (.rowLacksColumn i ref.name name) (some 0)
  | missing => .error (.eval (.lacksColumns ref.name missing) (some 0))

/-- The rows that satisfy a condition. -/
def keepRows (keep : Row → Result Bool) : List Row → Result (List Row)
  | [] => .ok []
  | r :: rest => do
      let kept ← keep r
      let others ← keepRows keep rest
      return if kept then r :: others else others

/-- The rows after a step. -/
def PlanStep.rows (s : PlanStep) (order : RowOrder) (rows : List Row) : Result (List Row) :=
  match s.operator with
  | .extend name value none => rows.mapM (·.extend name value s.position)
  | .extend _ _ (some _) => do (← s.ranked).rows order rows
  | .selectRows condition => keepRows (·.satisfies condition s.position) rows
  | .orderBy terms => (sortRows terms rows).mapError (·.at (some s.position))
  | .selectColumns _ | .dropColumns _ => rows.mapM (·.cut s.output)
  | .materialize .. => .ok rows

/-- The rows after all steps. -/
def Plan.rows (p : Plan) (t : Table) (order : RowOrder) : Result (List Row) := do
  p.steps.foldlM (fun rows s => s.rows order rows) (← p.table.rows t)

end Tabula
