import Tabula.Plan

/-!
The source columns that a plan's result depends on. The steps are gone through backwards with the
columns still needed: a computed column that is needed gives way to what it is computed from, one
that is not needed is passed over, a selection restricts what is needed to what it lets through, and
every step adds what it reads itself.
-/

namespace Tabula

/-- The columns needed before a step, when `needed` are needed after it. -/
def PlanStep.needs (s : PlanStep) (needed : List String) : List String :=
  match s.operator with
  | .extend name _ _ =>
      if needed.contains name then needed.filter (· ≠ name) ++ s.operator.reads else needed
  | .selectColumns _ => needed.filter s.output.contains ++ s.operator.reads
  | .dropColumns _ => needed.filter s.output.contains ++ s.operator.reads
  | _ => needed ++ s.operator.reads

/-- The columns of the table that are needed, in declared order. -/
def Plan.columnsUsed (p : Plan) : List String :=
  let needed := p.steps.foldr PlanStep.needs p.columns
  p.table.columns.filter needed.contains

end Tabula
