import Tabula.Plan
import Tabula.Sql.Tree

/-!
From plans to SQL. Every operator becomes one SELECT over the query of what comes before it, named
after the operator's place, because a column computed at one level can be filtered only above it.
Compound operands stand between parentheses, so the text never depends on precedence; a divisor that
is zero is taken as null. An ordering does not survive a further level, so it must be the last
operator but for the one that keeps the result.
-/

namespace Tabula.Sql

namespace Scalar

def ofLiteral : Literal → Scalar
  | .null => null
  | .bool b => bool b
  | .int n => integer n
  | .float x _ => double x
  | .str s => string s

/-- Puts compound operands between parentheses. -/
def wrap : Scalar → Scalar
  | e@(compare ..) | e@(arith ..) | e@(junction ..) | e@(not _) | e@(isNull _) => paren e
  | e => e

/-- A function of the dialect. -/
def checkFunction (d : Dialect) (f : ScalarFn) : Except CompileCause Unit :=
  if d.functions.contains f then .ok () else .error (.functionUnavailable f d)

mutual
/-- The scalar of an expression. The right operand of arithmetic is looked at first, and a function
before its arguments. -/
def ofExpr (d : Dialect) : Expr → Except CompileCause Scalar
  | .column name => .ok (column name)
  | .literal l => .ok (ofLiteral l)
  | .ranking f => .error (.rankingOutsideExtend f)
  | .compare op l r => do
      let a ← ofExpr d l
      let b ← ofExpr d r
      return compare op a.wrap b.wrap
  | .arith op l r => do
      let b ← ofExpr d r
      let a ← ofExpr d l
      let divisor := if op = .div then nullIf b.wrap (integer 0) else b.wrap
      return arith op a.wrap divisor
  | .not e => do return not (← ofExpr d e).wrap
  | .junction op a b rest => do
      let first ← ofExpr d a
      let second ← ofExpr d b
      let others ← ofExprs d rest
      return others.foldl (fun l r => junction op l r.wrap) (junction op first.wrap second.wrap)
  | .isNull e negated => do
      let test := isNull (← ofExpr d e).wrap
      return if negated then not test else test
  | .unary f e => do
      checkFunction d (.unary f)
      return call (.unary f) [← ofExpr d e]
  | .round e => do
      checkFunction d .round
      return call .round [← ofExpr d e]
  | .roundTo e p => do
      checkFunction d .round
      let a ← ofExpr d e
      let b ← ofExpr d p
      return call .round [a, b]
  | .coalesce e rest => do
      checkFunction d .coalesce
      let a ← ofExpr d e
      let others ← ofExprs d rest
      return call .coalesce (a :: others)
def ofExprs (d : Dialect) : List Expr → Except CompileCause (List Scalar)
  | [] => .ok []
  | e :: es => do
      let a ← ofExpr d e
      let others ← ofExprs d es
      return a :: others
end

end Scalar

/-- A value that a window is given for must be a ranking of the dialect. -/
def Selected.ofValue (d : Dialect) (value : Expr) (window : Option Window) :
    Except CompileCause Selected :=
  match window, value with
  | some w, .ranking f =>
      if d.rankings.contains f then .ok (ranking f w)
      else .error (.rankingUnavailable value d)
  | some _, _ => .error (.rankingUnavailable value d)
  | none, value => do return scalar (← Scalar.ofExpr d value)

/-- The name of the query below an operator. -/
def levelName (position : Nat) : String := "alias_" ++ toString position

/-- The query after a step, given the query before it. -/
def Query.after (d : Dialect) (inner : Query) (s : PlanStep) : Except CompileCause Query := do
  let level (items : List Item) (condition : Option Scalar) (order : List OrderTerm) : Query :=
    .nested items inner (levelName s.position) condition order
  let columns := s.output.map Item.column
  match s.operator with
  | .extend name value window =>
      let v ← Selected.ofValue d value window
      let items := s.output.map fun c => if c = name then Item.named v name else Item.column c
      return level items none []
  | .selectRows condition => return level columns (some (← Scalar.ofExpr d condition)) []
  | .orderBy terms => return level columns none terms
  | .selectColumns _ | .dropColumns _ => return level columns none []
  | .materialize .. => return inner

def Query.afterAll (d : Dialect) (inner : Query) : List PlanStep → Result Query
  | [] => .ok inner
  | s :: rest =>
      match inner.after d s with
      | .ok q => afterAll d q rest
      | .error cause => .error (.compile cause (some s.position))

end Tabula.Sql

namespace Tabula

open Sql

/-- No operator but the last may follow an ordering. -/
def checkOrdering : List PlanStep → Result Unit
  | [] => .ok ()
  | s :: rest =>
      if s.operator.isOrdering then
        match rest.find? fun t => !t.operator.isTerminal with
        | some t => .error (.compile (.orderingNotLast s.operator t.operator) (some s.position))
        | none => checkOrdering rest
      else checkOrdering rest

/-- The statement of a plan in a dialect. -/
def Plan.statement (p : Plan) (d : Dialect) : Result Sql.Statement := do
  checkOrdering p.steps
  let q ← (Sql.Query.table p.table.columns p.table.name).afterAll d p.steps
  match p.terminal? with
  | some (.materialize name temporary) => return .createTable name temporary q
  | _ => return .select q

end Tabula
