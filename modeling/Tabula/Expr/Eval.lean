import Tabula.Value.Operations
import Tabula.Row

/-!
The value of an expression in a row. Operands are evaluated from left to right, all of them, before
the operation; the first failure is the failure of the whole.
-/

namespace Tabula

/-- Why an expression has no value in a row. -/
inductive EvalFault
  | cause (c : EvalCause)
  /-- Only lists get as far as this. -/
  | noOrder (clash : Clash)

/-- The failure of an evaluation for the node at `position`. -/
def EvalFault.at (position : Option Int) : EvalFault → Failure
  | cause c => .eval c position
  | noOrder clash => .operand (.noOrder clash)

/-- A number out of range is blamed on the whole expression that computes it. -/
def OpFault.within (e : Expr) : OpFault → EvalFault
  | notDefined what values => .cause (.notDefined what values)
  | range c => .cause (.outOfRange e c)
  | negativeRoot v => .cause (.negativeRoot v)
  | nonPositiveLogarithm v => .cause (.nonPositiveLogarithm v)
  | noOrder clash => .noOrder clash

namespace Expr

mutual
def eval (row : Row) : Expr → Except EvalFault Value
  | column name =>
      match row.get? name with
      | some v => .ok v
      | none => .error (.cause (.noColumn name))
  | literal l => .ok l.value
  | ranking f => .error (.cause (.rankingOutsideExtend f))
  | compare op l r => do
      let a ← eval row l
      let b ← eval row r
      (Value.comparison op a b).mapError (OpFault.within (compare op l r))
  | arith op l r => do
      let a ← eval row l
      let b ← eval row r
      (Value.arith op a b).mapError (OpFault.within (arith op l r))
  | not e => do
      let v ← eval row e
      v.negation.mapError (OpFault.within (not e))
  | junction op a b rest => do
      let v ← eval row a
      let w ← eval row b
      let vs ← evalAll row rest
      (Value.junction op (v :: w :: vs)).mapError (OpFault.within (junction op a b rest))
  | isNull e negated => do
      let v ← eval row e
      return v.nullTest negated
  | unary f e => do
      let v ← eval row e
      (Value.unary f v).mapError (OpFault.within (unary f e))
  | round e => do
      let v ← eval row e
      v.round.mapError (OpFault.within (round e))
  | roundTo e p => do
      let v ← eval row e
      let w ← eval row p
      (v.roundTo w).mapError (OpFault.within (roundTo e p))
  | coalesce a rest => do
      let v ← eval row a
      let vs ← evalAll row rest
      return Value.coalesce (v :: vs)
def evalAll (row : Row) : List Expr → Except EvalFault (List Value)
  | [] => .ok []
  | e :: es => do
      let v ← eval row e
      let vs ← evalAll row es
      return v :: vs
end

/-- Whether a condition holds: true keeps a row, false and unknown do not, and another value is a
fault. -/
def holds (row : Row) (condition : Expr) : Except EvalFault Bool := do
  match ← condition.eval row with
  | .null => return false
  | .bool b => return b
  | v => throw (.cause (.notBoolean condition v))

theorem evalAll_eq_mapM (row : Row) (es : List Expr) : evalAll row es = es.mapM (eval row) := by
  induction es with
  | nil => rfl
  | cons e es ih => simp [evalAll, ih]

end Expr

end Tabula
