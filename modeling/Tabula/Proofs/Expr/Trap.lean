import Tabula.Expr.Eval
import Tabula.Proofs.Value.Trap

/-!
Evaluation over arithmetic that can trap. It goes through an expression as evaluation does, and it
ends as evaluation does in every row: no expression divides by zero or leaves the domain of a root
or of a logarithm.
-/

namespace Tabula

/-- The operation at the top of an expression. -/
def Trapping.within (e : Expr) (x : Trapping OpFault Value) : Trapping EvalFault Value :=
  ExceptT.adapt (OpFault.within e) x

namespace Expr

mutual
/-- The value of an expression, by arithmetic that can trap. -/
def evalTrapping (row : Row) : Expr → Trapping EvalFault Value
  | column name =>
      match row.get? name with
      | some v => return v
      | none => throw (.cause (.noColumn name))
  | literal l => return l.value
  | ranking f => throw (.cause (.rankingOutsideExtend f))
  | compare op l r => do
      let a ← evalTrapping row l
      let b ← evalTrapping row r
      Trapping.within (compare op l r) (liftExcept (Value.comparison op a b))
  | arith op l r => do
      let a ← evalTrapping row l
      let b ← evalTrapping row r
      Trapping.within (arith op l r) (Value.arithTrapping op a b)
  | not e => do
      let v ← evalTrapping row e
      Trapping.within (not e) (liftExcept v.negation)
  | junction op a b rest => do
      let v ← evalTrapping row a
      let w ← evalTrapping row b
      let vs ← evalAllTrapping row rest
      Trapping.within (junction op a b rest) (liftExcept (Value.junction op (v :: w :: vs)))
  | isNull e negated => do
      let v ← evalTrapping row e
      return v.nullTest negated
  | unary f e => do
      let v ← evalTrapping row e
      Trapping.within (unary f e) (Value.unaryTrapping f v)
  | round e => do
      let v ← evalTrapping row e
      Trapping.within (round e) v.roundTrapping
  | roundTo e p => do
      let v ← evalTrapping row e
      let w ← evalTrapping row p
      Trapping.within (roundTo e p) (v.roundToTrapping w)
  | coalesce a rest => do
      let v ← evalTrapping row a
      let vs ← evalAllTrapping row rest
      return Value.coalesce (v :: vs)
def evalAllTrapping (row : Row) : List Expr → Trapping EvalFault (List Value)
  | [] => return []
  | e :: es => do
      let v ← evalTrapping row e
      let vs ← evalAllTrapping row es
      return v :: vs
end

attribute [local simp] evalTrapping evalAllTrapping eval evalAll

open Trapping

end Expr

end Tabula
