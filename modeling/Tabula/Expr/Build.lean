import Tabula.Failure

/-!
Building expressions from parts that may not fit: a literal from any value, a connective from any
list of operands, a call from any name and any list of arguments.
-/

namespace Tabula

/-- Null, booleans, texts and finite numbers are literals. -/
def Literal.ofValue : Value → Result Literal
  | .null => .ok .null
  | .bool b => .ok (.bool b)
  | .int n => .ok (.int n)
  | .float x =>
      if h : x.isFinite = true then .ok (.float x h) else .error (.argument (.notFinite x))
  | .str s => .ok (.str s)
  | .list number items => .error (.operand (.literal (.list number items)))

namespace Expr

def ofValue (v : Value) : Result Expr := do return literal (← Literal.ofValue v)

def negation : List Expr → Result Expr
  | [e] => .ok (not e)
  | _ => .error (.argument .notOneOperand)

def joined (op : Junction) : List Expr → Result Expr
  | a :: b :: rest => .ok (junction op a b rest)
  | _ => .error (.argument (.tooFewOperands op))

/-- A call, if the function takes that many arguments. -/
def call? : ScalarFn → List Expr → Option Expr
  | .unary f, [e] => some (unary f e)
  | .round, [e] => some (round e)
  | .round, [e, p] => some (roundTo e p)
  | .coalesce, a :: rest => some (coalesce a rest)
  | _, _ => none

def call (f : ScalarFn) (args : List Expr) : Result Expr :=
  match call? f args with
  | some e => .ok e
  | none => .error (.argument (.argumentCount f args.length))

end Expr

end Tabula
