import Tabula.Vocabulary

/-!
Expressions over the columns of a row. The type admits only well-formed ones: a connective joins at
least two operands, every function has as many arguments as it takes, and a literal is a null, a
boolean, a text or a finite number.
-/

namespace Tabula

inductive Literal
  | null
  | bool (b : Bool)
  | int (n : Int)
  | float (x : Float) (finite : x.isFinite = true)
  | str (s : String)
  deriving DecidableEq

def Literal.value : Literal → Value
  | null => .null
  | bool b => .bool b
  | int n => .int n
  | float x _ => .float x
  | str s => .str s

inductive Expr
  | column (name : String)
  | literal (l : Literal)
  | ranking (f : Ranking)
  | compare (op : CompareOp) (left right : Expr)
  | arith (op : ArithOp) (left right : Expr)
  | not (operand : Expr)
  | junction (op : Junction) (first second : Expr) (rest : List Expr)
  | isNull (operand : Expr) (negated : Bool)
  | unary (f : UnaryFn) (arg : Expr)
  | round (arg : Expr)
  | roundTo (arg places : Expr)
  | coalesce (first : Expr) (rest : List Expr)

namespace Expr

/-- Induction over expressions, the operands of a list one by one. -/
@[induction_eliminator]
theorem induct {P : Expr → Prop}
    (column : ∀ name, P (column name)) (literal : ∀ l, P (literal l))
    (ranking : ∀ f, P (ranking f))
    (compare : ∀ op left right, P left → P right → P (compare op left right))
    (arith : ∀ op left right, P left → P right → P (arith op left right))
    (not : ∀ operand, P operand → P (not operand))
    (junction : ∀ op first second rest, P first → P second → (∀ e ∈ rest, P e) →
      P (junction op first second rest))
    (isNull : ∀ operand negated, P operand → P (isNull operand negated))
    (unary : ∀ f arg, P arg → P (unary f arg)) (round : ∀ arg, P arg → P (round arg))
    (roundTo : ∀ arg places, P arg → P places → P (roundTo arg places))
    (coalesce : ∀ first rest, P first → (∀ e ∈ rest, P e) → P (coalesce first rest))
    (e : Expr) : P e :=
  e.rec (motive_1 := P) (motive_2 := fun es => ∀ e ∈ es, P e)
    column literal ranking compare arith not junction isNull unary round roundTo coalesce
    (by simp) (fun _ _ hd tl => by simpa using ⟨hd, tl⟩)

mutual
/-- The columns that the expression reads, left to right with repetitions. -/
def columns : Expr → List String
  | column name => [name]
  | literal _ | ranking _ => []
  | compare _ l r | arith _ l r => l.columns ++ r.columns
  | not e | isNull e _ | unary _ e | round e => e.columns
  | roundTo e p => e.columns ++ p.columns
  | junction _ a b rest => a.columns ++ b.columns ++ columnsOf rest
  | coalesce a rest => a.columns ++ columnsOf rest
def columnsOf : List Expr → List String
  | [] => []
  | e :: es => e.columns ++ columnsOf es
end

mutual
/-- Whether a ranking stands anywhere in the expression. -/
def hasRanking : Expr → Bool
  | ranking _ => true
  | column _ | literal _ => false
  | compare _ l r | arith _ l r => l.hasRanking || r.hasRanking
  | not e | isNull e _ | unary _ e | round e => e.hasRanking
  | roundTo e p => e.hasRanking || p.hasRanking
  | junction _ a b rest => a.hasRanking || b.hasRanking || anyRanking rest
  | coalesce a rest => a.hasRanking || anyRanking rest
def anyRanking : List Expr → Bool
  | [] => false
  | e :: es => e.hasRanking || anyRanking es
end

mutual
/-- Equality of expressions, literals counting as equal when their values are. -/
def same : Expr → Expr → Bool
  | column a, column b => a == b
  | literal a, literal b => a.value.same b.value
  | ranking f, ranking g => f == g
  | compare o a b, compare o' a' b' => o == o' && a.same a' && b.same b'
  | arith o a b, arith o' a' b' => o == o' && a.same a' && b.same b'
  | not a, not a' => a.same a'
  | junction o a b es, junction o' a' b' es' =>
      o == o' && a.same a' && b.same b' && sameAll es es'
  | isNull a n, isNull a' n' => a.same a' && n == n'
  | unary f a, unary f' a' => f == f' && a.same a'
  | round a, round a' => a.same a'
  | roundTo a p, roundTo a' p' => a.same a' && p.same p'
  | coalesce a es, coalesce a' es' => a.same a' && sameAll es es'
  | _, _ => false
def sameAll : List Expr → List Expr → Bool
  | [], [] => true
  | e :: es, f :: fs => e.same f && sameAll es fs
  | _, _ => false
end

theorem columnsOf_eq_flatMap (es : List Expr) : columnsOf es = es.flatMap columns := by
  induction es with
  | nil => rfl
  | cons e es ih => simp [columnsOf, ih]

theorem anyRanking_eq_any (es : List Expr) : anyRanking es = es.any hasRanking := by
  induction es with
  | nil => rfl
  | cons e es ih => simp [anyRanking, ih]

/-- The scalar function at the top of a call, and its arguments. -/
def callee? : Expr → Option (ScalarFn × List Expr)
  | unary f e => some (.unary f, [e])
  | round e => some (.round, [e])
  | roundTo e p => some (.round, [e, p])
  | coalesce a rest => some (.coalesce, a :: rest)
  | _ => none

/-- The name of the expression's form. -/
def formName : Expr → String
  | column _ => "ColumnRef"
  | literal _ => "Literal"
  | ranking _ => "WindowFunction"
  | compare .. => "Comparison"
  | arith .. => "Arithmetic"
  | not _ | junction .. => "Logical"
  | isNull .. => "IsNull"
  | unary .. | round _ | roundTo .. | coalesce .. => "FunctionCall"

end Expr

end Tabula
