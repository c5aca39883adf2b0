import Tabula.Value.Order

/-!
The operators and functions that expressions are made of, and the dialects, each of which can
express some of the functions.
-/

namespace Tabula

inductive CompareOp
  | eq
  | ne
  | order (o : Order)
  deriving DecidableEq, Repr

def CompareOp.symbol : CompareOp → String
  | eq => "="
  | ne => "!="
  | order o => o.symbol

def CompareOp.all : List CompareOp :=
  [eq, ne, order .lt, order .le, order .gt, order .ge]

def CompareOp.ofSymbol? (symbol : String) : Option CompareOp := all.find? (·.symbol == symbol)

/-- The operator that says the same of the operands in the other order. -/
def CompareOp.swapped : CompareOp → CompareOp
  | eq => eq
  | ne => ne
  | order .lt => order .gt
  | order .le => order .ge
  | order .gt => order .lt
  | order .ge => order .le

@[simp] theorem CompareOp.swapped_swapped (op : CompareOp) : op.swapped.swapped = op := by
  rcases op with _ | _ | o
  · rfl
  · rfl
  · cases o <;> rfl

inductive ArithOp
  | add
  | sub
  | mul
  | div
  deriving DecidableEq, Repr

def ArithOp.symbol : ArithOp → String
  | add => "+"
  | sub => "-"
  | mul => "*"
  | div => "/"

def ArithOp.all : List ArithOp := [add, sub, mul, div]

def ArithOp.ofSymbol? (symbol : String) : Option ArithOp := all.find? (·.symbol == symbol)

/-- The connectives that join two or more conditions. -/
inductive Junction
  | and
  | or
  deriving DecidableEq, Repr

def Junction.symbol : Junction → String
  | and => "AND"
  | or => "OR"

/-- The functions that number the rows of a partition. -/
inductive Ranking
  | rank
  | denseRank
  | rowNumber
  deriving DecidableEq, Repr

def Ranking.name : Ranking → String
  | rank => "rank"
  | denseRank => "dense_rank"
  | rowNumber => "row_number"

def Ranking.all : List Ranking := [rank, denseRank, rowNumber]

def Ranking.named? (name : String) : Option Ranking := all.find? (·.name == name)

/-- The functions of one argument. -/
inductive UnaryFn
  | abs
  | lower
  | upper
  | sqrt
  | exp
  | ln
  deriving DecidableEq, Repr

/-- The functions that compute a value from values. -/
inductive ScalarFn
  | unary (f : UnaryFn)
  | round
  | coalesce
  deriving DecidableEq, Repr

def UnaryFn.name : UnaryFn → String
  | abs => "abs"
  | lower => "lower"
  | upper => "upper"
  | sqrt => "sqrt"
  | exp => "exp"
  | ln => "ln"

def ScalarFn.name : ScalarFn → String
  | unary f => f.name
  | round => "round"
  | coalesce => "coalesce"

def ScalarFn.all : List ScalarFn :=
  [unary .abs, round, unary .lower, unary .upper, coalesce, unary .sqrt, unary .exp, unary .ln]

def ScalarFn.named? (name : String) : Option ScalarFn := all.find? (·.name == name)

/-- The counts of arguments that a function takes, as messages show them. -/
def ScalarFn.arity : ScalarFn → String
  | unary _ => "1"
  | round => "1..2"
  | coalesce => "1..n"

/-- The kinds of statement text that plans are compiled to. -/
inductive Dialect
  | reference
  | extendedWindowTies
  deriving DecidableEq, Repr

def Dialect.name : Dialect → String
  | reference => "reference"
  | extendedWindowTies => "extended-window-ties"

def Dialect.all : List Dialect := [reference, extendedWindowTies]

def Dialect.named? (name : String) : Option Dialect := all.find? (·.name == name)

/-- The engine whose syntax both dialects follow. -/
def Dialect.engine (_ : Dialect) : String := "duckdb"

def Dialect.rankings : Dialect → List Ranking
  | reference => [.rank, .rowNumber]
  | extendedWindowTies => Ranking.all

def Dialect.functions : Dialect → List ScalarFn
  | reference => [.unary .abs, .round, .unary .lower, .unary .upper, .coalesce]
  | extendedWindowTies => ScalarFn.all

theorem Dialect.mem_rankings (f : Ranking) : f ∈ extendedWindowTies.rankings := by
  cases f <;> decide

theorem Dialect.mem_functions (f : ScalarFn) : f ∈ extendedWindowTies.functions := by
  rcases f with f | _ | _ <;> try cases f
  all_goals decide

/-- The order in which a windowed column leaves its rows: group by group in window order, or as
they came. -/
inductive RowOrder
  | partition
  | input
  deriving DecidableEq, Repr

def RowOrder.name : RowOrder → String
  | partition => "partition"
  | input => "input"

def RowOrder.named? (name : String) : Option RowOrder := [partition, input].find? (·.name == name)

end Tabula
