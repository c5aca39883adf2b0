import Tabula.Row.Precedence
import Tabula.Sql.Tree
import Tabula.Table
import Tabula.Value.Operations

/-!
What statements mean. A SELECT takes the rows of its FROM in their order, keeps those whose
condition is exactly true, and computes every item from the columns of the FROM, never from
another item. Conditions have three truth values, rankings count within partitions, and an
ordering is stable with nulls last. Where a value is not defined, a quotient by zero among them, a
statement has no meaning.
-/

namespace Tabula.Sql

/-- Arithmetic, which null goes through and in which a quotient by zero is not defined. -/
def arithmetic (op : ArithOp) (a b : Value) : Option Value :=
  if op = .div ∧ !a.isNull ∧ b.isZero then none else (Value.arith op a b).toOption

/-- Null if the values are equal, and otherwise the first of them. -/
def nullIfSame (a b : Value) : Value :=
  if Value.comparison .eq a b matches .ok (.bool true) then .null else a

/-- A truth value, unknown for null. -/
def truthOf : Value → Option (Option Bool)
  | .null => some none
  | .bool b => some (some b)
  | _ => none

def conjunction : Option Bool → Option Bool → Option Bool
  | some false, _ => some false
  | _, some false => some false
  | some true, t => t
  | none, _ => none

def disjunction (a b : Option Bool) : Option Bool :=
  (conjunction (a.map (!·)) (b.map (!·))).map (!·)

def connect (op : Junction) (a b : Option Bool) : Option Bool :=
  match op with
  | .and => conjunction a b
  | .or => disjunction a b

theorem connect_eq_join (op : Junction) (a b : Option Bool) : connect op a b = op.join [a, b] := by
  cases op <;> rcases a with _ | _ | _ <;> rcases b with _ | _ | _ <;> rfl

/-- The value of a function, if it takes that many arguments and is defined for them. -/
def apply (f : ScalarFn) (args : List Value) : Option Value :=
  match f, args with
  | .unary f, [v] => (Value.unary f v).toOption
  | .round, [v] => v.round.toOption
  | .round, [v, places] => (v.roundTo places).toOption
  | .coalesce, v :: vs => some (Value.coalesce (v :: vs))
  | _, _ => none

namespace Scalar

mutual
/-- The value of a scalar in a row of the FROM. -/
def value (r : Row) : Scalar → Option Value
  | column name => r.get? name
  | null => some .null
  | bool b => some (.bool b)
  | integer n => some (.int n)
  | double x => some (.float x)
  | string s => some (.str s)
  | paren e => value r e
  | compare op a b => do (Value.comparison op (← value r a) (← value r b)).toOption
  | arith op a b => do arithmetic op (← value r a) (← value r b)
  | nullIf a b => do return nullIfSame (← value r a) (← value r b)
  | junction op a b => do
      let p ← truthOf (← value r a)
      let q ← truthOf (← value r b)
      return .ofTruth (connect op p q)
  | not e => do
      let p ← truthOf (← value r e)
      return .ofTruth (p.map (!·))
  | isNull e => do return .bool (← value r e).isNull
  | call f args => do apply f (← values r args)
def values (r : Row) : List Scalar → Option (List Value)
  | [] => some []
  | e :: es => do
      let v ← value r e
      let vs ← values r es
      return v :: vs
end

/-- Whether a condition is exactly true. -/
def isTrue (r : Row) (condition : Scalar) : Option Bool := do
  return (← truthOf (← condition.value r)) == some true

end Scalar

/-- The value of an item for the row at `place` among the rows of the FROM. -/
def Item.value (rows : List Row) (place : Nat) (r : Row) : Item → Option Value
  | column name => r.get? name
  | named (.scalar e) _ => e.value r
  | named (.ranking f w) _ => some (.int (w.rankOf f rows place r))

/-- The rows for which a condition is true. -/
def filterRows (keep : Row → Option Bool) : List Row → Option (List Row)
  | [] => some []
  | r :: rest => do
      let kept ← keep r
      let others ← filterRows keep rest
      return if kept then r :: others else others

/-- The items of every row, in the order of the rows. -/
def select (items : List Item) (rows : List Row) : Option (List Row) :=
  rows.zipIdx.mapM fun (r, place) => do
    return ⟨← items.mapM fun i => do return (i.name, ← i.value rows place r)⟩

/-- The rows of a query, all tables being given. -/
def Query.rows (tables : String → Option Table) : Query → Option (List Row)
  | table columns name => do select (columns.map .column) (← tables name).rows
  | nested items inner _ condition order => do
      let rows ← inner.rows tables
      let kept ← match condition with
        | none => some rows
        | some c => filterRows (fun r => c.isTrue r) rows
      let selected ← select items kept
      return (inOrder Prod.fst order (kept.zip selected)).map Prod.snd

/-- The rows that a statement selects or puts into the table it creates. -/
def Statement.rows (tables : String → Option Table) (s : Statement) : Option (List Row) :=
  s.query.rows tables

end Tabula.Sql
