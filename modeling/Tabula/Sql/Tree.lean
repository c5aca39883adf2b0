import Tabula.Schema

/-!
SQL statements as trees: the scalar expressions, the queries, each a SELECT over a table or over
another query, and the statements that select or create a table.
-/

namespace Tabula.Sql

inductive Scalar
  | column (name : String)
  | null
  | bool (b : Bool)
  | integer (n : Int)
  /-- A number cast to double. -/
  | double (x : Float)
  | string (s : String)
  | paren (e : Scalar)
  | compare (op : CompareOp) (left right : Scalar)
  | arith (op : ArithOp) (left right : Scalar)
  | nullIf (e zero : Scalar)
  | junction (op : Junction) (left right : Scalar)
  | not (e : Scalar)
  | isNull (e : Scalar)
  | call (f : ScalarFn) (args : List Scalar)

/-- What a SELECT item is computed from. -/
inductive Selected
  | scalar (e : Scalar)
  | ranking (f : Ranking) (window : Window)

inductive Item
  | column (name : String)
  | named (value : Selected) (name : String)

/-- The name of an item in what comes out. -/
def Item.name : Item → String
  | column name => name
  | named _ name => name

inductive Query
  | table (columns : List String) (name : String)
  | nested (items : List Item) (inner : Query) (name : String) (condition : Option Scalar)
      (order : List OrderTerm)

/-- The column names that come out of a query. -/
def Query.columns : Query → List String
  | table columns _ => columns
  | nested items .. => items.map Item.name

inductive Statement
  | select (query : Query)
  | createTable (name : String) (temporary : Bool) (query : Query)

def Statement.query : Statement → Query
  | select q => q
  | createTable _ _ q => q

end Tabula.Sql
