import Tabula.Expr.Text

/-!
What a plan says about tables without looking at their rows: a reference to a table with its
declared columns, the terms of an ordering, and the partitions and ordering of a window.
-/

namespace Tabula

structure TableRef where
  name : String
  columns : List String
  temporary : Bool
  deriving DecidableEq, Repr

/-- A truth value as descriptions show it. -/
def flagText (b : Bool) : String := if b then "True" else "False"

/-- Names between brackets, without quotes. -/
def nameList (names : List String) : String := Text.bracketed names

def TableRef.has (t : TableRef) (name : String) : Bool := t.columns.contains name

def TableRef.text (t : TableRef) : String :=
  "Table(name=" ++ Text.quoted t.name ++ ", temporary=" ++ flagText t.temporary ++ ")"

/-- One column of an ordering. -/
structure OrderTerm where
  column : String
  descending : Bool
  deriving DecidableEq, Repr

def OrderTerm.direction (t : OrderTerm) : String := if t.descending then "DESC" else "ASC"

def OrderTerm.text (t : OrderTerm) : String := t.column ++ " " ++ t.direction

def orderText (terms : List OrderTerm) : String := ", ".intercalate (terms.map OrderTerm.text)

/-- Rows with equal values in the partition columns form a group; each group is ordered by the
terms. -/
structure Window where
  partitionBy : List String
  orderBy : List OrderTerm
  deriving DecidableEq, Repr

/-- One group without an ordering. -/
def Window.whole : Window := ⟨[], []⟩

def Window.columns (w : Window) : List String := w.partitionBy ++ w.orderBy.map OrderTerm.column

def Window.text (w : Window) : String :=
  "partition_by=" ++ nameList w.partitionBy ++ ", order_by=[" ++ orderText w.orderBy ++ "]"

/-- Names in order, each once. -/
def sortedNames (names : List String) : List String :=
  (names.mergeSort fun a b => decide (a ≤ b)).eraseReps

end Tabula
