import Tabula.Row.Rank

/-!
The order of rows, said without sorting. A row precedes another if it is before it under the first
term that tells them apart. The rank of a row is found by counting the rows of its partition that
precede it.
-/

namespace Tabula

namespace Value

/-- Whether a value stands strictly below another one of its kind. -/
def isBelow (a b : Value) : Bool := a.compare .lt b matches .ok true

end Value

/-- Whether a value is before another one under a term: nulls are last in either direction. -/
def OrderTerm.isBefore (t : OrderTerm) (a b : Value) : Bool :=
  match a.isNull, b.isNull with
  | true, _ => false
  | false, true => true
  | false, false => if t.descending then b.isBelow a else a.isBelow b

@[simp] theorem OrderTerm.isBefore_null (t : OrderTerm) (v : Value) :
    t.isBefore .null v = false := rfl

@[simp] theorem OrderTerm.isBefore_null_right (t : OrderTerm) (v : Value) :
    t.isBefore v .null = !v.isNull := by
  cases v <;> rfl

/-- Whether a row is before another one, the first term that tells them apart deciding. -/
def precedes : List OrderTerm → Row → Row → Bool
  | [], _, _ => false
  | t :: terms, a, b =>
      let v := a.getD t.column
      let w := b.getD t.column
      t.isBefore v w || (!t.isBefore w v && precedes terms a b)

/-- Items in the order of their rows; those of which none precedes the other stay as they were. -/
def inOrder {α : Type} (rowOf : α → Row) (terms : List OrderTerm) (items : List α) : List α :=
  items.mergeSort fun a b => !precedes terms (rowOf b) (rowOf a)

/-- The values of a row in some columns. -/
def Row.values (r : Row) (columns : List String) : List Value := columns.map r.getD

/-- Whether two rows are in one partition. -/
def Window.together (w : Window) (a b : Row) : Bool :=
  Value.sameItems (a.values w.partitionBy) (b.values w.partitionBy)

/-- The number of the row at `place` among all rows: one more than the rows of its partition that
precede it, than the order keys among these, or than these and its peers further up. -/
def Window.rankOf (w : Window) (f : Ranking) (rows : List Row) (place : Nat) (r : Row) : Nat :=
  let partition := rows.zipIdx.filter fun m => w.together r m.1
  let ahead := partition.filter fun m => precedes w.orderBy m.1 r
  match f with
  | .rank => 1 + ahead.length
  | .denseRank =>
      let keys := ahead.map fun m => m.1.values (w.orderBy.map (·.column))
      1 + (keys.eraseDupsBy Value.sameItems).length
  | .rowNumber =>
      1 + partition.countP fun m =>
        precedes w.orderBy m.1 r || (!precedes w.orderBy r m.1 && decide (m.2 < place))

end Tabula
