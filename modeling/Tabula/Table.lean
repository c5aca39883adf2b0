import Tabula.Row
import Tabula.Schema.Build

/-!
Tables: named columns and rows. A row may lack some of the columns, and may hold values under other
names; both are passed over when the table is read column by column.
-/

namespace Tabula

structure Table where
  columns : List String
  rows : List Row
  deriving Inhabited

/-- A table as it comes from outside, or the rows alone. -/
inductive Source
  | table (t : Table)
  | records (rows : List Row)

/-- The row itself, if all its values can be written. -/
def Row.written (r : Row) : Result Row :=
  if r.cells.all (·.2.isWritable) then .ok r else .error .unwritable

namespace Table

/-- The table itself, if all its values can be written. -/
def written (t : Table) : Result Table := do
  let rows ← t.rows.mapM Row.written
  return { t with rows }

def make (columns : List Value) (rows : List Row) : Result Table := do
  return ⟨← uniqueColumns columns none, rows⟩

/-- The texts among values. -/
def textsOf (vs : List Value) : List String :=
  vs.filterMap fun
    | .str s => some s
    | _ => none

/-- Fills the records to the columns; no record may hold anything else. -/
def fillRecords (columns : List String) (record : Nat) : List Row → Result (List Row)
  | [] => .ok []
  | r :: rest =>
      match sortedNames (r.columns.filter fun c => !columns.contains c) with
      | [] => do return r.fill columns :: (← fillRecords columns (record + 1) rest)
      | extra => .error (.argument (.undeclaredColumns record extra))

/-- A table of records, its columns given or taken from the first record. -/
def ofRecords (records : List Row) (columns : Option (List Value)) : Result Table := do
  let columns ← match columns, records with
    | some cs, _ => .ok cs
    | none, [] => .error (.argument .columnsRequired)
    | none, r :: _ => .ok (r.columns.map .str)
  if columns.any (·.kind = .list) then throw (.operand .notHashable)
  make columns (← fillRecords (textsOf columns) 0 records)

/-- Numbers in order, each once. -/
def sortedLengths (ns : List Nat) : List Nat := (ns.mergeSort fun a b => decide (a ≤ b)).eraseReps

/-- Row `i` of a list of columns. -/
def rowOfColumns (data : List (String × List Value)) (i : Nat) : Row :=
  ⟨data.map fun c => (c.1, c.2.getD i .null)⟩

/-- A table of columns of equal lengths; a column given twice keeps its first place and its last
values. -/
def ofColumns (data : List (String × List Value)) : Result Table := do
  let columns := (data.map Prod.fst).eraseDups
  let data := columns.map fun c => (c, (data.reverse.lookup c).getD [])
  match sortedLengths (data.map (·.2.length)) with
  | [] => make [] []
  | [n] => make (columns.map .str) ((List.range n).map (rowOfColumns data))
  | lengths => .error (.argument (.unequalLengths lengths))

/-- A reference to the table under a name. -/
def describe (t : Table) (name : String) (temporary : Bool) : Result TableRef :=
  TableRef.make name (t.columns.map .str) temporary

/-- The values of a column, null where a row lacks it. -/
def column (t : Table) (name : String) : Result (List Value) :=
  if t.columns.contains name then .ok (t.rows.map (·.getD name))
  else .error (.lookup (.column name))

/-- The rows with exactly the columns of the table. -/
def records (t : Table) : List Row := t.rows.map (·.fill t.columns)

def text (t : Table) : String :=
  "InMemoryTable(columns=" ++ Text.quotedList t.columns ++ ", rows=" ++
    toString t.rows.length ++ ")"

/-- A value as it is compared: doubles rounded to a number of places. -/
def roundedValue (places : Int) : Value → Result Value
  | .float x =>
      match Number.roundExact? x places with
      | some y => .ok (.float y)
      | none => .error .roundedTooLarge
  | v => .ok v

/-- The rows as they are compared, columns in the order of their names. -/
def keyed (t : Table) (places : Int) : Result (List (List Value)) :=
  let names := sortedNames t.columns
  t.rows.mapM fun r => names.mapM fun c => roundedValue places (r.getD c)

/-- Equality of rows one by one. -/
def sameInOrder : List (List Value) → List (List Value) → Bool
  | [], [] => true
  | x :: xs, y :: ys => Value.sameItems x y && sameInOrder xs ys
  | _, _ => false

/-- Equality of rows in any order: every row takes away an equal one of the others. -/
def sameInAnyOrder : List (List Value) → List (List Value) → Bool
  | [], ys => ys.isEmpty
  | x :: xs, ys =>
      ys.any (Value.sameItems x) && sameInAnyOrder xs (ys.eraseP (Value.sameItems x))

/-- Rows are told apart by their values, which must be fit for it. -/
def checkHashable (rows : List (List Value)) : Result Unit :=
  if rows.any fun r => r.any (·.kind = .list) then .error (.operand .notHashable) else .ok ()

/-- Whether two tables hold the same rows under the same names, doubles rounded to a number of
places. -/
def sameRows (t u : Table) (ordered : Bool) (places : Int) : Result Bool := do
  if sortedNames t.columns ≠ sortedNames u.columns then return false
  if t.rows.length ≠ u.rows.length then return false
  let a ← t.keyed places
  if ordered then
    return sameInOrder a (← u.keyed places)
  else
    checkHashable a
    let b ← u.keyed places
    checkHashable b
    return sameInAnyOrder a b

end Table

/-- Rows alone are read as a table of the declared columns. -/
def Source.toTable (s : Source) (declared : List String) : Table :=
  match s with
  | table t => t
  | records rows => ⟨declared, rows⟩

end Tabula
