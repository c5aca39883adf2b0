import Tabula.Row.Sort

/-!
Ranking rows. The rows are grouped by the values in the partition columns, groups in the order in
which they are first met; each group is sorted, and its rows are numbered. Rows that are equal in
all columns of the ordering are peers: they share a rank, after which the next one skips as many as
there were peers, or none if ranks are dense.
-/

namespace Tabula

/-- Items in groups with the same key, in the order of their first items. A key that is not even the
same as itself makes a group of its own each time. -/
def groupsOf {α : Type} : List (List Value × α) → List (List α)
  | [] => []
  | (key, a) :: rest =>
      (a :: (rest.filter fun m => Value.sameItems key m.1).map Prod.snd) ::
        groupsOf (rest.filter fun m => !Value.sameItems key m.1)
termination_by items => items.length
decreasing_by
  simpa [Nat.lt_succ_iff] using
    List.length_filter_le (fun m => !Value.sameItems key m.val.1) rest.attach

/-- The number of an item, given how many are before it in its group, the number of the one just
before, and whether the two are peers. -/
def Ranking.number (f : Ranking) (before last : Nat) (peer : Bool) : Nat :=
  match f with
  | rowNumber => before + 1
  | rank => if peer then last else before + 1
  | denseRank => if peer then last else last + 1

/-- The numbers of the items of a sorted group from their keys. -/
def Ranking.numbersFrom (f : Ranking) (before last : Nat) (previous : Option (List Value)) :
    List (List Value) → List Nat
  | [] => []
  | key :: keys =>
      let peer := match previous with
        | none => false
        | some p => Value.sameItems key p
      let n := f.number before last peer
      n :: numbersFrom f (before + 1) n (some key) keys

def Ranking.numbers (f : Ranking) (keys : List (List Value)) : List Nat :=
  f.numbersFrom 0 0 none keys

/-- The values in the partition columns, which must be fit to be told apart. -/
def partitionKey (columns : List String) (r : Row) : Result (List Value) := do
  let key ← columns.mapM fun c =>
    match r.get? c with
    | some v => .ok v
    | none => .error (.lookup (.bare c))
  if key.any (·.kind = .list) then throw (.operand .notHashable)
  return key

/-- A window over a ranking, and the column that the numbers are put into. -/
structure RankedWindow where
  name : String
  ranking : Ranking
  window : Window
  position : Nat

/-- One group, sorted and numbered; every row comes with its place in the input. -/
def RankedWindow.rankGroup (w : RankedWindow) (members : List (Row × Nat)) :
    Result (List (Row × Nat)) := do
  let terms := w.window.orderBy
  let sorted ← (sortItems Prod.fst terms members).mapError (·.at (some w.position))
  let keys := sorted.map fun m => terms.map fun t => m.1.getD t.column
  return (sorted.zip (w.ranking.numbers keys)).map fun (m, n) => (m.1.set w.name (.int n), m.2)

/-- The rows with their numbers, group by group in window order, or in the order of the input. -/
def RankedWindow.rows (w : RankedWindow) (order : RowOrder) (rows : List Row) :
    Result (List Row) := do
  let keyed ← rows.zipIdx.mapM fun m => do
    return (← partitionKey w.window.partitionBy m.1, m)
  let groups ← (groupsOf keyed).mapM w.rankGroup
  let ranked := groups.flatten
  match order with
  | .partition => return ranked.map Prod.fst
  | .input => return (ranked.mergeSort fun a b => decide (a.2 ≤ b.2)).map Prod.fst

end Tabula
