import Tabula.Failure
import Tabula.Row
import Tabula.Row.Runs

/-!
Sorting by the terms of an ordering: stable, term by term from the least significant, with nulls
last in either direction. If all keys stand in one order, there is but one outcome. If some have
no order, or are not a number, the outcome depends on which keys meet, and they meet as they do
when runs are merged.
-/

namespace Tabula

/-- Why items could not be sorted. -/
inductive SortFault
  | clash (column : String) (c : Clash)
  | noColumn (name : String)

def SortFault.at (position : Option Int) : SortFault → Failure
  | clash column c => .eval (.cannotOrder column c) position
  | noColumn name => .lookup (.bare name)

/-- Whether one key is strictly before another, nulls standing at one end. -/
def keyBefore (nullsFirst : Bool) (a b : Value) : Except Clash Bool :=
  match a.isNull, b.isNull with
  | true, true => .ok false
  | true, false => .ok nullsFirst
  | false, true => .ok !nullsFirst
  | false, false => if a.same b then .ok false else a.compare .lt b

/-- Whether the keys, nulls apart, are all texts or are all numbers with a place. -/
def inOneOrder (keys : List Value) : Bool :=
  let present := keys.filter fun v => !v.isNull
  present.all (·.kind = .string) || present.all (·.place?.isSome)

/-- Items with their keys, in the order of the keys. -/
def sortKeyed {α : Type} (nullsFirst : Bool) (items : List (Value × α)) :
    Except Clash (List (Value × α)) :=
  let before (a b : Value × α) := keyBefore nullsFirst a.1 b.1
  if inOneOrder (items.map Prod.fst) then
    .ok (items.mergeSort fun a b => !(before b a matches .ok true))
  else sortByRuns before items

/-- A descending order is the reverse of the ascending one, and leaves equal items as they were. -/
def sortDirected {α : Type} (descending : Bool) (items : List (Value × α)) :
    Except Clash (List (Value × α)) :=
  if descending then do return (← sortKeyed true items.reverse).reverse
  else sortKeyed false items

/-- Sorts items whose rows are given by `rowOf`. -/
def sortItems {α : Type} (rowOf : α → Row) : List OrderTerm → List α → Except SortFault (List α)
  | [], items => .ok items
  | t :: terms, items => do
      let items ← sortItems rowOf terms items
      let keyed ← items.mapM fun a =>
        match (rowOf a).get? t.column with
        | some key => .ok (key, a)
        | none => .error (.noColumn t.column)
      let sorted ← (sortDirected t.descending keyed).mapError (.clash t.column)
      return sorted.map Prod.snd

def sortRows (terms : List OrderTerm) (rows : List Row) : Except SortFault (List Row) :=
  sortItems id terms rows

end Tabula
