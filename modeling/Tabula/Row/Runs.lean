import Tabula.Number.Quotient

/-!
Sorting when the order of items may be no order: the comparisons that are made, and so the outcome,
follow from the places of the items alone. The list is cut into runs, which are in order as far as
neighbours are compared; short runs are filled up by insertion. Runs are merged as soon as they
stand deep enough in a balanced division of the list. A merge takes items one by one until one run
has won so often that it is searched for as many items as it can give.
-/

namespace Tabula

/-- Sorting may fail, and remembers how often a run has to win before it is searched. -/
abbrev Sorting (ε : Type) := StateT Nat (Except ε)

section Search

variable {α ε : Type} (passes : α → Except ε Bool)

/-- Whether a search looks at a run from its end. -/
inductive Sense
  | forward
  | backward
  deriving DecidableEq, Repr

/-- The middle of so many items, seen from where the search began; of two it is always the same. -/
def Sense.middle : Sense → Nat → Nat
  | forward, n => n / 2
  | backward, n => (n - 1) / 2

/-- How many items pass, those that do standing in front, found by halves. -/
def countByHalves (sense : Sense) (items : List α) : Except ε Nat :=
  let half := sense.middle items.length
  match _h : items.drop half with
  | [] => .ok 0
  | x :: after => do
      if ← passes x then return half + 1 + (← countByHalves sense after)
      else countByHalves sense (items.take half)
termination_by items.length
decreasing_by
  all_goals
    have := congrArg List.length ‹items.drop half = _›
    simp only [List.length_drop, List.length_cons, List.length_take] at this ⊢
    omega

/-- How many items pass, looked for in leaps that pass over `gap` items first and over more and
more, then by halves between the last two that were looked at. -/
def countByLeaps (sense : Sense) (gap : Nat) (items : List α) : Except ε Nat :=
  match _h : items.drop gap with
  | [] => countByHalves passes sense items
  | x :: after => do
      if ← passes x then return gap + 1 + (← countByLeaps sense (2 * gap + 1) after)
      else countByHalves passes sense (items.take gap)
termination_by items.length
decreasing_by
  have := congrArg List.length ‹items.drop gap = _›
  simp only [List.length_drop, List.length_cons] at this ⊢
  omega

/-- How many items pass, looked for from the first one on. -/
def countPassing (sense : Sense) : List α → Except ε Nat
  | [] => .ok 0
  | x :: rest => do
      if ← passes x then return 1 + (← countByLeaps passes sense 0 rest) else return 0

end Search

section Runs

variable {α ε : Type} (before : α → α → Except ε Bool)

/-- Goes on with a run in which every item is before the last one; the run so far has its newest
item first, and so has the outcome. -/
def descendingRun (last : α) (run : List α) : List α → Except ε (List α × List α)
  | [] => .ok (last :: run, [])
  | x :: rest => do
      if ← before x last then descendingRun x (last :: run) rest
      else return (last :: run, x :: rest)

/-- Goes on with a run in which no item is before the last one. -/
def ascendingRun (last : α) (run : List α) : List α → Except ε (List α × List α)
  | [] => .ok ((last :: run).reverse, [])
  | x :: rest => do
      if ← before x last then return ((last :: run).reverse, x :: rest)
      else ascendingRun x (last :: run) rest

/-- The run at the front in ascending order, and the items after it. -/
def leadingRun : List α → Except ε (List α × List α)
  | [] => .ok ([], [])
  | [x] => .ok ([x], [])
  | x :: y :: rest => do
      if ← before y x then descendingRun before y [x] rest else ascendingRun before y [x] rest

/-- Puts an item after all of a sorted list that it is not before. -/
def insertByHalves (sorted : List α) (item : α) : Except ε (List α) := do
  let place ← countByHalves (fun x => not <$> before item x) .forward sorted
  return sorted.take place ++ item :: sorted.drop place

/-- The run at the front, made `least` items long if there are so many, and the items after it. -/
def filledRun (least : Nat) (items : List α) : Except ε (List α × List α) := do
  let (run, rest) ← leadingRun before items
  let missing := least - run.length
  return (← (rest.take missing).foldlM (insertByHalves before) run, rest.drop missing)

end Runs

/-- Two runs being merged: what is merged so far, the newest item first, and what is left of both.
-/
structure Merge (α : Type) where
  merged : List α
  first : List α
  second : List α

namespace Merge

variable {α ε : Type}

/-- Nothing is left to compare: the items left of the second run come before a single item of the
first. -/
def isOver (m : Merge α) : Bool := m.second.isEmpty || m.first.length ≤ 1

def result (m : Merge α) : List α := m.merged.reverse ++ m.second ++ m.first

def takeFirst (count : Nat) (m : Merge α) : Merge α :=
  ⟨(m.first.take count).reverse ++ m.merged, m.first.drop count, m.second⟩

def takeSecond (count : Nat) (m : Merge α) : Merge α :=
  ⟨(m.second.take count).reverse ++ m.merged, m.first, m.second.drop count⟩

/-- Merging from the front, or from the back with the runs exchanged and the order turned round. -/
def isBefore (before : α → α → Except ε Bool) : Sense → α → α → Except ε Bool
  | .forward, x, y => before x y
  | .backward, x, y => before y x

/-- How many wins in a row are many. -/
def manyWins : Nat := 7

variable (before : α → α → Except ε Bool) (sense : Sense)

/-- Searches the first run for all that comes before the next item of the second, and takes that
item as well; gives the number of items found. -/
def searchFirst (m : Merge α) : Except ε (Nat × Merge α) :=
  match m.isOver, m.second with
  | false, y :: _ => do
      let count ← countPassing (fun x => not <$> isBefore before sense y x) sense m.first
      let m := m.takeFirst count
      return (count, if m.isOver then m else m.takeSecond 1)
  | _, _ => .ok (0, m)

/-- Searches the second run for all that comes before the next item of the first, and takes that
item as well; gives the number of items found. -/
def searchSecond (m : Merge α) : Except ε (Nat × Merge α) :=
  match m.isOver, m.first with
  | false, x :: _ => do
      let count ← countPassing (fun y => isBefore before sense y x) sense m.second
      let m := m.takeSecond count
      return (count, if m.isOver then m else m.takeFirst 1)
  | _, _ => .ok (0, m)

/-- Searches both runs, the first run of the list before the other. -/
def searchBoth (m : Merge α) : Except ε (Nat × Merge α) := do
  match sense with
  | .forward =>
      let (count, m) ← m.searchFirst before sense
      let (count', m) ← m.searchSecond before sense
      return (max count count', m)
  | .backward =>
      let (count, m) ← m.searchSecond before sense
      let (count', m) ← m.searchFirst before sense
      return (max count count', m)

/-- Which run won last, and how often in a row. -/
structure Streak where
  ofSecond : Bool
  length : Nat

/-- How the next items are taken. -/
inductive Mode
  | comparing (s : Streak)
  | searching

/-- Goes on to merge in at most `bound` steps, each of which takes an item or more. -/
def finish : Nat → Mode → Merge α → Sorting ε (List α)
  | 0, _, m => return m.result
  | bound + 1, mode, m =>
      match m.isOver, m.first, m.second, mode with
      | false, x :: _, y :: _, .comparing s => do
          let won ← isBefore before sense y x
          let m := if won then m.takeSecond 1 else m.takeFirst 1
          let wins := if s.ofSecond = won then s.length + 1 else 1
          let enough ← get
          finish bound (if enough ≤ wins then .searching else .comparing ⟨won, wins⟩) m
      | false, _, _, .searching => do
          let (most, m) ← m.searchBoth before sense
          if m.isOver then return m.result
          else if manyWins ≤ most then
            modify fun enough => max 1 (enough - 1)
            finish bound .searching m
          else
            modify (· + 1)
            finish bound (.comparing ⟨false, 0⟩) m
      | _, _, _, _ => return m.result

/-- Merges two runs of which the next item of the second is known to come first. -/
def run (m : Merge α) : Sorting ε (List α) :=
  (m.takeSecond 1).finish before sense (m.first.length + m.second.length) (.comparing ⟨false, 0⟩)

end Merge

section Division

variable {α ε : Type} (before : α → α → Except ε Bool)

/-- Merges neighbouring runs. Items that are in place at both ends are left there; of the rest the
shorter run is taken first. -/
def mergeRuns (a b : List α) : Sorting ε (List α) :=
  match b with
  | [] => return a
  | y :: _ => do
      let inFront ← countPassing (fun x => not <$> before y x) .forward a
      let rest := a.drop inFront
      match rest.reverse with
      | [] => return a ++ b
      | x :: _ => do
          let behind ← countPassing (fun z => not <$> before z x) .backward b.reverse
          let start := b.take (b.length - behind)
          let merged ←
            if start.isEmpty then pure rest
            else if rest.length ≤ start.length then Merge.run before .forward ⟨[], rest, start⟩
            else List.reverse <$> Merge.run before .backward ⟨[], start.reverse, rest.reverse⟩
          return a.take inFront ++ merged ++ b.drop (b.length - behind)

/-- How deep two places, counted in halves, part in a division of `size` items by halves: the first
binary digit in which their shares of the whole differ, of at most `bound`. -/
def partingDepth (size : Nat) : Nat → Nat → Nat → Nat
  | 0, _, _ => 0
  | bound + 1, a, b =>
      if a / size ≠ b / size then 1
      else partingDepth size bound (2 * (a % size)) (2 * (b % size)) + 1

/-- A run with the depth at which it parts from the run after it. -/
structure Pending (α : Type) where
  run : List α
  depth : Nat

/-- Runs waiting to be merged, the last one apart, where it begins, and how many items there are. -/
structure Stack (α : Type) where
  size : Nat
  start : Nat
  last : List α
  below : List (Pending α)

namespace Stack

/-- Merges the last run with those before it that part from their neighbours deeper than `depth`. -/
def collapse (depth : Nat) (last : List α) :
    List (Pending α) → Sorting ε (List α × List (Pending α))
  | [] => return (last, [])
  | p :: ps => do
      if depth < p.depth then collapse depth (← mergeRuns before p.run last) ps
      else return (last, p :: ps)

/-- Adds a run. -/
def push (s : Stack α) (run : List α) : Sorting ε (Stack α) := do
  let center := 2 * s.start + s.last.length
  let depth := partingDepth s.size (s.size.log2 + 2) center (center + s.last.length + run.length)
  let (last, below) ← collapse before depth s.last s.below
  return ⟨s.size, s.start + s.last.length, run, ⟨last, depth⟩ :: below⟩

/-- Merges all runs in at most `bound` steps, a short run between longer ones with the shorter. -/
def mergeAll : Nat → List α → List (Pending α) → Sorting ε (List α)
  | 0, last, below => return (below.reverse.flatMap Pending.run) ++ last
  | _, last, [] => return last
  | bound + 1, last, [p] => do mergeAll bound (← mergeRuns before p.run last) []
  | bound + 1, last, p :: q :: ps => do
      if q.run.length < last.length then
        mergeAll bound last (⟨← mergeRuns before q.run p.run, p.depth⟩ :: ps)
      else mergeAll bound (← mergeRuns before p.run last) (q :: ps)

end Stack

/-- The least length of a run: no more than 64, so that the runs are nearly a power of two in
number. -/
def leastRun (size : Nat) : Nat :=
  let unit := Number.twoTo (size.log2 - 5)
  (size + unit - 1) / unit

/-- Goes through the rest of the items run by run, at most `bound` runs. -/
def gatherRuns (least : Nat) : Nat → Stack α → List α → Sorting ε (Stack α)
  | 0, s, _ => return s
  | _, s, [] => return s
  | bound + 1, s, items => do
      let (run, rest) ← filledRun before least items
      gatherRuns least bound (← s.push before run) rest

/-- Sorts items that may have no order. -/
def sortByRuns (items : List α) : Except ε (List α) := do
  let size := items.length
  let least := leastRun size
  let (run, rest) ← filledRun before least items
  let sorting : Sorting ε (List α) := do
    let s ← gatherRuns before least size ⟨size, 0, run, []⟩ rest
    Stack.mergeAll before s.below.length s.last s.below
  return (← sorting.run Merge.manyWins).1

end Division

end Tabula
