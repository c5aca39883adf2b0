import Tabula.Row.Rank
import Tabula.Table

/-!
Cursors: row by row, on demand. A cursor is opened, asked for rows until there is none, and closed;
it may be opened again at any time, and after a failure it stays where the failure left it. Every
answer but the last leaves fewer rows to come, which is why draining a cursor ends.
-/

namespace Tabula

structure Cursor where
  State : Type
  /-- The state before anything is asked. -/
  start : State
  opened : State → Result Unit × State
  /-- The next row, or none at the end. -/
  next : State → Result (Option Row) × State
  closed : State → State
  /-- A bound on the answers before the end. -/
  left : State → Nat
  left_next : ∀ s, (next s).1 ≠ .ok none → left (next s).2 < left s

namespace Cursor

/-- The rows to the end, or the first failure. -/
def drain (c : Cursor) (s : c.State) : Result (List Row) × c.State :=
  match _h : c.next s with
  | (.error e, s') => (.error e, s')
  | (.ok none, s') => (.ok [], s')
  | (.ok (some r), s') =>
      let (rows, s'') := c.drain s'
      (rows.map (r :: ·), s'')
termination_by c.left s
decreasing_by
  have := c.left_next s
  simp_all

/-- How far a scan has come. -/
structure ScanState where
  read : Nat
  rest : List Row

/-- The rows of a table, cut to the declared columns, which the table must have. -/
def scan (t : Table) (ref : TableRef) : Cursor where
  State := ScanState
  start := ⟨0, t.rows⟩
  opened s :=
    match sortedNames (ref.columns.filter fun c => !t.columns.contains c) with
    | [] => (.ok (), ⟨0, t.rows⟩)
    | missing => (.error (.eval (.lacksColumns ref.name missing) (some 0)), s)
  next s :=
    match s.rest with
    | [] => (.ok none, s)
    | r :: rest =>
        match r.project ref.columns with
        | .ok r => (.ok (some r), ⟨s.read + 1, rest⟩)
        | .error name =>
            (.error (.eval (.rowLacksColumn s.read ref.name name) (some 0)), ⟨s.read + 1, rest⟩)
  closed _ := ⟨0, t.rows⟩
  left s := s.rest.length
  left_next s := by
    cases h : s.rest with
    | nil => simp
    | cons r rest => cases h' : r.project ref.columns <;> simp [h']

/-- Every row of a cursor turned into another. -/
def mapRows (c : Cursor) (f : Row → Result Row) : Cursor where
  State := c.State
  start := c.start
  opened := c.opened
  next s :=
    match c.next s with
    | (.error e, s') => (.error e, s')
    | (.ok none, s') => (.ok none, s')
    | (.ok (some r), s') => ((f r).map some, s')
  closed := c.closed
  left := c.left
  left_next s := by
    have := c.left_next s
    rcases h : c.next s with ⟨_ | _ | r, s'⟩ <;> simp_all

/-- The next row that is kept. -/
def seek (c : Cursor) (keep : Row → Result Bool) (s : c.State) : Result (Option Row) × c.State :=
  match _h : c.next s with
  | (.error e, s') => (.error e, s')
  | (.ok none, s') => (.ok none, s')
  | (.ok (some r), s') =>
      match keep r with
      | .error e => (.error e, s')
      | .ok true => (.ok (some r), s')
      | .ok false => c.seek keep s'
termination_by c.left s
decreasing_by
  have := c.left_next s
  simp_all

theorem left_seek (c : Cursor) (keep : Row → Result Bool) (s : c.State) :
    (c.seek keep s).1 ≠ .ok none → c.left (c.seek keep s).2 < c.left s := by
  fun_induction seek c keep s with
  | case1 s e s' h => have := c.left_next s; simp_all
  | case2 s s' h => simp
  | case3 s r s' h e hk => have := c.left_next s; simp_all
  | case4 s r s' h hk => have := c.left_next s; simp_all
  | case5 s r s' h hk ih =>
    intro hn
    have := c.left_next s
    rw [h] at this
    exact Nat.lt_trans (ih hn) (this (by simp))

/-- The rows of a cursor that are kept. -/
def filterRows (c : Cursor) (keep : Row → Result Bool) : Cursor where
  State := c.State
  start := c.start
  opened := c.opened
  next := c.seek keep
  closed := c.closed
  left := c.left
  left_next := c.left_seek keep

/-- Rows computed from all rows of a cursor at once, when it is opened. -/
def whole (c : Cursor) (f : List Row → Result (List Row)) : Cursor where
  State := c.State × List Row
  start := (c.start, [])
  opened s :=
    match c.opened s.1 with
    | (.error e, s') => (.error e, (s', s.2))
    | (.ok (), s') =>
        match c.drain s' with
        | (.error e, s'') => (.error e, (s'', s.2))
        | (.ok rows, s'') =>
            match f rows with
            | .error e => (.error e, (s'', s.2))
            | .ok out => (.ok (), (s'', out))
  next s :=
    match s.2 with
    | [] => (.ok none, s)
    | r :: rest => (.ok (some r), (s.1, rest))
  closed s := (c.closed s.1, [])
  left s := s.2.length
  left_next s := by cases h : s.2 <;> simp

/-- Opens, drains and closes; a cursor that cannot be opened is not closed. -/
def iterate (c : Cursor) (s : c.State) : Result (List Row) × c.State :=
  match c.opened s with
  | (.error e, s') => (.error e, s')
  | (.ok (), s') =>
      let (rows, s'') := c.drain s'
      (rows, c.closed s'')

/-- Opens, takes one row and closes. -/
def first (c : Cursor) (s : c.State) : Result (Option Row) × c.State :=
  match c.opened s with
  | (.error e, s') => (.error e, s')
  | (.ok (), s') =>
      let (row, s'') := c.next s'
      (row, c.closed s'')

/-- All rows of a cursor that was not used before. -/
def toList (c : Cursor) : Result (List Row) := (c.iterate c.start).1

end Cursor

end Tabula
