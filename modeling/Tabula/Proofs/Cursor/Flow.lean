import Tabula.Cursor

/-!
The answers that a cursor gives from a state on, as a value: rows, and then the end or a failure.
Rows after a failure are never asked for, so the flow of a cursor over another one follows from the
flow below it, row by row where the cursor streams and in one piece where it does not. What happens
to the states in between does not show.
-/

namespace Tabula

inductive Flow
  | done
  | failed (e : Failure)
  | row (r : Row) (rest : Flow)

namespace Flow

/-- All rows, if the end is reached. -/
def toResult : Flow → Result (List Row)
  | done => .ok []
  | failed e => .error e
  | row r rest => rest.toResult.map (r :: ·)

def ofList : List Row → Flow
  | [] => done
  | r :: rest => row r (ofList rest)

def ofResult : Result (List Row) → Flow
  | .ok rows => ofList rows
  | .error e => failed e

/-- Every row turned into another, up to the first that cannot be. -/
def map (f : Row → Result Row) : Flow → Flow
  | done => done
  | failed e => failed e
  | row r rest =>
      match f r with
      | .ok r' => row r' (rest.map f)
      | .error e => failed e

/-- The rows that are kept, up to the first that cannot be decided. -/
def filter (keep : Row → Result Bool) : Flow → Flow
  | done => done
  | failed e => failed e
  | row r rest =>
      match keep r with
      | .ok true => row r (rest.filter keep)
      | .ok false => rest.filter keep
      | .error e => failed e

/-- Rows computed from all rows at once. -/
def whole (f : List Row → Result (List Row)) (w : Flow) : Flow := ofResult (w.toResult >>= f)

@[simp] theorem toResult_ofList (rows : List Row) : (ofList rows).toResult = .ok rows := by
  induction rows with
  | nil => rfl
  | cons r rest ih => simp [ofList, toResult, ih, Except.map]

@[simp] theorem toResult_ofResult (rows : Result (List Row)) : (ofResult rows).toResult = rows := by
  cases rows with
  | error e => rfl
  | ok rows => exact toResult_ofList rows

theorem toResult_row_eq_ok {r : Row} {rest : Flow} {out : List Row} :
    (row r rest).toResult = .ok out ↔ ∃ rows, rest.toResult = .ok rows ∧ out = r :: rows := by
  simp only [toResult]
  cases rest.toResult with
  | error e => simp [Except.map]
  | ok rows => simp [Except.map, eq_comm]

end Flow

namespace Cursor

/-- The answers of a cursor from a state on. -/
def flow (c : Cursor) (s : c.State) : Flow :=
  match _h : c.next s with
  | (.error e, _) => .failed e
  | (.ok none, _) => .done
  | (.ok (some r), s') => .row r (c.flow s')
termination_by c.left s
decreasing_by
  have := c.left_next s
  simp_all

/-- The answers of a cursor that is opened in a state. -/
def openFlow (c : Cursor) (s : c.State) : Flow :=
  match c.opened s with
  | (.error e, _) => .failed e
  | (.ok (), s') => c.flow s'

theorem flow_of_failed {c : Cursor} {s s' : c.State} {e : Failure}
    (h : c.next s = (.error e, s')) : c.flow s = .failed e := by
  unfold flow
  split <;> simp_all

theorem flow_of_end {c : Cursor} {s s' : c.State} (h : c.next s = (.ok none, s')) :
    c.flow s = .done := by
  unfold flow
  split <;> simp_all

theorem flow_of_row {c : Cursor} {s s' : c.State} {r : Row}
    (h : c.next s = (.ok (some r), s')) : c.flow s = .row r (c.flow s') := by
  rw [flow]
  split <;> simp_all

/-- A flow depends on a state only through the next answer. -/
theorem flow_congr {c : Cursor} {s s' : c.State} (h : c.next s = c.next s') :
    c.flow s = c.flow s' := by
  rcases hn : c.next s' with ⟨_ | _ | r, s''⟩ <;> rw [hn] at h
  · rw [flow_of_failed h, flow_of_failed hn]
  · rw [flow_of_end h, flow_of_end hn]
  · rw [flow_of_row h, flow_of_row hn]

theorem openFlow_of_failed {c : Cursor} {s s' : c.State} {e : Failure}
    (h : c.opened s = (.error e, s')) : c.openFlow s = .failed e := by
  simp [openFlow, h]

theorem openFlow_of_ok {c : Cursor} {s s' : c.State} (h : c.opened s = (.ok (), s')) :
    c.openFlow s = c.flow s' := by
  simp [openFlow, h]

theorem fst_drain (c : Cursor) (s : c.State) : (c.drain s).1 = (c.flow s).toResult := by
  fun_induction drain c s with
  | case1 s e s' h => rw [flow_of_failed h]; rfl
  | case2 s s' h => rw [flow_of_end h]; rfl
  | case3 s r s' h rows s'' hd ih =>
      rw [hd] at ih
      rw [flow_of_row h, Flow.toResult, ← ih]

theorem fst_iterate (c : Cursor) (s : c.State) :
    (c.iterate s).1 = (c.openFlow s).toResult := by
  rcases h : c.opened s with ⟨_ | _, s'⟩
  · rw [openFlow_of_failed h, iterate, h]; rfl
  · rw [openFlow_of_ok h, iterate, h]
    exact c.fst_drain s'

theorem toList_eq (c : Cursor) : c.toList = (c.openFlow c.start).toResult := c.fst_iterate c.start

theorem flow_mapRows (c : Cursor) (f : Row → Result Row) (s : c.State) :
    (c.mapRows f).flow s = (c.flow s).map f := by
  fun_induction flow c s with
  | case1 s e s' h =>
      have hnext : (c.mapRows f).next s = (.error e, s') := by simp [mapRows, h]
      rw [flow_of_failed hnext, Flow.map]
  | case2 s s' h =>
      have hnext : (c.mapRows f).next s = (.ok none, s') := by simp [mapRows, h]
      rw [flow_of_end hnext, Flow.map]
  | case3 s r s' h ih =>
      have hnext : (c.mapRows f).next s = ((f r).map some, s') := by simp [mapRows, h]
      cases hf : f r with
      | error e =>
          rw [hf] at hnext
          rw [Flow.map, hf]
          exact flow_of_failed hnext
      | ok r' =>
          rw [hf] at hnext
          rw [Flow.map, hf, flow_of_row hnext, ih]

theorem openFlow_mapRows (c : Cursor) (f : Row → Result Row) (s : c.State) :
    (c.mapRows f).openFlow s = (c.openFlow s).map f := by
  have hopened : (c.mapRows f).opened s = c.opened s := rfl
  rcases h : c.opened s with ⟨_ | _, s'⟩ <;> rw [h] at hopened
  · rw [openFlow_of_failed h, openFlow_of_failed hopened, Flow.map]
  · rw [openFlow_of_ok h, openFlow_of_ok hopened, flow_mapRows]

/-- Looking for a row that is kept asks for one row and perhaps looks on from there. -/
theorem seek_of_row {c : Cursor} (keep : Row → Result Bool) {s s' : c.State} {r : Row}
    (h : c.next s = (.ok (some r), s')) :
    c.seek keep s =
      match keep r with
      | .error e => (.error e, s')
      | .ok true => (.ok (some r), s')
      | .ok false => c.seek keep s' := by
  rw [seek]
  split
  · simp_all
  · simp_all
  · rename_i hn
    rw [h] at hn
    cases hn
    rfl

theorem flow_filterRows (c : Cursor) (keep : Row → Result Bool) (s : c.State) :
    (c.filterRows keep).flow s = (c.flow s).filter keep := by
  fun_induction flow c s with
  | case1 s e s' h =>
      have hnext : (c.filterRows keep).next s = (.error e, s') := by
        change c.seek keep s = _
        rw [seek]
        split <;> simp_all
      rw [flow_of_failed hnext, Flow.filter]
  | case2 s s' h =>
      have hnext : (c.filterRows keep).next s = (.ok none, s') := by
        change c.seek keep s = _
        rw [seek]
        split <;> simp_all
      rw [flow_of_end hnext, Flow.filter]
  | case3 s r s' h ih =>
      have hnext := seek_of_row keep h
      rcases hk : keep r with e | _ | _ <;> rw [hk] at hnext <;> simp only [Flow.filter, hk]
      · exact flow_of_failed (c := c.filterRows keep) hnext
      · -- a row that is dropped does not show: the answer is that of the state after it
        rw [← ih]
        exact flow_congr (c := c.filterRows keep) hnext
      · rw [← ih]
        exact flow_of_row (c := c.filterRows keep) hnext

theorem openFlow_filterRows (c : Cursor) (keep : Row → Result Bool) (s : c.State) :
    (c.filterRows keep).openFlow s = (c.openFlow s).filter keep := by
  have hopened : (c.filterRows keep).opened s = c.opened s := rfl
  rcases h : c.opened s with ⟨_ | _, s'⟩ <;> rw [h] at hopened
  · rw [openFlow_of_failed h, openFlow_of_failed hopened, Flow.filter]
  · rw [openFlow_of_ok h, openFlow_of_ok hopened, flow_filterRows]

theorem flow_whole (c : Cursor) (f : List Row → Result (List Row)) (s : c.State)
    (rows : List Row) : (c.whole f).flow (s, rows) = Flow.ofList rows := by
  induction rows with
  | nil => exact flow_of_end rfl
  | cons r rest ih =>
      rw [Flow.ofList, ← ih]
      exact flow_of_row rfl

/-- A cursor that reads all rows when it is opened fails then or never. -/
theorem openFlow_whole (c : Cursor) (f : List Row → Result (List Row)) (s : c.State)
    (rows : List Row) : (c.whole f).openFlow (s, rows) = (c.openFlow s).whole f := by
  rcases hopen : c.opened s with ⟨e | _, s'⟩
  · have hopened : (c.whole f).opened (s, rows) = (.error e, (s', rows)) := by
      simp [whole, hopen]
    rw [openFlow_of_failed hopen, openFlow_of_failed hopened]
    rfl
  · have hdrain := c.fst_drain s'
    rw [openFlow_of_ok hopen, Flow.whole, ← hdrain]
    rcases hd : c.drain s' with ⟨e | all, s''⟩
    · have hopened : (c.whole f).opened (s, rows) = (.error e, (s'', rows)) := by
        simp [whole, hopen, hd]
      exact openFlow_of_failed hopened
    · simp only [bind, Except.bind]
      cases hf : f all with
      | error e =>
          have hopened : (c.whole f).opened (s, rows) = (.error e, (s'', rows)) := by
            simp [whole, hopen, hd, hf]
          exact openFlow_of_failed hopened
      | ok out =>
          have hopened : (c.whole f).opened (s, rows) = (.ok (), (s'', out)) := by
            simp [whole, hopen, hd, hf]
          rw [openFlow_of_ok hopened, flow_whole, Flow.ofResult]

/-- The rows from number `read` on, cut to the declared columns. -/
def scanFlow (ref : TableRef) (read : Nat) : List Row → Flow
  | [] => .done
  | r :: rest =>
      match r.project ref.columns with
      | .ok r => .row r (scanFlow ref (read + 1) rest)
      | .error name => .failed (.eval (.rowLacksColumn read ref.name name) (some 0))

theorem flow_scan (t : Table) (ref : TableRef) (read : Nat) (rows : List Row) :
    (Cursor.scan t ref).flow ⟨read, rows⟩ = scanFlow ref read rows := by
  induction rows generalizing read with
  | nil => exact flow_of_end rfl
  | cons r rest ih =>
      cases h : r.project ref.columns with
      | error name =>
          have hnext : (scan t ref).next ⟨read, r :: rest⟩ =
              (.error (.eval (.rowLacksColumn read ref.name name) (some 0)), ⟨read + 1, rest⟩) := by
            simp [scan, h]
          rw [flow_of_failed hnext, scanFlow, h]
      | ok cut =>
          have hnext : (scan t ref).next ⟨read, r :: rest⟩ =
              (.ok (some cut), ⟨read + 1, rest⟩) := by
            simp [scan, h]
          rw [flow_of_row hnext, scanFlow, h, ih]

end Cursor

end Tabula
