import Tabula.Plan.Evaluate
import Tabula.Proofs.Cursor.Flow
import Tabula.Proofs.Result

/-!
Running a plan row by row and evaluating it operator by operator. A run is a chain of cursors, and
its answers are found from the table upwards, one flow from the other. Both ways of computing stop
at the first failure they meet, which need not be the same one, but they agree on every success.
-/

namespace Tabula

/-- The answers after a step, given those before it. -/
def Flow.step (order : RowOrder) (w : Flow) (s : PlanStep) : Flow :=
  match s.operator with
  | .extend name value none => w.map (·.extend name value s.position)
  | .extend _ _ (some _) => w.whole fun rows => do (← s.ranked).rows order rows
  | .selectRows condition => w.filter (·.satisfies condition s.position)
  | .orderBy terms => w.whole fun rows => (sortRows terms rows).mapError (·.at (some s.position))
  | .selectColumns _ | .dropColumns _ => w.map (·.cut s.output)
  | .materialize .. => w

/-- The answers of a scan. -/
def TableRef.flow (ref : TableRef) (t : Table) : Flow :=
  match sortedNames (ref.columns.filter fun c => !t.columns.contains c) with
  | [] => Cursor.scanFlow ref 0 t.rows
  | missing => .failed (.eval (.lacksColumns ref.name missing) (some 0))

/-- The answers of a plan. -/
def Plan.flow (p : Plan) (t : Table) (order : RowOrder) : Flow :=
  p.steps.foldl (Flow.step order) (p.table.flow t)

namespace Cursor

/-- The answers of a cursor that was not used before. -/
def firstFlow (c : Cursor) : Flow := c.openFlow c.start

theorem opened_scan (t : Table) (ref : TableRef) (s : (scan t ref).State) :
    (scan t ref).opened s =
      match sortedNames (ref.columns.filter fun c => !t.columns.contains c) with
      | [] => (.ok (), ⟨0, t.rows⟩)
      | missing => (.error (.eval (.lacksColumns ref.name missing) (some 0)), s) := rfl

/-- A scan answers the same in whatever state it is opened. -/
theorem openFlow_scan (t : Table) (ref : TableRef) (s : (scan t ref).State) :
    (scan t ref).openFlow s = ref.flow t := by
  have hopened := opened_scan t ref s
  rw [TableRef.flow]
  cases h : sortedNames (ref.columns.filter fun c => !t.columns.contains c) with
  | nil =>
      rw [h] at hopened
      rw [openFlow_of_ok hopened, flow_scan]
  | cons name rest =>
      rw [h] at hopened
      exact openFlow_of_failed hopened

theorem firstFlow_scan (t : Table) (ref : TableRef) : (scan t ref).firstFlow = ref.flow t :=
  openFlow_scan t ref _

theorem firstFlow_step (order : RowOrder) (c : Cursor) (s : PlanStep) :
    (c.step order s).firstFlow = c.firstFlow.step order s := by
  obtain ⟨position, o, input, output⟩ := s
  rcases o with ⟨name, value, _ | w⟩ | condition | terms | columns | columns | _
  · exact c.openFlow_mapRows _ c.start
  · exact c.openFlow_whole _ c.start []
  · exact c.openFlow_filterRows _ c.start
  · exact c.openFlow_whole _ c.start []
  · exact c.openFlow_mapRows _ c.start
  · exact c.openFlow_mapRows _ c.start
  · rfl

theorem firstFlow_foldl_step (order : RowOrder) (steps : List PlanStep) (c : Cursor) :
    (steps.foldl (Cursor.step order) c).firstFlow =
      steps.foldl (Flow.step order) c.firstFlow := by
  induction steps generalizing c with
  | nil => rfl
  | cons s rest ih => rw [List.foldl_cons, ih, firstFlow_step, List.foldl_cons]

end Cursor

theorem Plan.firstFlow_cursor (p : Plan) (t : Table) (order : RowOrder) :
    (p.cursor t order).firstFlow = p.flow t order := by
  rw [Plan.cursor, Cursor.firstFlow_foldl_step, Cursor.firstFlow_scan, Plan.flow]

/-- A run gives the table of all answers, or the failure that ends them. -/
theorem Plan.run_eq_flow (p : Plan) (source : Source) (order : RowOrder) :
    p.run source order =
      (p.flow (source.toTable p.table.columns) order).toResult.map (⟨p.columns, ·⟩) := by
  rw [Plan.run, Cursor.toList_eq, ← Plan.firstFlow_cursor, Cursor.firstFlow]
  cases (p.cursor (source.toTable p.table.columns) order).openFlow _ |>.toResult <;> rfl

/-! Success of the two ways of computing. -/

theorem keepRows_cons_eq_ok {keep : Row → Result Bool} {r : Row} {rest out : List Row} :
    keepRows keep (r :: rest) = .ok out ↔
      ∃ kept others, keep r = .ok kept ∧ keepRows keep rest = .ok others ∧
        out = if kept then r :: others else others := by
  rw [keepRows]
  cases keep r with
  | error e => simp [bind, Except.bind]
  | ok kept =>
      cases keepRows keep rest with
      | error e => simp [bind, Except.bind]
      | ok others => simp [bind, Except.bind, pure, Except.pure, eq_comm]

namespace Flow

theorem toResult_map_eq_ok {f : Row → Result Row} {w : Flow} {out : List Row} :
    (w.map f).toResult = .ok out ↔ ∃ rows, w.toResult = .ok rows ∧ rows.mapM f = .ok out := by
  induction w generalizing out with
  | done => simp [map, toResult, pure, Except.pure]
  | failed e => simp [map, toResult]
  | row r rest ih =>
      simp only [map, toResult_row_eq_ok]
      cases hf : f r with
      | error e =>
          -- the map ends here, whatever the rest of the rows would give
          simp only [toResult]
          constructor
          · intro h
            cases h
          · rintro ⟨rows, ⟨others, _, rfl⟩, h⟩
            obtain ⟨b, bs, hb, _⟩ := mapM_cons_eq_ok.1 h
            rw [hf] at hb
            cases hb
      | ok r' =>
          simp only [toResult_row_eq_ok, ih]
          constructor
          · rintro ⟨rows, ⟨others, hothers, hmap⟩, rfl⟩
            exact ⟨r :: others, ⟨others, hothers, rfl⟩, mapM_cons_eq_ok.2 ⟨r', rows, hf, hmap, rfl⟩⟩
          · rintro ⟨rows, ⟨others, hothers, rfl⟩, h⟩
            obtain ⟨b, bs, hb, hbs, rfl⟩ := mapM_cons_eq_ok.1 h
            rw [hf] at hb
            cases hb
            exact ⟨bs, ⟨others, hothers, hbs⟩, rfl⟩

theorem toResult_filter_eq_ok {keep : Row → Result Bool} {w : Flow} {out : List Row} :
    (w.filter keep).toResult = .ok out ↔
      ∃ rows, w.toResult = .ok rows ∧ keepRows keep rows = .ok out := by
  induction w generalizing out with
  | done => simp [filter, toResult, keepRows]
  | failed e => simp [filter, toResult]
  | row r rest ih =>
      have hsplit : (∃ rows, (row r rest).toResult = .ok rows ∧ keepRows keep rows = .ok out) ↔
          ∃ kept others, keep r = .ok kept ∧ (rest.filter keep).toResult = .ok others ∧
            out = if kept then r :: others else others := by
        simp only [toResult_row_eq_ok]
        constructor
        · rintro ⟨rows, ⟨rows', hrows', rfl⟩, h⟩
          obtain ⟨kept, others, hk, hothers, rfl⟩ := keepRows_cons_eq_ok.1 h
          exact ⟨kept, others, hk, ih.2 ⟨rows', hrows', hothers⟩, rfl⟩
        · rintro ⟨kept, others, hk, hothers, rfl⟩
          obtain ⟨rows', hrows', hkeep⟩ := ih.1 hothers
          exact ⟨r :: rows', ⟨rows', hrows', rfl⟩,
            keepRows_cons_eq_ok.2 ⟨kept, others, hk, hkeep, rfl⟩⟩
      rw [hsplit, filter]
      rcases hk : keep r with e | _ | _
      · simp [toResult]
      · simp [eq_comm]
      · simp [toResult_row_eq_ok]

theorem toResult_whole_eq_ok {f : List Row → Result (List Row)} {w : Flow} {out : List Row} :
    (w.whole f).toResult = .ok out ↔ ∃ rows, w.toResult = .ok rows ∧ f rows = .ok out := by
  rw [whole, toResult_ofResult]
  cases w.toResult <;> simp [bind, Except.bind]

theorem toResult_step_eq_ok {order : RowOrder} {w : Flow} {s : PlanStep} {out : List Row} :
    (w.step order s).toResult = .ok out ↔
      ∃ rows, w.toResult = .ok rows ∧ s.rows order rows = .ok out := by
  obtain ⟨position, o, input, output⟩ := s
  rcases o with ⟨name, value, _ | w⟩ | condition | terms | columns | columns | _
  · exact toResult_map_eq_ok
  · exact toResult_whole_eq_ok
  · exact toResult_filter_eq_ok
  · exact toResult_whole_eq_ok
  · exact toResult_map_eq_ok
  · exact toResult_map_eq_ok
  · simp [step, PlanStep.rows]

theorem toResult_steps_eq_ok {order : RowOrder} {steps : List PlanStep} {w : Flow}
    {out : List Row} :
    (steps.foldl (step order) w).toResult = .ok out ↔
      ∃ rows, w.toResult = .ok rows ∧
        steps.foldlM (fun rows s => s.rows order rows) rows = .ok out := by
  induction steps generalizing w with
  | nil => simp [pure, Except.pure]
  | cons s rest ih =>
      rw [List.foldl_cons, ih]
      simp only [toResult_step_eq_ok, List.foldlM_cons]
      constructor
      · rintro ⟨after, ⟨rows, hrows, hs⟩, hrest⟩
        exact ⟨rows, hrows, by rw [hs]; exact hrest⟩
      · rintro ⟨rows, hrows, h⟩
        cases hs : s.rows order rows with
        | error e => rw [hs] at h; cases h
        | ok after =>
            rw [hs] at h
            exact ⟨after, ⟨rows, hrows, hs⟩, h⟩

end Flow

/-- A scan reads the rows in their order and stops at the first that lacks a column. -/
theorem TableRef.toResult_flow (ref : TableRef) (t : Table) :
    (ref.flow t).toResult = ref.rows t := by
  suffices ∀ (rows : List Row) (read : Nat), (Cursor.scanFlow ref read rows).toResult =
      (rows.zipIdx read).mapM fun m => (m.1.project ref.columns).mapError fun name =>
        .eval (.rowLacksColumn m.2 ref.name name) (some 0) by
    rw [TableRef.flow, TableRef.rows]
    cases sortedNames (ref.columns.filter fun c => !t.columns.contains c) with
    | nil => exact this t.rows 0
    | cons name rest => rfl
  intro rows
  induction rows with
  | nil => intro read; rfl
  | cons r rest ih =>
      intro read
      rw [Cursor.scanFlow, List.zipIdx_cons, List.mapM_cons]
      dsimp only
      cases r.project ref.columns with
      | error name => rfl
      | ok cut =>
          simp only [Flow.toResult, ih]
          cases List.mapM (m := Result) _ (rest.zipIdx (read + 1)) <;> rfl

theorem Plan.toResult_flow_eq_ok {p : Plan} {t : Table} {order : RowOrder} {out : List Row} :
    (p.flow t order).toResult = .ok out ↔ p.rows t order = .ok out := by
  rw [Plan.flow, Flow.toResult_steps_eq_ok, TableRef.toResult_flow, Plan.rows]
  cases p.table.rows t <;> simp [bind, Except.bind]

theorem Plan.run_of_rows {p : Plan} {source : Source} {order : RowOrder} {rows : List Row}
    (h : p.rows (source.toTable p.table.columns) order = .ok rows) :
    p.run source order = .ok ⟨p.columns, rows⟩ := by
  rw [Plan.run_eq_flow, Plan.toResult_flow_eq_ok.2 h]
  rfl

theorem Plan.exists_rows_of_run {p : Plan} {source : Source} {order : RowOrder} {out : Table}
    (h : p.run source order = .ok out) :
    ∃ rows, p.rows (source.toTable p.table.columns) order = .ok rows ∧ out = ⟨p.columns, rows⟩ := by
  rw [Plan.run_eq_flow] at h
  cases hrows : (p.flow (source.toTable p.table.columns) order).toResult with
  | error e =>
      rw [hrows] at h
      cases h
  | ok rows =>
      rw [hrows] at h
      cases h
      exact ⟨rows, Plan.toResult_flow_eq_ok.1 hrows, rfl⟩

/-- A run over any source succeeds exactly when the evaluation of the plan over whole lists of rows
does, and its rows are the rows of that evaluation in their order. -/
theorem Plan.run_eq_ok_iff (p : Plan) (source : Source) (order : RowOrder) (out : Table) :
    p.run source order = .ok out ↔
      out.columns = p.columns ∧
        p.rows (source.toTable p.table.columns) order = .ok out.rows := by
  rw [Plan.run_eq_flow, ← Plan.toResult_flow_eq_ok]
  obtain ⟨columns, rows⟩ := out
  cases (p.flow (source.toTable p.table.columns) order).toResult with
  | error e => simp [Except.map]
  | ok all => simp [Except.map, eq_comm]

end Tabula
