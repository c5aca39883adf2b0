import Tabula.Proofs.Plan.Safety

/-!
Opening a cursor again. Whatever was asked of a cursor before, opening it starts its answers anew: a
scan goes back to its first row, and a cursor that reads all rows at once reads them again. So the
answers after an opening, up to the first failure, do not depend on what came before it, and the
end, once it is reached, is never left.
-/

namespace Tabula

/-! ### Histories and answers -/

inductive CursorCall
  | opening
  | next
  | closing
  deriving DecidableEq, Repr

namespace Cursor

variable {c : Cursor}

/-- The state after a call, whatever its answer is. -/
def after (c : Cursor) (s : c.State) : CursorCall → c.State
  | .opening => (c.opened s).2
  | .next => (c.next s).2
  | .closing => c.closed s

/-- The state after calls on a cursor that was not used before. -/
def stateAfter (c : Cursor) (history : List CursorCall) : c.State := history.foldl c.after c.start

/-- The first answers from a state on, the calls going on after a failure and after the end. -/
def answers (c : Cursor) : Nat → c.State → List (Result (Option Row))
  | 0, _ => []
  | n + 1, s => (c.next s).1 :: c.answers n (c.next s).2

end Cursor

/-- Answers up to the first failure, which is kept. -/
def untilFailure {α : Type} : List (Result α) → List (Result α)
  | [] => []
  | .ok a :: rest => .ok a :: untilFailure rest
  | .error e :: _ => [.error e]

theorem untilFailure_eq_self {α : Type} {as : List (Result α)}
    (h : ∀ e, .error e ∉ untilFailure as) : untilFailure as = as := by
  induction as with
  | nil => rfl
  | cons a rest ih =>
      cases a with
      | error e => exact absurd List.mem_cons_self (h e)
      | ok a =>
          refine congrArg (List.cons (Except.ok a)) (ih fun e he => h e ?_)
          exact List.mem_cons_of_mem _ he

namespace Flow

/-- The first answers of a flow, with nothing after a failure. -/
def answers : Nat → Flow → List (Result (Option Row))
  | 0, _ => []
  | n + 1, done => .ok none :: answers n done
  | _ + 1, failed e => [.error e]
  | n + 1, row r rest => .ok (some r) :: answers n rest

/-- A flow that ends without a failure is the list of its rows. -/
theorem eq_ofList_of_toResult {w : Flow} {rows : List Row} (h : w.toResult = .ok rows) :
    w = ofList rows := by
  induction w generalizing rows with
  | done =>
      cases h
      rfl
  | failed e => cases h
  | row r rest ih =>
      obtain ⟨others, hothers, rfl⟩ := toResult_row_eq_ok.1 h
      rw [ih hothers, ofList]

/-- The answers of a list of rows are its rows, and the end from then on. -/
theorem answers_ofList (n : Nat) (rows : List Row) :
    (ofList rows).answers n = (List.range n).map fun i => .ok rows[i]? := by
  induction n generalizing rows with
  | zero => rfl
  | succ n ih =>
      rw [List.range_succ_eq_map, List.map_cons, List.map_map]
      cases rows with
      | nil =>
          refine congrArg (List.cons _) ((ih []).trans ?_)
          simp [Function.comp_def]
      | cons r rest =>
          refine congrArg (List.cons _) ((ih rest).trans ?_)
          simp [Function.comp_def]

end Flow

/-! ### Cursors that start anew -/

/-- Opening the cursor gives the same answers in every state, and the end is never left. -/
structure Cursor.Reopens (c : Cursor) : Prop where
  opened : ∀ s, (c.opened s).1 = (c.opened c.start).1
  flow : ∀ s, c.openFlow s = c.openFlow c.start
  ended : ∀ s, (c.next s).1 = .ok none → (c.next (c.next s).2).1 = .ok none

namespace Cursor

variable {c : Cursor}

theorem fst_opened_scan (t : Table) (ref : TableRef) (s : (scan t ref).State) :
    ((scan t ref).opened s).1 =
      match sortedNames (ref.columns.filter fun c => !t.columns.contains c) with
      | [] => .ok ()
      | missing => .error (.eval (.lacksColumns ref.name missing) (some 0)) := by
  rw [opened_scan]
  cases sortedNames (ref.columns.filter fun c => !t.columns.contains c) <;> rfl

/-- Opening a cursor that reads all rows at once fails if the cursor below cannot be opened, if one
of its rows fails, or if nothing can be made of the rows. -/
theorem fst_opened_whole (c : Cursor) (f : List Row → Result (List Row)) (s : c.State)
    (rows : List Row) :
    ((c.whole f).opened (s, rows)).1 =
      (do (c.opened s).1; let all ← (c.openFlow s).toResult; let _ ← f all) := by
  rcases hopen : c.opened s with ⟨e | _, s'⟩
  · simp [whole, hopen, bind, Except.bind]
  · have hdrain := c.fst_drain s'
    rw [openFlow_of_ok hopen, ← hdrain]
    rcases hd : c.drain s' with ⟨e | all, s''⟩
    · simp [whole, hopen, hd, bind, Except.bind]
    · cases hf : f all <;> simp [whole, hopen, hd, hf, bind, Except.bind, pure, Except.pure]

theorem seek_of_end {c : Cursor} (keep : Row → Result Bool) {s : c.State}
    (h : (c.next s).1 = .ok none) : (c.seek keep s).1 = .ok none := by
  rw [seek]
  split <;> simp_all

theorem reopens_scan (t : Table) (ref : TableRef) : (scan t ref).Reopens where
  opened s := (fst_opened_scan t ref s).trans (fst_opened_scan t ref _).symm
  flow s := (openFlow_scan t ref s).trans (openFlow_scan t ref _).symm
  ended s h := by
    obtain ⟨read, rest⟩ := s
    cases rest with
    | nil => rfl
    | cons r rest =>
        simp only [scan] at h
        split at h <;> cases h

theorem Reopens.mapRows (h : c.Reopens) (f : Row → Result Row) : (c.mapRows f).Reopens where
  opened := h.opened
  flow s := by
    refine (c.openFlow_mapRows f s).trans ?_
    rw [h.flow s]
    exact (c.openFlow_mapRows f c.start).symm
  ended s hs := by
    have hended := h.ended s
    rcases hn : c.next s with ⟨_ | _ | r, s'⟩
    · simp [Cursor.mapRows, hn] at hs
    · rw [hn] at hended
      have hmapped : (c.mapRows f).next s = (.ok none, s') := by simp [Cursor.mapRows, hn]
      rw [hmapped]
      rcases hn' : c.next s' with ⟨_ | _ | r, s''⟩ <;> simp_all [Cursor.mapRows]
    · cases hf : f r <;> simp [Cursor.mapRows, hn, hf, Except.map] at hs

/-- Where a search finds nothing, it has come to the end of what it searches. -/
theorem Reopens.seek (h : c.Reopens) (keep : Row → Result Bool) (s : c.State)
    (hs : (c.seek keep s).1 = .ok none) : (c.next (c.seek keep s).2).1 = .ok none := by
  fun_induction Cursor.seek c keep s with
  | case1 s e s' hn => cases hs
  | case2 s s' hn =>
      have hended := h.ended s
      rw [hn] at hended
      exact hended rfl
  | case3 s r s' hn e hk => cases hs
  | case4 s r s' hn hk => cases hs
  | case5 s r s' hn hk ih => exact ih hs

theorem Reopens.filterRows (h : c.Reopens) (keep : Row → Result Bool) :
    (c.filterRows keep).Reopens where
  opened := h.opened
  flow s := by
    refine (c.openFlow_filterRows keep s).trans ?_
    rw [h.flow s]
    exact (c.openFlow_filterRows keep c.start).symm
  ended s hs := seek_of_end keep (h.seek keep s hs)

theorem Reopens.whole (h : c.Reopens) (f : List Row → Result (List Row)) :
    (c.whole f).Reopens where
  opened s := by
    obtain ⟨s, rows⟩ := s
    rw [fst_opened_whole, h.opened s, h.flow s]
    exact (c.fst_opened_whole f c.start []).symm
  flow s := by
    obtain ⟨s, rows⟩ := s
    rw [openFlow_whole, h.flow s]
    exact (c.openFlow_whole f c.start []).symm
  ended s hs := by
    obtain ⟨s, rows⟩ := s
    cases rows with
    | nil => rfl
    | cons r rest => cases hs

theorem Reopens.step (h : c.Reopens) (order : RowOrder) (s : PlanStep) :
    (c.step order s).Reopens := by
  obtain ⟨position, o, input, output⟩ := s
  rcases o with ⟨name, value, _ | w⟩ | condition | terms | columns | columns | _
  · exact h.mapRows _
  · exact h.whole _
  · exact h.filterRows _
  · exact h.whole _
  · exact h.mapRows _
  · exact h.mapRows _
  · exact h

theorem Reopens.steps (h : c.Reopens) (order : RowOrder) (steps : List PlanStep) :
    (steps.foldl (Cursor.step order) c).Reopens := by
  induction steps generalizing c with
  | nil => exact h
  | cons s rest ih => exact ih (h.step order s)

theorem reopens_cursor (p : Plan) (t : Table) (order : RowOrder) : (p.cursor t order).Reopens :=
  (reopens_scan t p.table).steps order p.steps

/-- What follows an opening that succeeds does not depend on the state before it. -/
theorem Reopens.flow_opened (h : c.Reopens) {s : c.State} (hs : (c.opened s).1 = .ok ()) :
    c.flow (c.opened s).2 = c.openFlow c.start := by
  have hopen : c.opened s = (.ok (), (c.opened s).2) := Prod.ext hs rfl
  rw [← h.flow s, openFlow_of_ok hopen]

/-- Up to the first failure, the answers from a state on are those of its flow. -/
theorem Reopens.untilFailure_answers (h : c.Reopens) (n : Nat) (s : c.State) :
    untilFailure (c.answers n s) = (c.flow s).answers n := by
  induction n generalizing s with
  | zero => rfl
  | succ n ih =>
      have hended := h.ended s
      rcases hn : c.next s with ⟨e | _ | r, s'⟩
      · rw [flow_of_failed hn, answers, hn]
        rfl
      · -- after the end comes the end again
        rw [hn] at hended
        have hflow : c.flow s' = .done := flow_of_end (Prod.ext (hended rfl) rfl)
        rw [flow_of_end hn, answers, hn, untilFailure, ih s', hflow]
        rfl
      · rw [flow_of_row hn, answers, hn, untilFailure, ih s']
        rfl

end Cursor

/-- Where the run of a plan succeeds, the answers of its cursor are the rows and then the end. -/
theorem Plan.openFlow_cursor_of_run {p : Plan} {t : Table} {order : RowOrder} {out : Table}
    (h : p.run (.table t) order = .ok out) :
    (p.cursor t order).openFlow (p.cursor t order).start = .ofList out.rows := by
  obtain ⟨rows, hrows, rfl⟩ := Plan.exists_rows_of_run h
  refine (p.firstFlow_cursor t order).trans (Flow.eq_ofList_of_toResult ?_)
  exact Plan.toResult_flow_eq_ok.2 hrows

/-- Where the run of a plan succeeds, its cursor can be opened in every state. -/
theorem Plan.opened_cursor_of_run {p : Plan} {t : Table} {order : RowOrder} {out : Table}
    (h : p.run (.table t) order = .ok out) (s : (p.cursor t order).State) :
    ((p.cursor t order).opened s).1 = .ok () := by
  have hflow := Plan.openFlow_cursor_of_run h
  rw [(Cursor.reopens_cursor p t order).opened s]
  rcases hopen : (p.cursor t order).opened (p.cursor t order).start with ⟨e | _, s'⟩
  · rw [Cursor.openFlow_of_failed hopen] at hflow
    cases hrows : out.rows <;> rw [hrows] at hflow <;> cases hflow
  · rfl

/-- A cursor of a plan can be opened again at any point. After any calls, if it can be opened then,
an unused one can be opened too, and the answers that follow are the same up to the first failure;
and where the run succeeds they are its rows, and the end from then on. -/
theorem Plan.answers_after_opening (p : Plan) (t : Table) (order : RowOrder)
    (history : List CursorCall)
    (hopened : ((p.cursor t order).opened ((p.cursor t order).stateAfter history)).1 = .ok ()) :
    let c := p.cursor t order
    let reopened := (c.opened (c.stateAfter history)).2
    (c.opened c.start).1 = .ok () ∧
      (∀ n, untilFailure (c.answers n reopened) =
        untilFailure (c.answers n (c.opened c.start).2)) ∧
      ∀ out, p.run (.table t) order = .ok out →
        ∀ n, c.answers n reopened = (List.range n).map fun i => .ok out.rows[i]? := by
  intro c reopened
  have hc : c.Reopens := Cursor.reopens_cursor p t order
  have hstart : (c.opened c.start).1 = .ok () := (hc.opened _).symm.trans hopened
  have hflow : c.flow reopened = c.openFlow c.start := hc.flow_opened hopened
  refine ⟨hstart, fun n => ?_, fun out hrun n => ?_⟩
  · rw [hc.untilFailure_answers, hc.untilFailure_answers, hflow, hc.flow_opened hstart]
  · have hanswers : untilFailure (c.answers n reopened) =
        (List.range n).map fun i => .ok out.rows[i]? := by
      rw [hc.untilFailure_answers, hflow, Plan.openFlow_cursor_of_run hrun, Flow.answers_ofList]
    -- none of these answers is a failure, so nothing was cut off
    rw [← hanswers, untilFailure_eq_self]
    rw [hanswers]
    simp

/-- A cursor over places that is left in the middle of its rows, and opened again. -/
theorem Plan.answers_after_opening_scores :
    ∃ out, placings.run (.table scoreTable) .input = .ok out ∧
      let c := placings.cursor scoreTable .input
      let reopened := (c.opened (c.stateAfter [.opening, .next, .next, .closing, .next])).2
      ∀ n, c.answers n reopened = (List.range n).map fun i => .ok out.rows[i]? := by
  obtain ⟨rows, hrows⟩ := exists_rows_placings
  have hrun : placings.run (.table scoreTable) .input = .ok ⟨placings.columns, rows⟩ :=
    Plan.run_of_rows hrows
  have hopened := Plan.opened_cursor_of_run hrun
    ((placings.cursor scoreTable .input).stateAfter [.opening, .next, .next, .closing, .next])
  exact ⟨_, hrun, (placings.answers_after_opening scoreTable .input _ hopened).2.2 _ hrun⟩

end Tabula
