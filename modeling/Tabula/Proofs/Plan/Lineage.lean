import Tabula.Plan.Lineage
import Tabula.Proofs.Plan.Safety
import Tabula.Proofs.Row.View

/-!
The columns that a result depends on. Rows that look alike through the columns needed before a step
give rows that look alike through the columns needed after it. So two tables that agree on the
columns a plan uses, row by row, and differ in any others have the same result.
-/

namespace Tabula

theorem LookAlike.keepRows {keep : Row → Result Bool} {wider : List String}
    {rows rows' : List Row} (h : LookAlike wider rows rows')
    (hkeep : ∀ r r', r.pick wider = r'.pick wider → keep r = keep r') {out out' : List Row}
    (hout : Tabula.keepRows keep rows = .ok out)
    (hout' : Tabula.keepRows keep rows' = .ok out') : LookAlike wider out out' := by
  induction rows generalizing rows' out out' with
  | nil =>
      cases List.map_eq_nil_iff.1 (Eq.symm h)
      cases hout
      cases hout'
      rfl
  | cons r rest ih =>
      obtain ⟨r', rest', rfl, hr, hrest⟩ := List.map_eq_cons_iff.1 (Eq.symm h)
      obtain ⟨kept, others, hk, hothers, rfl⟩ := keepRows_cons_eq_ok.1 hout
      obtain ⟨kept', others', hk', hothers', rfl⟩ := keepRows_cons_eq_ok.1 hout'
      rw [hkeep r r' hr.symm, hk'] at hk
      cases hk
      have halike := ih hrest.symm hothers hothers'
      cases kept with
      | false => exact halike
      | true => exact congrArg₂ List.cons hr.symm halike

section Extend

variable {needed columns : List String} {name : String} {position : Nat}

theorem PlanStep.needs_extend_of_mem (h : name ∈ needed) (value : Expr) (window : Option Window) :
    PlanStep.needs ⟨position, .extend name value window, columns,
      (Operator.extend name value window).output columns⟩ needed =
        needed.filter (· ≠ name) ++ (Operator.extend name value window).reads :=
  if_pos (List.contains_iff_mem.2 h)

theorem PlanStep.needs_extend_of_not_mem (h : name ∉ needed) (value : Expr)
    (window : Option Window) :
    PlanStep.needs ⟨position, .extend name value window, columns,
      (Operator.extend name value window).output columns⟩ needed = needed :=
  if_neg fun hcontains => h (List.contains_iff_mem.1 hcontains)

theorem Row.pick_set_of_not_mem (h : name ∉ needed) (r : Row) (v : Value) :
    (r.set name v).pick needed = r.pick needed :=
  pick_eq_iff.2 fun _ hc => get?_set_of_ne r v fun heq => h (heq ▸ hc)

/-- A column that is set is seen whatever the rows held in it. -/
theorem Row.pick_set_congr {r r' : Row} (h : ∀ c ∈ needed, c ≠ name → r.get? c = r'.get? c)
    (v : Value) : (r.set name v).pick needed = (r'.set name v).pick needed := by
  refine pick_eq_iff.2 fun c hc => ?_
  rw [get?_set, get?_set]
  split
  · rfl
  · rename_i hne
    exact h c hc hne

theorem Row.extend_eq_ok {r s : Row} {value : Expr} :
    r.extend name value position = .ok s ↔ ∃ v, value.eval r = .ok v ∧ s = r.set name v := by
  rw [Row.extend]
  cases value.eval r with
  | ok v => simp [eq_comm]
  | error fault => simp

variable {rows rows' out out' : List Row}

theorem LookAlike.extend {value : Expr}
    (h : LookAlike (PlanStep.needs ⟨position, .extend name value none, columns,
      (Operator.extend name value none).output columns⟩ needed) rows rows')
    (hout : rows.mapM (·.extend name value position) = .ok out)
    (hout' : rows'.mapM (·.extend name value position) = .ok out') : LookAlike needed out out' := by
  refine h.mapM (fun r r' s s' hr hs hs' => ?_) hout hout'
  obtain ⟨v, hv, rfl⟩ := Row.extend_eq_ok.1 hs
  obtain ⟨v', hv', rfl⟩ := Row.extend_eq_ok.1 hs'
  by_cases hname : name ∈ needed
  · rw [PlanStep.needs_extend_of_mem hname, Row.pick_eq_iff, List.forall_mem_append] at hr
    obtain ⟨hkept, hread⟩ := hr
    rw [Expr.eval_congr hread, hv'] at hv
    cases hv
    exact Row.pick_set_congr (fun c hc hne => hkept c (by simp [hc, hne])) v
  · rw [PlanStep.needs_extend_of_not_mem hname] at hr
    rw [Row.pick_set_of_not_mem hname, Row.pick_set_of_not_mem hname, hr]

theorem LookAlike.ranking {f : Ranking} {window : Window}
    (h : LookAlike (PlanStep.needs ⟨position, .extend name (.ranking f) (some window), columns,
      (Operator.extend name (.ranking f) (some window)).output columns⟩ needed) rows rows')
    (hout : RankedWindow.rows ⟨name, f, window, position⟩ .input rows = .ok out)
    (hout' : RankedWindow.rows ⟨name, f, window, position⟩ .input rows' = .ok out') :
    LookAlike needed out out' := by
  by_cases hname : name ∈ needed
  · -- the ranks are seen, and they are computed from what is seen through the window
    rw [PlanStep.needs_extend_of_mem hname] at h
    have hthrough := RankedWindow.rows_through (w := ⟨name, f, window, position⟩)
      (f := Row.pick (needed.filter (· ≠ name) ++ window.columns)) (g := Row.pick needed)
      (fun r c hc => Row.get?_pick_of_mem (List.mem_append_right _ hc))
      (fun r v => Row.pick_set_congr
        (fun c hc hne => Row.get?_pick_of_mem (List.mem_append_left _ (by simp [hc, hne]))) v)
      .input
    have hrows : rows.map (Row.pick (needed.filter (· ≠ name) ++ window.columns)) =
        rows'.map (Row.pick (needed.filter (· ≠ name) ++ window.columns)) := h
    have heq := hthrough rows
    rw [hrows, hthrough rows', hout, hout'] at heq
    exact (Except.ok.inj heq).symm
  · -- only the column of the ranks is changed, and it is not seen
    rw [PlanStep.needs_extend_of_not_mem hname] at h
    have hset := Row.pick_set_of_not_mem hname
    rw [LookAlike, RankedWindow.map_of_rows_input hset hout,
      RankedWindow.map_of_rows_input hset hout', h]

end Extend

section Step

variable {needed columns : List String} {rows rows' out out' : List Row} {position : Nat}

/-- Rows that look alike through the columns needed of a selection look alike when cut to it. -/
theorem LookAlike.cut {selected : List String}
    (h : LookAlike (needed.filter selected.contains) rows rows')
    (hout : rows.mapM (·.cut selected) = .ok out)
    (hout' : rows'.mapM (·.cut selected) = .ok out') : LookAlike needed out out' := by
  refine h.mapM (fun r r' s s' hr hs hs' => ?_) hout hout'
  rw [Row.eq_pick_of_project (mapError_eq_ok.1 hs), Row.eq_pick_of_project (mapError_eq_ok.1 hs')]
  refine Row.pick_eq_iff.2 fun c hc => ?_
  rw [Row.get?_pick, Row.get?_pick]
  split
  · rename_i hmem
    exact Row.pick_eq_iff.1 hr c (by simp [hc, hmem])
  · rfl

theorem PlanStep.ranked_eq_ok {name : String} {value : Expr} {window : Window}
    {w : RankedWindow} {output : List String}
    (h : PlanStep.ranked ⟨position, .extend name value (some window), columns, output⟩ = .ok w) :
    ∃ f, value = .ranking f ∧ w = ⟨name, f, window, position⟩ := by
  cases value with
  | ranking f =>
      cases h
      exact ⟨f, rfl, rfl⟩
  | _ => cases h

/-- Every step keeps rows alike. -/
theorem LookAlike.step {o : Operator}
    (h : LookAlike (PlanStep.needs ⟨position, o, columns, o.output columns⟩ needed) rows rows')
    (hout : PlanStep.rows ⟨position, o, columns, o.output columns⟩ .input rows = .ok out)
    (hout' : PlanStep.rows ⟨position, o, columns, o.output columns⟩ .input rows' = .ok out') :
    LookAlike needed out out' := by
  rcases o with ⟨name, value, _ | window⟩ | condition | terms | selected | dropped | _
  · exact h.extend hout hout'
  · obtain ⟨w, hw, hout⟩ := bind_eq_ok.1 hout
    obtain ⟨w', hw', hout'⟩ := bind_eq_ok.1 hout'
    obtain ⟨f, rfl, rfl⟩ := PlanStep.ranked_eq_ok hw
    cases hw'
    exact h.ranking hout hout'
  · refine (h.keepRows (fun r r' hr => ?_) hout hout').mono fun c hc =>
      List.mem_append_left _ hc
    have hread := fun c hc => Row.pick_eq_iff.1 hr c (List.mem_append_right _ hc)
    rw [Row.satisfies, Row.satisfies, Expr.holds, Expr.holds, Expr.eval_congr hread]
  · refine (h.sortRows (fun t ht => ?_) (mapError_eq_ok.1 hout) (mapError_eq_ok.1 hout')).mono
      fun c hc => List.mem_append_left _ hc
    exact List.mem_append_right _ (List.mem_map_of_mem ht)
  · exact (h.mono fun c hc => List.mem_append_left _ hc).cut hout hout'
  · exact (h.mono fun c hc => List.mem_append_left _ hc).cut hout hout'
  · cases hout
    cases hout'
    exact h.mono fun c hc => List.mem_append_left _ hc

theorem LookAlike.steps {os : List Operator}
    (h : LookAlike ((stepsFrom position columns os).foldr PlanStep.needs needed) rows rows')
    (hout : (stepsFrom position columns os).foldlM (fun rows s => s.rows .input rows) rows =
      .ok out)
    (hout' : (stepsFrom position columns os).foldlM (fun rows s => s.rows .input rows) rows' =
      .ok out') :
    LookAlike needed out out' := by
  induction os generalizing position columns rows rows' with
  | nil =>
      cases hout
      cases hout'
      exact h
  | cons o os ih =>
      rw [stepsFrom, List.foldlM_cons, bind_eq_ok] at hout hout'
      obtain ⟨next, hnext, hout⟩ := hout
      obtain ⟨next', hnext', hout'⟩ := hout'
      rw [stepsFrom, List.foldr_cons] at h
      exact ih (h.step hnext hnext') hout hout'

end Step

/-! ### The columns of the rows -/

namespace Flow

variable {columns : List String} {w : Flow}

/-- The rows have these columns. -/
def Columns (columns : List String) (w : Flow) : Prop :=
  w.Safe (fun _ => True) fun r => r.columns = columns

theorem Columns.map {output : List String} (h : w.Columns columns) {f : Row → Result Row}
    (hf : ∀ r s, r.columns = columns → f r = .ok s → s.columns = output) :
    (w.map f).Columns output :=
  Safe.map h fun r hr => (Ends.self fun _ _ => trivial).mono fun s hs => hf r s hr hs

theorem Columns.whole {output : List String} (h : w.Columns columns)
    {f : List Row → Result (List Row)}
    (hf : ∀ rows out, (∀ r ∈ rows, r.columns = columns) → f rows = .ok out →
      ∀ r ∈ out, r.columns = output) : (w.whole f).Columns output :=
  Safe.whole h fun rows hrows =>
    (Ends.self fun _ _ => trivial).mono fun out hout => hf rows out hrows hout

theorem columns_set_output {r : Row} (h : r.columns = columns) (name : String) (v : Value)
    (value : Expr) (window : Option Window) :
    (r.set name v).columns = (Operator.extend name value window).output columns := by
  simp [Row.columns_set, Operator.output, h]

/-- Every step gives the columns that its operator announces. -/
theorem Columns.step (h : w.Columns columns) (o : Operator) (order : RowOrder) (position : Nat) :
    (w.step order ⟨position, o, columns, o.output columns⟩).Columns (o.output columns) := by
  rcases o with ⟨name, value, _ | window⟩ | condition | terms | selected | dropped | _
  · refine h.map fun r s hr hs => ?_
    obtain ⟨v, _, rfl⟩ := Row.extend_eq_ok.1 hs
    exact columns_set_output hr name v value none
  · refine h.whole fun rows out hrows hout s hs => ?_
    obtain ⟨ranked, hranked, hout⟩ := bind_eq_ok.1 hout
    obtain ⟨f, rfl, rfl⟩ := PlanStep.ranked_eq_ok hranked
    obtain ⟨r, hr, v, rfl⟩ := RankedWindow.exists_of_mem_rows hout s hs
    exact columns_set_output (hrows r hr) name v (.ranking f) (some window)
  · exact Safe.filter h fun _ _ => Ends.mono (.self fun _ _ => trivial) fun _ _ => trivial
  · refine h.whole fun rows out hrows hout r hr => hrows r ?_
    exact (perm_of_sortItems (mapError_eq_ok.1 hout)).subset hr
  · exact h.map fun r s _ hs => Row.columns_project (mapError_eq_ok.1 hs)
  · exact h.map fun r s _ hs => Row.columns_project (mapError_eq_ok.1 hs)
  · exact h

theorem Columns.steps (h : w.Columns columns) (os : List Operator) (order : RowOrder)
    (position : Nat) : ((stepsFrom position columns os).foldl (Flow.step order) w).Columns
      (Plan.columnsAfter columns os) := by
  induction os generalizing w position columns with
  | nil => exact h
  | cons o os ih => exact ih (h.step o order position) (position + 1)

theorem columns_scan (ref : TableRef) (t : Table) : (ref.flow t).Columns ref.columns :=
  safe_cuts ref (fun _ _ => trivial) fun _ _ _ hcut => Row.columns_project hcut

end Flow

/-- The rows that a plan makes of any table have the columns of the plan. -/
theorem Plan.columns_rows {p : Plan} {t : Table} {order : RowOrder} {rows : List Row}
    (h : p.rows t order = .ok rows) : ∀ r ∈ rows, r.columns = p.columns :=
  ((Flow.columns_scan p.table t).steps p.operators order 1).ends.of_eq_ok
    (Plan.toResult_flow_eq_ok.2 h)

/-! ### Runs over tables that differ in unused columns -/

theorem FitChain.nodup_columnsAfter {columns : List String} {os : List Operator}
    (h : FitChain columns os) (hn : columns.Nodup) : (Plan.columnsAfter columns os).Nodup := by
  induction os generalizing columns with
  | nil => exact hn
  | cons o os ih => exact ih h.2 (h.1.nodup_output hn)

theorem lookAlike_iff {columns : List String} {rows rows' : List Row} :
    LookAlike columns rows rows' ↔
      List.Forall₂ (fun r r' => ∀ c ∈ columns, r.get? c = r'.get? c) rows rows' := by
  rw [LookAlike, ← List.forall₂_eq_eq_eq, List.forall₂_map_left_iff, List.forall₂_map_right_iff]
  simp only [Row.pick_eq_iff]

/-- Tables that agree on the columns a plan uses give scans that look alike through all columns that
are needed. -/
theorem Plan.lookAlike_scan {p : Plan} {t t' : Table}
    (hagree : LookAlike p.columnsUsed t.rows t'.rows) {rows rows' : List Row}
    (h : p.table.rows t = .ok rows) (h' : p.table.rows t' = .ok rows') :
    LookAlike (p.steps.foldr PlanStep.needs p.columns) rows rows' := by
  refine hagree.mapM (fun r r' s s' hr hs hs' => ?_) (TableRef.rows_eq_ok.1 h).2
    (TableRef.rows_eq_ok.1 h').2
  rw [Row.eq_pick_of_project hs, Row.eq_pick_of_project hs']
  refine Row.pick_eq_iff.2 fun c hc => ?_
  rw [Row.get?_pick, Row.get?_pick]
  split
  · rename_i hdeclared
    refine Row.pick_eq_iff.1 hr c (List.mem_filter.2 ⟨hdeclared, ?_⟩)
    exact List.contains_iff_mem.2 hc
  · rfl

/-- The columns that a plan uses decide its result. Two runs over sources of equally many rows that
agree on these columns, row by row, have the same result whenever both succeed. -/
theorem Plan.Made.run_eq_of_columnsUsed {p : Plan} (hp : p.Made) {source source' : Source}
    (hagree : List.Forall₂ (fun r r' => ∀ c ∈ p.columnsUsed, r.get? c = r'.get? c)
      (source.toTable p.table.columns).rows (source'.toTable p.table.columns).rows)
    {out out' : Table} (hout : p.run source .input = .ok out)
    (hout' : p.run source' .input = .ok out') : out = out' := by
  obtain ⟨rows, hrows, rfl⟩ := Plan.exists_rows_of_run hout
  obtain ⟨rows', hrows', rfl⟩ := Plan.exists_rows_of_run hout'
  obtain ⟨scanned, hscan, hsteps⟩ := bind_eq_ok.1 hrows
  obtain ⟨scanned', hscan', hsteps'⟩ := bind_eq_ok.1 hrows'
  have halike : LookAlike p.columns rows rows' :=
    (Plan.lookAlike_scan (lookAlike_iff.2 hagree) hscan hscan').steps hsteps hsteps'
  -- rows of the result have no other columns than those looked through
  have hpick {rows : List Row} (h : ∀ r ∈ rows, r.columns = p.columns) :
      rows.map (Row.pick p.columns) = rows := by
    refine List.map_congr_left (fun r hr => ?_) |>.trans (List.map_id rows)
    rw [← h r hr, Row.pick_columns (h r hr ▸ hp.fitChain.nodup_columnsAfter hp.nodup), id]
  rw [LookAlike, hpick (Plan.columns_rows hrows), hpick (Plan.columns_rows hrows')] at halike
  exact congrArg (Table.mk p.columns) halike

theorem Plan.exists_run_of_isOk {p : Plan} {source : Source} {order : RowOrder}
    (h : (p.rows (source.toTable p.table.columns) order).isOk = true) :
    ∃ out, p.run source order = .ok out := by
  obtain ⟨rows, hrows⟩ := exists_of_isOk h
  exact ⟨_, Plan.run_of_rows hrows⟩

/-- The scores with all points overwritten. -/
def levelled : Plan := ⟨placings.table, [.extend "points" (.literal (.int 0)) none]⟩

theorem made_levelled : levelled.Made := by
  have hcheck : (Draft.extend "points" (.literal (.int 0)) none).check placings.table.columns
      (some (Plan.ofTable placings.table).next) =
        .ok (.extend "points" (.literal (.int 0)) none) :=
    check_extend_eq_ok.2 ⟨by decide, rfl, by decide, rfl⟩
  exact made_scores.add (Plan.add_of_check rfl hcheck)

/-- The teams of the scores, without points. -/
def unscored : Source := .records (scoreTable.rows.map (·.set "points" .null))

theorem Plan.Made.run_eq_of_columnsUsed_levelled :
    ∃ out out', levelled.run (.table scoreTable) .input = .ok out ∧
      levelled.run unscored .input = .ok out' ∧ out = out' := by
  have hagree : List.Forall₂ (fun r r' => ∀ c ∈ levelled.columnsUsed, r.get? c = r'.get? c)
      ((Source.table scoreTable).toTable levelled.table.columns).rows
      (unscored.toTable levelled.table.columns).rows := lookAlike_iff.1 rfl
  obtain ⟨out, hout⟩ : ∃ out, levelled.run (.table scoreTable) .input = .ok out :=
    Plan.exists_run_of_isOk (by decide +kernel)
  obtain ⟨out', hout'⟩ : ∃ out', levelled.run unscored .input = .ok out' :=
    Plan.exists_run_of_isOk (by decide +kernel)
  exact ⟨out, out', hout, hout', made_levelled.run_eq_of_columnsUsed hagree hout hout'⟩

end Tabula
