import Tabula.Proofs.Plan.Safety
import Tabula.Proofs.Sql.Scalar

/-!
Queries of plans. The query after a step selects, from rows of the shape that comes out before the
step, the rows that the step makes of them: a computed column is one item among columns that are
kept as they are, whether it is new or overwrites what it is computed from. So wherever a plan runs,
in the order of the input, its statement has the rows of the run.
-/

namespace Tabula.Sql

theorem mapM_eq_some_map {α β : Type} {f : α → Option β} {g : α → β} {as : List α}
    (h : ∀ a ∈ as, f a = some (g a)) : as.mapM f = some (as.map g) := by
  induction as with
  | nil => rfl
  | cons a as ih =>
      rw [List.forall_mem_cons] at h
      rw [List.mapM_cons, h.1, ih h.2]
      rfl

section Select

variable {rows : List Row} {columns names : List String}

/-- The cells of a row from items that are named after columns. -/
theorem cells_eq_some {f : String → Item} {v : String → Value} {place : Nat} {r : Row}
    (h : ∀ c ∈ names, (f c).name = c ∧ (f c).value rows place r = some (v c)) :
    ((names.map f).mapM fun i => do return (i.name, ← i.value rows place r)) =
      some (names.map fun c => (c, v c)) := by
  rw [List.mapM_map]
  refine mapM_eq_some_map fun c hc => ?_
  obtain ⟨hname, hvalue⟩ := h c hc
  simp [hname, hvalue]

theorem select_eq_some {items : List Item} {g : Row × Nat → Row}
    (h : ∀ m ∈ rows.zipIdx,
      (items.mapM fun i => do return (i.name, ← i.value rows m.2 m.1)) = some (g m).cells) :
    select items rows = some (rows.zipIdx.map g) := by
  refine mapM_eq_some_map fun m hm => ?_
  have hcells := h m hm
  simp only [hcells]
  rfl

/-- Columns that all rows have. -/
theorem select_columns (h : ∀ r ∈ rows, ∀ c ∈ names, r.get? c = some (r.getD c)) :
    select (names.map Item.column) rows = some (rows.map (·.fill names)) := by
  rw [← map_zipIdx_row]
  refine select_eq_some fun m hm => ?_
  exact cells_eq_some fun c hc => ⟨rfl, h m.1 (mem_of_mem_zipIdx hm) c hc⟩

theorem select_self (hrows : ∀ r ∈ rows, r.Over columns) (hnodup : columns.Nodup) :
    select (columns.map Item.column) rows = some rows := by
  have hfill : rows.map (·.fill columns) = rows := by
    refine (List.map_congr_left fun r hr => ?_).trans (List.map_id rows)
    have hcolumns := (hrows r hr).columns_eq
    exact hcolumns ▸ Row.fill_columns (hcolumns.symm ▸ hnodup)
  rw [select_columns fun r hr c hc => ((hrows r hr).has hc).get?, hfill]

/-- A computed item in the place of a column or after all of them. -/
theorem select_extend (hrows : ∀ r ∈ rows, r.Over columns) (hnodup : columns.Nodup)
    {name : String} {value : Selected} {v : Row × Nat → Value}
    (hv : ∀ m ∈ rows.zipIdx, (Item.named value name).value rows m.2 m.1 = some (v m)) :
    select ((if columns.contains name then columns else columns ++ [name]).map fun c =>
      if c = name then Item.named value name else Item.column c) rows =
        some (rows.zipIdx.map fun m => m.1.set name (v m)) := by
  refine select_eq_some fun m hm => ?_
  have hover := hrows m.1 (mem_of_mem_zipIdx hm)
  -- both sides have one cell for each column of the outcome
  rw [Row.set_eq hover hnodup]
  refine cells_eq_some fun c hc => ?_
  by_cases hname : c = name
  · rw [if_pos hname, if_pos hname]
    exact ⟨hname.symm, hv m hm⟩
  · rw [if_neg hname, if_neg hname]
    refine ⟨rfl, (hover.has ?_).get?⟩
    split at hc
    · exact hc
    · rcases List.mem_append.1 hc with hc | hc
      · exact hc
      · exact absurd (List.mem_singleton.1 hc) hname

end Select

section Nested

variable {tables : String → Option Table} {inner : Query} {rows : List Row}

theorem inOrder_nil {α : Type} (rowOf : α → Row) (items : List α) :
    inOrder rowOf [] items = items :=
  List.mergeSort_of_pairwise (List.pairwise_of_forall fun _ _ => rfl)

/-- A level without a condition and an ordering. -/
theorem rows_nested (hinner : inner.rows tables = some rows) {items : List Item}
    {g : Row × Nat → Row} (h : select items rows = some (rows.zipIdx.map g)) (name : String) :
    (Query.nested items inner name none []).rows tables = some (rows.zipIdx.map g) := by
  have hlength : (rows.zipIdx.map g).length = rows.length := by simp
  simp only [Query.rows, hinner, h, inOrder_nil, Option.bind_eq_bind, Option.bind_some,
    Option.pure_def, List.map_snd_zip hlength.le]

theorem rows_columns (hinner : inner.rows tables = some rows) {names : List String}
    (h : ∀ r ∈ rows, ∀ c ∈ names, r.get? c = some (r.getD c)) (name : String) :
    (Query.nested (names.map .column) inner name none []).rows tables =
      some (rows.map (·.fill names)) := by
  have hselect := select_columns h
  rw [← map_zipIdx_row] at hselect ⊢
  exact rows_nested hinner hselect name

/-- The rows for which a condition holds. -/
theorem filterRows_eq_some {keep : Row → Result Bool} {keep' : Row → Option Bool}
    (h : ∀ r b, keep r = .ok b → keep' r = some b) {out : List Row}
    (hout : keepRows keep rows = .ok out) : filterRows keep' rows = some out := by
  induction rows generalizing out with
  | nil =>
      cases hout
      rfl
  | cons r rest ih =>
      obtain ⟨kept, others, hkept, hothers, rfl⟩ := keepRows_cons_eq_ok.1 hout
      rw [filterRows, h r kept hkept, ih hothers]
      rfl

theorem isTrue_of_satisfies {d : Dialect} {condition : Expr} {s : Scalar}
    (hs : Scalar.ofExpr d condition = .ok s) {r : Row} {position : Nat} {b : Bool}
    (h : r.satisfies condition position = .ok b) : s.isTrue r = some b := by
  obtain ⟨v, hv, hb⟩ := bind_eq_ok.1 (mapError_eq_ok.1 h)
  rw [Scalar.isTrue, Scalar.value_ofExpr hs hv]
  cases v with
  | null =>
      cases hb
      rfl
  | bool b' =>
      cases hb
      cases b <;> rfl
  | _ => cases hb

theorem rows_condition (hinner : inner.rows tables = some rows) {columns : List String}
    (hnodup : columns.Nodup) {condition : Scalar} {kept : List Row}
    (hkept : filterRows (fun r => condition.isTrue r) rows = some kept)
    (hover : ∀ r ∈ kept, r.Over columns) (name : String) :
    (Query.nested (columns.map .column) inner name (some condition) []).rows tables =
      some kept := by
  simp only [Query.rows, hinner, hkept, select_self hover hnodup, inOrder_nil,
    Option.bind_eq_bind, Option.bind_some, Option.pure_def, List.map_snd_zip le_rfl]

/-- An ordering over columns that are kept as they are orders the rows themselves. -/
theorem rows_ordering (hinner : inner.rows tables = some rows) {columns : List String}
    (hnodup : columns.Nodup) (hover : ∀ r ∈ rows, r.Over columns) (terms : List OrderTerm)
    (name : String) :
    (Query.nested (columns.map .column) inner name none terms).rows tables =
      some (inOrder id terms rows) := by
  have hzip : rows.zip rows = rows.map fun r => (r, r) := by
    have hpairs := List.map_prod_left_eq_zip (l := rows) (f := id)
    rw [List.map_id] at hpairs
    exact hpairs.symm
  have hsort : (inOrder Prod.fst terms (rows.zip rows)).map Prod.snd = inOrder id terms rows := by
    rw [inOrder, inOrder, List.map_mergeSort (s := fun a b => !precedes terms b a), hzip,
      List.map_map]
    · exact congrArg (List.mergeSort · _) (List.map_id rows)
    · rw [hzip]
      simp only [List.forall_mem_map, implies_true]
  simp only [Query.rows, hinner, select_self hover hnodup, hsort, Option.bind_eq_bind,
    Option.bind_some, Option.pure_def]

end Nested

section Steps

variable {d : Dialect} {tables : String → Option Table} {inner q : Query} {rows out : List Row}
  {columns : List String} {position : Nat}

/-- The value of every row in a computed column. -/
theorem exists_map_extend {name : String} {value : Expr} {position : Nat}
    (h : rows.mapM (·.extend name value position) = .ok out) :
    ∃ v : Row → Value, (∀ r ∈ rows, value.eval r = .ok (v r)) ∧
      out = rows.map fun r => r.set name (v r) := by
  have heval : ∀ r ∈ rows, value.eval r = .ok ((value.eval r).toOption.getD .null) := by
    intro r hr
    obtain ⟨b, _, hb⟩ := exists_of_mapM_eq_ok h r hr
    rw [Row.extend] at hb
    cases hv : value.eval r with
    | ok v => rfl
    | error fault =>
        rw [hv] at hb
        cases hb
  have hout : rows.mapM (·.extend name value position) =
      .ok (rows.map fun r => r.set name ((value.eval r).toOption.getD .null)) := by
    refine mapM_eq_ok_map fun r hr => ?_
    rw [Row.extend, heval r hr]
    rfl
  rw [hout] at h
  exact ⟨_, heval, (Except.ok.inj h).symm⟩

theorem rows_after_extend {name : String} {value : Expr}
    (hrows : ∀ r ∈ rows, r.Over columns) (hnodup : columns.Nodup)
    (hinner : inner.rows tables = some rows)
    (hq : inner.after d ⟨position, .extend name value none, columns,
      (Operator.extend name value none).output columns⟩ = .ok q)
    (hout : rows.mapM (·.extend name value position) = .ok out) : q.rows tables = some out := by
  obtain ⟨selected, hselected, hq⟩ := bind_eq_ok.1 hq
  obtain ⟨s, hs, hscalar⟩ := bind_eq_ok.1 hselected
  cases hq
  cases hscalar
  obtain ⟨v, hv, rfl⟩ := exists_map_extend hout
  rw [← map_zipIdx_row]
  refine rows_nested hinner (select_extend hrows hnodup fun m hm => ?_) _
  exact Scalar.value_ofExpr hs (hv m.1 (mem_of_mem_zipIdx hm))

/-- Columns that come out of a projection. -/
theorem rows_after_cut {names : List String} {name : String} (hrows : ∀ r ∈ rows, r.Over columns)
    (hsub : ∀ c ∈ names, c ∈ columns) (hinner : inner.rows tables = some rows)
    (hout : rows.mapM (·.cut names) = .ok out) :
    (Query.nested (names.map .column) inner name none []).rows tables = some out := by
  rw [mapM_eq_ok_map fun r hr => (hrows r hr).cut_eq hsub] at hout
  cases hout
  exact rows_columns hinner (fun r hr c hc => ((hrows r hr).has (hsub c hc)).get?) name

theorem rows_after_ranking {name : String} {f : Ranking} {w : Window}
    (hrows : ∀ r ∈ rows, r.Over columns) (hnodup : columns.Nodup) (hreadable : w.Readable rows)
    (hinner : inner.rows tables = some rows)
    (hq : inner.after d ⟨position, .extend name (.ranking f) (some w), columns,
      (Operator.extend name (.ranking f) (some w)).output columns⟩ = .ok q)
    (hout : RankedWindow.rows ⟨name, f, w, position⟩ .input rows = .ok out) :
    q.rows tables = some out := by
  obtain ⟨selected, hselected, hq⟩ := bind_eq_ok.1 hq
  cases hq
  have hranking : selected = .ranking f w := by
    rw [Selected.ofValue] at hselected
    split at hselected
    · exact (Except.ok.inj hselected).symm
    · cases hselected
  subst hranking
  rw [RankedWindow.rows_eq hreadable (RankedWindow.orderable_of_rows_eq_ok hreadable hout)] at hout
  cases hout
  exact rows_nested hinner (select_extend hrows hnodup fun m hm => rfl) _

/-- A step of a run gives the rows of the query after it. -/
theorem rows_after {o : Operator} (ho : o.Fits columns) (hnodup : columns.Nodup)
    (hrows : ∀ r ∈ rows, r.Over columns)
    (hn : ∀ r ∈ rows, ∀ c ∈ o.orderedColumns, (r.getD c).isNaN = false)
    (hinner : inner.rows tables = some rows)
    (hq : inner.after d ⟨position, o, columns, o.output columns⟩ = .ok q)
    (hout : PlanStep.rows ⟨position, o, columns, o.output columns⟩ .input rows = .ok out) :
    q.rows tables = some out := by
  have hover := PlanStep.over_rows ho hrows hout
  rcases o with ⟨name, value, _ | w⟩ | condition | terms | selected | dropped | _
  · exact rows_after_extend hrows hnodup hinner hq hout
  · obtain ⟨⟨f, rfl⟩, hcolumns⟩ := ho
    refine rows_after_ranking hrows hnodup (fun r hr c hc => ?_) hinner hq hout
    exact (hrows r hr).plain (hcolumns c hc) (hn r hr c hc)
  · obtain ⟨s, hs, hq⟩ := bind_eq_ok.1 hq
    cases hq
    have hkept := filterRows_eq_some (fun r b h => isTrue_of_satisfies hs h) hout
    exact rows_condition hinner hnodup hkept hover _
  · cases hq
    have hplain : ∀ t ∈ terms, ∀ r ∈ rows, r.Has Value.Plain t.column := fun t ht r hr =>
      (hrows r hr).plain (ho t ht) (hn r hr t.column (List.mem_map_of_mem ht))
    -- the sort succeeded, so any two values of a column can be ordered together
    have hsorted : sortItems id terms rows = .ok out := mapError_eq_ok.1 hout
    have hcomparable := (sortItems_perm (fun t ht r hr =>
      (hplain t ht r hr).mono fun v hv => hv.supported) hsorted).2
    have horder : sortItems id terms rows = .ok (inOrder id terms rows) :=
      sortItems_eq_inOrder hplain hcomparable
    rw [horder] at hsorted
    cases hsorted
    exact rows_ordering hinner hnodup hrows terms _
  · cases hq
    exact rows_after_cut hrows ho.2 hinner hout
  · cases hq
    have hsub : ∀ c ∈ (Operator.dropColumns dropped).output columns, c ∈ columns :=
      fun c hc => List.mem_of_mem_filter hc
    exact rows_after_cut hrows hsub hinner hout
  · -- keeping the result adds no level
    cases hq
    cases hout
    exact hinner

theorem map_name_column (names : List String) : (names.map Item.column).map Item.name = names := by
  rw [List.map_map]
  exact List.map_id names

theorem columns_after {o : Operator} (hinner : inner.columns = columns)
    (hq : inner.after d ⟨position, o, columns, o.output columns⟩ = .ok q) :
    q.columns = o.output columns := by
  cases o with
  | extend name value window =>
      obtain ⟨selected, _, hq⟩ := bind_eq_ok.1 hq
      cases hq
      rw [Query.columns, List.map_map]
      refine (List.map_congr_left fun c _ => ?_).trans (List.map_id _)
      by_cases hc : c = name
      · simp [hc, Item.name]
      · simp [hc, Item.name]
  | selectRows condition =>
      obtain ⟨s, _, hq⟩ := bind_eq_ok.1 hq
      cases hq
      exact map_name_column columns
  | orderBy terms =>
      cases hq
      exact map_name_column columns
  | selectColumns selected =>
      cases hq
      exact map_name_column selected
  | dropColumns dropped =>
      cases hq
      exact map_name_column _
  | materialize table temporary =>
      cases hq
      exact hinner

/-- The query of a chain of steps has the rows of the run. -/
theorem rows_afterAll {os : List Operator} (hos : FitChain columns os) (hnodup : columns.Nodup)
    (hrows : ∀ r ∈ rows, r.Over columns)
    (hn : noNaNFrom Operator.orderedColumns .input (stepsFrom position columns os) rows = true)
    (hcolumns : inner.columns = columns) (hinner : inner.rows tables = some rows)
    (hq : inner.afterAll d (stepsFrom position columns os) = .ok q)
    (hout : (stepsFrom position columns os).foldlM (fun rows s => s.rows .input rows) rows =
      .ok out) :
    q.columns = Plan.columnsAfter columns os ∧ q.rows tables = some out := by
  induction os generalizing position columns rows inner with
  | nil =>
      cases hq
      cases hout
      exact ⟨hcolumns, hinner⟩
  | cons o os ih =>
      obtain ⟨hn, hrest⟩ := noNaNFrom_cons hn
      rw [stepsFrom, Query.afterAll] at hq
      split at hq
      · rename_i next hnext
        rw [stepsFrom, List.foldlM_cons] at hout
        obtain ⟨rows', hrows', hout⟩ := bind_eq_ok.1 hout
        exact ih hos.2 (hos.1.nodup_output hnodup) (PlanStep.over_rows hos.1 hrows hrows')
          (hrest rows' hrows') (columns_after hcolumns hnext)
          (rows_after hos.1 hnodup hrows hn hinner hnext hrows') hq hout
      · cases hq

end Steps

end Tabula.Sql

namespace Tabula

open Sql

theorem Plan.exists_query {p : Plan} {d : Dialect} {statement : Statement}
    (h : p.statement d = .ok statement) :
    (Query.table p.table.columns p.table.name).afterAll d p.steps = .ok statement.query := by
  obtain ⟨_, _, h⟩ := bind_eq_ok.1 h
  obtain ⟨q, hq, h⟩ := bind_eq_ok.1 h
  rw [hq]
  split at h <;> cases h <;> rfl

/-- The lowest query has the rows of the scan. -/
theorem TableRef.rows_query {ref : TableRef} {tables : String → Option Table} {t : Table}
    (htables : tables ref.name = some t) {rows : List Row} (h : ref.rows t = .ok rows) :
    (Query.table ref.columns ref.name).rows tables = some rows := by
  obtain ⟨_, hrows⟩ := TableRef.rows_eq_ok.1 h
  have hcut : ∀ r ∈ t.rows, r.project ref.columns = .ok (r.fill ref.columns) ∧
      ∀ c ∈ ref.columns, r.get? c = some (r.getD c) := by
    intro r hr
    obtain ⟨s, _, hs⟩ := exists_of_mapM_eq_ok hrows r hr
    obtain ⟨rfl, hall⟩ := Row.eq_fill_of_project hs
    refine ⟨hs, fun c hc => ?_⟩
    obtain ⟨v, hv⟩ := hall c hc
    rw [Row.getD, hv, Option.getD_some]
  rw [mapM_eq_ok_map fun r hr => (hcut r hr).1] at hrows
  cases hrows
  rw [Query.rows, htables]
  exact select_columns fun r hr => (hcut r hr).2

/-- Compiling is correct. Where a plan has a statement and its run in the order of the input
succeeds, with no double that is no number in what rows are ordered or told apart by, the statement
has the columns of the run and its rows in their order. -/
theorem Plan.Made.statement_rows {p : Plan} (hp : p.Made) {d : Dialect} {statement : Statement}
    (hstatement : p.statement d = .ok statement) {t : Table} (ht : t.Supported)
    (hn : p.noNaN Operator.orderedColumns t .input = true) {out : Table}
    (hout : p.run (.table t) .input = .ok out) {tables : String → Option Table}
    (htables : tables p.table.name = some t) :
    statement.query.columns = out.columns ∧ statement.rows tables = some out.rows := by
  rw [Plan.run_eq_flow] at hout
  obtain ⟨rows, hflow, rfl⟩ : ∃ rows, (p.flow t .input).toResult = .ok rows ∧
      out = ⟨p.columns, rows⟩ := by
    cases hflow : (p.flow t .input).toResult with
    | ok rows =>
        rw [Source.toTable, hflow] at hout
        exact ⟨rows, rfl, (Except.ok.inj hout).symm⟩
    | error e =>
        rw [Source.toTable, hflow] at hout
        cases hout
  obtain ⟨scanned, hscanned, hsteps⟩ := bind_eq_ok.1 (Plan.toResult_flow_eq_ok.1 hflow)
  rw [Plan.noNaN, hscanned] at hn
  exact rows_afterAll hp.fitChain hp.nodup (TableRef.over_rows ht hscanned) hn rfl
    (TableRef.rows_query htables hscanned) (Plan.exists_query hstatement) hsteps

theorem Plan.Made.statement_rows_scores :
    ∃ statement out, placings.statement .extendedWindowTies = .ok statement ∧
      placings.run (.table scoreTable) .input = .ok out ∧
        statement.query.columns = out.columns ∧
          statement.rows (fun _ => some scoreTable) = some out.rows := by
  have hn : placings.noNaN Operator.orderedColumns scoreTable .input = true := by decide +kernel
  have ht : scoreTable.Supported := by decide +kernel
  obtain ⟨statement, hstatement⟩ :
      ∃ statement, placings.statement .extendedWindowTies = .ok statement := ⟨_, rfl⟩
  obtain ⟨rows, hrows⟩ := exists_rows_placings
  have hrun : placings.run (.table scoreTable) .input = .ok ⟨placings.columns, rows⟩ :=
    Plan.run_of_rows hrows
  exact ⟨statement, ⟨placings.columns, rows⟩, hstatement, hrun,
    made_placings.statement_rows hstatement ht hn hrun rfl⟩

end Tabula
