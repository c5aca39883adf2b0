import Tabula.Proofs.Plan.Lineage
import Tabula.Proofs.Plan.Validity

/-!
Plans in stages. A plan that keeps its result can be followed by a plan over what it kept. Together
they do what one plan does that has the operators of both: the scan in between reads rows that have
the declared columns already, and the places of operators, which differ, show in failures only.
-/

namespace Tabula

/-! ### Checks and places -/

theorem uniqueFrom_eq_ok_at {position : Option Int} {values : List Value}
    {seen names : List String} (h : uniqueFrom position seen values = .ok names)
    (position' : Option Int) : uniqueFrom position' seen values = .ok names :=
  uniqueFrom_eq_ok.2 (uniqueFrom_eq_ok.1 h)

/-- What passes a check passes it at any place. -/
theorem check_eq_ok_at {columns : List String} {position : Option Int} {o : Operator} {d : Draft}
    (h : d.check columns position = .ok o) (position' : Option Int) :
    d.check columns position' = .ok o := by
  cases d with
  | extend name value window => exact check_extend_eq_ok.2 (check_extend_eq_ok.1 h)
  | selectRows condition => exact check_selectRows_eq_ok.2 (check_selectRows_eq_ok.1 h)
  | orderBy terms => exact check_orderBy_eq_ok.2 (check_orderBy_eq_ok.1 h)
  | selectColumns selected =>
      obtain ⟨names, hnames, hrest⟩ := check_selectColumns_eq_ok.1 h
      exact check_selectColumns_eq_ok.2 ⟨names, uniqueFrom_eq_ok_at hnames position', hrest⟩
  | dropColumns dropped =>
      obtain ⟨names, hnames, hrest⟩ := check_dropColumns_eq_ok.1 h
      exact check_dropColumns_eq_ok.2 ⟨names, uniqueFrom_eq_ok_at hnames position', hrest⟩
  | materialize table temporary => exact check_materialize_eq_ok.2 (check_materialize_eq_ok.1 h)

/-! ### Rows and places -/

section Places

variable {α β : Type} {f g : α → Result β}

theorem mapM_eq_ok_congr (h : ∀ a b, f a = .ok b → g a = .ok b) {as : List α} {out : List β}
    (hout : as.mapM f = .ok out) : as.mapM g = .ok out := by
  induction as generalizing out with
  | nil => exact hout
  | cons a as ih =>
      obtain ⟨b, bs, hb, hbs, rfl⟩ := mapM_cons_eq_ok.1 hout
      exact mapM_cons_eq_ok.2 ⟨b, bs, h a b hb, ih hbs, rfl⟩

theorem keepRows_eq_ok_congr {keep keep' : Row → Result Bool}
    (h : ∀ r b, keep r = .ok b → keep' r = .ok b) {rows out : List Row}
    (hout : keepRows keep rows = .ok out) : keepRows keep' rows = .ok out := by
  induction rows generalizing out with
  | nil => exact hout
  | cons r rest ih =>
      obtain ⟨kept, others, hk, hothers, rfl⟩ := keepRows_cons_eq_ok.1 hout
      exact keepRows_cons_eq_ok.2 ⟨kept, others, h r kept hk, ih hothers, rfl⟩

end Places

theorem RankedWindow.rows_eq_ok_at {w : RankedWindow} {order : RowOrder} {rows out : List Row}
    (h : w.rows order rows = .ok out) (position : Nat) :
    RankedWindow.rows { w with position } order rows = .ok out := by
  obtain ⟨keyed, hkeyed, h⟩ := bind_eq_ok.1 h
  obtain ⟨groups, hgroups, h⟩ := bind_eq_ok.1 h
  refine bind_eq_ok.2 ⟨keyed, hkeyed, bind_eq_ok.2 ⟨groups, ?_, h⟩⟩
  refine mapM_eq_ok_congr (fun members ranked hranked => ?_) hgroups
  obtain ⟨sorted, hsorted, hranked⟩ := bind_eq_ok.1 hranked
  exact bind_eq_ok.2 ⟨sorted, mapError_eq_ok.2 (mapError_eq_ok.1 hsorted), hranked⟩

/-- A step that succeeds does so at any place, with the same rows. -/
theorem PlanStep.rows_eq_ok_at {s : PlanStep} {order : RowOrder} {rows out : List Row}
    (h : s.rows order rows = .ok out) (position : Nat) :
    PlanStep.rows { s with position } order rows = .ok out := by
  obtain ⟨place, o, input, output⟩ := s
  rcases o with ⟨name, value, _ | window⟩ | condition | terms | selected | dropped | _
  · refine mapM_eq_ok_congr (fun r r' hr => ?_) h
    exact Row.extend_eq_ok.2 (Row.extend_eq_ok.1 hr)
  · obtain ⟨w, hw, h⟩ := bind_eq_ok.1 h
    obtain ⟨f, rfl, rfl⟩ := PlanStep.ranked_eq_ok hw
    exact bind_eq_ok.2 ⟨⟨name, f, window, position⟩, rfl, RankedWindow.rows_eq_ok_at h position⟩
  · refine keepRows_eq_ok_congr (fun r kept hr => ?_) h
    exact mapError_eq_ok.2 (mapError_eq_ok.1 hr)
  · exact mapError_eq_ok.2 (mapError_eq_ok.1 h)
  · exact h
  · exact h
  · exact h

/-- The rows after a chain of operators that starts at a place. -/
def rowsThrough (order : RowOrder) (position : Nat) (columns : List String) (os : List Operator)
    (rows : List Row) : Result (List Row) :=
  (stepsFrom position columns os).foldlM (fun rows s => s.rows order rows) rows

section Chains

variable {order : RowOrder} {columns : List String} {os os' : List Operator}
  {rows out : List Row}

theorem rowsThrough_eq_ok_at {position : Nat}
    (h : rowsThrough order position columns os rows = .ok out) (position' : Nat) :
    rowsThrough order position' columns os rows = .ok out := by
  induction os generalizing position position' columns rows with
  | nil => exact h
  | cons o os ih =>
      obtain ⟨after, hafter, h⟩ := bind_eq_ok.1 h
      exact bind_eq_ok.2 ⟨after, PlanStep.rows_eq_ok_at hafter position', ih h (position' + 1)⟩

theorem rowsThrough_append_eq_ok {position : Nat} :
    rowsThrough order position columns (os ++ os') rows = .ok out ↔
      ∃ between, rowsThrough order position columns os rows = .ok between ∧
        rowsThrough order (position + os.length) (Plan.columnsAfter columns os) os' between =
          .ok out := by
  rw [rowsThrough, stepsFrom_append, List.foldlM_append, bind_eq_ok]
  rfl

end Chains

/-! ### Two plans as one -/

namespace Plan

/-- The operators of a plan that keeps its result, those of another after them. -/
def joined (p q : Plan) : Plan := ⟨p.table, p.operators.dropLast ++ q.operators⟩

theorem rows_eq_ok {p : Plan} {t : Table} {order : RowOrder} {out : List Row} :
    p.rows t order = .ok out ↔ ∃ rows, p.table.rows t = .ok rows ∧
      rowsThrough order 1 p.table.columns p.operators rows = .ok out := bind_eq_ok

/-- What a plan keeps are the columns of the plan without the operator that keeps them. -/
theorem Made.exists_kept {p : Plan} (hp : p.Made) {ref : TableRef}
    (h : p.asTable? = some (.ok ref)) :
    ∃ (a : Plan) (name : String) (temporary : Bool), a.Made ∧ a.terminal? = none ∧
      p = ⟨a.table, a.operators ++ [.materialize name temporary]⟩ ∧
        ref = ⟨name, a.columns, temporary⟩ := by
  cases hp with
  | table _ => cases h
  | @add a p d ha hadd =>
      obtain ⟨hopen, o, hcheck, rfl⟩ := add_eq_ok_iff.1 hadd
      unfold asTable? at h
      rw [List.getLast?_concat] at h
      cases o with
      | materialize name temporary =>
          refine ⟨a, name, temporary, ha, hopen, rfl, ?_⟩
          obtain ⟨n, hn, hcolumns⟩ := a.exists_last_node
          have hheading := ha.valid.heading n (List.mem_of_getElem? hn)
          have hname : name ≠ "" := by
            rintro rfl
            exact (valid_of_check (hcolumns ▸ hheading) hcheck).kept temporary rfl
          have hmake := hheading.make_eq_ok hname temporary
          rw [hcolumns] at hmake
          have hkept := Option.some.inj h
          rw [columns_append, Operator.output, hmake] at hkept
          exact (Except.ok.inj hkept).symm
      | _ => cases h

theorem terminal?_append {table table' : TableRef} {os os' : List Operator}
    (h : terminal? ⟨table, os⟩ = none) (h' : terminal? ⟨table', os'⟩ = none) :
    terminal? ⟨table, os ++ os'⟩ = none := by
  unfold terminal? at h h' ⊢
  dsimp only at h h' ⊢
  rw [List.getLast?_append]
  cases hlast : os'.getLast? with
  | none => exact h
  | some o =>
      rw [hlast] at h'
      exact h'

/-- The operators of one plan can be added to another that has the columns of its table. -/
theorem Made.append {a q : Plan} (ha : a.Made) (hopen : a.terminal? = none) (hq : q.Made)
    (hcolumns : q.table.columns = a.columns) :
    (Plan.mk a.table (a.operators ++ q.operators)).Made := by
  induction hq with
  | table _ => rwa [ofTable, List.append_nil]
  | @add q q' d _ hadd ih =>
      obtain ⟨hopen', o, hcheck, rfl⟩ := add_eq_ok_iff.1 hadd
      have hsame : columns ⟨a.table, a.operators ++ q.operators⟩ = q.columns := by
        rw [columns, columnsAfter_append, columns, hcolumns]
        rfl
      have hadded := add_of_check (terminal?_append hopen hopen') (hsame ▸ check_eq_ok_at hcheck _)
      rw [List.append_assoc] at hadded
      exact (ih hcolumns).add hadded

end Plan

/-- A scan gives back rows that have the declared columns already. -/
theorem TableRef.rows_of_columns {ref : TableRef} (hnodup : ref.columns.Nodup) {rows : List Row}
    (h : ∀ r ∈ rows, r.columns = ref.columns) : ref.rows ⟨ref.columns, rows⟩ = .ok rows := by
  refine TableRef.rows_eq_ok.2 ⟨fun c hc => hc, ?_⟩
  have hsame : ∀ r ∈ rows, r.project ref.columns = .ok (id r) := by
    intro r hr
    rw [← h r hr, Row.project_eq_fill fun c hc => hc, Row.fill_columns (h r hr ▸ hnodup), id]
  exact (mapM_eq_ok_map hsame).trans (congrArg _ (List.map_id rows))

namespace Plan

variable {a q : Plan} {t : Table} {order : RowOrder} {out : List Row}

/-- Keeping the result changes no row. -/
theorem rows_materialize_eq_ok {name : String} {temporary : Bool} :
    rows ⟨a.table, a.operators ++ [.materialize name temporary]⟩ t order = .ok out ↔
      a.rows t order = .ok out := by
  simp only [rows_eq_ok, rowsThrough_append_eq_ok]
  refine exists_congr fun scanned => and_congr_right fun _ => ?_
  constructor
  · rintro ⟨between, hbetween, hlast⟩
    cases hlast
    exact hbetween
  · exact fun h => ⟨out, h, rfl⟩

/-- Operators do after others what they do as a plan of their own. -/
theorem rows_append_eq_ok (hcolumns : q.table.columns = a.columns) :
    rows ⟨a.table, a.operators ++ q.operators⟩ t order = .ok out ↔
      ∃ between, a.rows t order = .ok between ∧
        rowsThrough order 1 q.table.columns q.operators between = .ok out := by
  simp only [rows_eq_ok, rowsThrough_append_eq_ok]
  rw [hcolumns]
  constructor
  · rintro ⟨scanned, hscan, between, hbetween, hout⟩
    exact ⟨between, ⟨scanned, hscan, hbetween⟩, rowsThrough_eq_ok_at hout 1⟩
  · rintro ⟨between, ⟨scanned, hscan, hbetween⟩, hout⟩
    exact ⟨scanned, hscan, between, hbetween, rowsThrough_eq_ok_at hout _⟩

/-- A plan over rows that have its declared columns begins with these rows. -/
theorem rows_of_columns (hnodup : q.table.columns.Nodup) {rows : List Row}
    (h : ∀ r ∈ rows, r.columns = q.table.columns) :
    q.rows ⟨q.table.columns, rows⟩ order = .ok out ↔
      rowsThrough order 1 q.table.columns q.operators rows = .ok out := by
  rw [rows_eq_ok, TableRef.rows_of_columns hnodup h]
  simp

theorem run_eq_ok {p : Plan} {source : Source} {table : Table} :
    p.run source order = .ok table ↔
      ∃ rows, p.rows (source.toTable p.table.columns) order = .ok rows ∧
        table = ⟨p.columns, rows⟩ := by
  constructor
  · exact exists_rows_of_run
  · rintro ⟨rows, hrows, rfl⟩
    exact run_of_rows hrows

end Plan

/-- A plan over the kept result of another does what one plan does that has the operators of both:
in any order of rows, either succeeds on a source exactly when the other does, with the same columns
and the same rows in the same order. -/
theorem Plan.Made.run_staged {p q : Plan} (hp : p.Made) (hq : q.Made)
    (hkept : p.asTable? = some (.ok q.table)) (source : Source) (order : RowOrder) :
    (p.joined q).Made ∧ ∀ out,
      (do q.run (.table (← p.run source order)) order) = .ok out ↔
        (p.joined q).run source order = .ok out := by
  obtain ⟨a, name, temporary, ha, hopen, rfl, hreference⟩ := hp.exists_kept hkept
  have hcolumns : q.table.columns = a.columns := by rw [hreference]
  have hjoined : Plan.joined ⟨a.table, a.operators ++ [.materialize name temporary]⟩ q =
      ⟨a.table, a.operators ++ q.operators⟩ := by
    rw [joined, List.dropLast_concat]
  have hlast : columns ⟨a.table, a.operators ++ q.operators⟩ = q.columns := by
    rw [columns, columnsAfter_append, columns, hcolumns]
    rfl
  rw [hjoined]
  refine ⟨ha.append hopen hq hcolumns, fun out => ?_⟩
  simp only [bind_eq_ok, run_eq_ok, rows_materialize_eq_ok, rows_append_eq_ok hcolumns, hlast]
  -- what the first plan gives has the columns that the second declares
  have hscan {kept : List Row}
      (hrows : a.rows (source.toTable a.table.columns) order = .ok kept) {final : List Row} :
      q.rows ⟨q.table.columns, kept⟩ order = .ok final ↔
        rowsThrough order 1 q.table.columns q.operators kept = .ok final :=
    rows_of_columns hq.nodup (hcolumns ▸ columns_rows hrows)
  have hkeeps : columns ⟨a.table, a.operators ++ [.materialize name temporary]⟩ =
      q.table.columns := by
    rw [columns_append, hcolumns]
    rfl
  rw [hkeeps]
  constructor
  · rintro ⟨_, ⟨kept, hrows, rfl⟩, final, hfinal, rfl⟩
    exact ⟨final, ⟨kept, hrows, (hscan hrows).1 hfinal⟩, rfl⟩
  · rintro ⟨final, ⟨kept, hrows, hfinal⟩, rfl⟩
    exact ⟨_, ⟨kept, hrows, rfl⟩, final, (hscan hrows).2 hfinal, rfl⟩

/-- The rows that have points, kept as a table. -/
def keptScores : Plan :=
  ⟨placings.table, placings.operators.take 1 ++ [.materialize "present" true]⟩

/-- The places in teams, over the kept rows. -/
def keptPlacings : Plan := ⟨⟨"present", ["team", "points"], true⟩, placings.operators.drop 1⟩

theorem made_keptScores : keptScores.Made := by
  have hkept : (Plan.mk placings.table (placings.operators.take 1)).add
      (.materialize "present" true) = .ok keptScores :=
    Plan.add_of_check rfl (check_materialize_eq_ok.2 ⟨by decide, rfl⟩)
  exact made_presentScores.add hkept

theorem made_keptPlacings : keptPlacings.Made := by
  have htable : TableRef.make "present" [.str "team", .str "points"] true =
      .ok keptPlacings.table := rfl
  have hranking : (Plan.ofTable keptPlacings.table).add
      (.extend "place" (.ranking .denseRank) (some ⟨["team"], [⟨"points", true⟩]⟩)) =
        .ok keptPlacings :=
    Plan.add_of_check rfl (check_extend_eq_ok.2 ⟨by decide, rfl, by decide, rfl⟩)
  exact (Plan.Made.table htable).add hranking

theorem Plan.Made.run_staged_scores :
    keptScores.asTable? = some (.ok keptPlacings.table) ∧
      ∃ out, (do keptPlacings.run (.table (← keptScores.run (.table scoreTable) .input)) .input) =
          .ok out ∧
        (keptScores.joined keptPlacings).run (.table scoreTable) .input = .ok out := by
  have hkept : keptScores.asTable? = some (.ok keptPlacings.table) := rfl
  have hstaged := made_keptScores.run_staged made_keptPlacings hkept (.table scoreTable) .input
  obtain ⟨rows, hrows⟩ := exists_rows_placings
  have hrun : (keptScores.joined keptPlacings).run (.table scoreTable) .input =
      .ok ⟨placings.columns, rows⟩ := Plan.run_of_rows hrows
  exact ⟨hkept, _, (hstaged.2 _).2 hrun, hrun⟩

end Tabula
