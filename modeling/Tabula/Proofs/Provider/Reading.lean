import Tabula.Proofs.Engine.Calls
import Tabula.Proofs.Plan.FirstFailure
import Tabula.Proofs.Plan.Staging

/-!
Reading through a provider. What a provider gives for a plan is the table itself where the declared
columns are those of the table, and otherwise its rows filled to the declared columns. Where no row
lacks a declared column the two make no difference to a run, nor to what is observed of it. Where
one does, filling hides what a scan of the table itself fails with.
-/

namespace Tabula

namespace Table

/-- Every row has all the columns. -/
def Complete (t : Table) (columns : List String) : Prop :=
  ∀ r ∈ t.rows, ∀ c ∈ columns, c ∈ r.columns

instance (t : Table) (columns : List String) : Decidable (t.Complete columns) :=
  inferInstanceAs (Decidable (∀ r ∈ t.rows, ∀ c ∈ columns, c ∈ r.columns))

/-- The rows in the given columns, null where a row lacks one. -/
def filled (t : Table) (columns : List String) : Table := ⟨columns, t.rows.map (·.fill columns)⟩

end Table

/-- A provider gives a table that has the declared columns, as it is or filled to them. -/
theorem Provider.read_eq {tables : Provider} {ref : TableRef} {t : Table}
    (hfind : tables.find? ref.name = some t) (hdeclared : ∀ c ∈ ref.columns, c ∈ t.columns)
    (hheading : IsHeading ref.columns) :
    tables.read ref = .ok (if t.columns = ref.columns then t else t.filled ref.columns) := by
  have hmissing : ref.missing t.columns = [] := filter_not_contains_eq_nil.2 hdeclared
  have hmake : Table.make (ref.columns.map .str) (t.rows.map (·.fill ref.columns)) =
      .ok (t.filled ref.columns) := by
    have hunique : uniqueColumns (ref.columns.map .str) none = .ok ref.columns :=
      uniqueFrom_strings hheading.named hheading.nodup (by simp)
    rw [Table.make, hunique]
    rfl
  rw [read, hfind]
  dsimp only
  rw [hmissing, hmake]
  by_cases hcolumns : t.columns = ref.columns
  · simp only [if_pos hcolumns]
  · simp only [if_neg hcolumns]

/-- Scanning filled rows gives what scanning the rows gives, if no row lacks a column. -/
theorem TableRef.flow_filled {ref : TableRef} {t : Table} (hnodup : ref.columns.Nodup)
    (hdeclared : ∀ c ∈ ref.columns, c ∈ t.columns) (hcomplete : t.Complete ref.columns) :
    ref.flow (t.filled ref.columns) = ref.flow t := by
  -- a filled row has all declared columns, in order, and so is scanned as it is
  have hagain (r : Row) : (r.fill ref.columns).project ref.columns = .ok (r.fill ref.columns) := by
    have hfill : (r.fill ref.columns).fill ref.columns = r.fill ref.columns := by
      have h := Row.fill_columns (r := r.fill ref.columns)
      rw [Row.columns_fill] at h
      exact h hnodup
    rw [Row.project_eq_fill, hfill]
    rw [Row.columns_fill]
    exact fun c hc => hc
  rw [flow_of_columns hdeclared, flow_of_columns fun c hc => hc, items, items]
  simp only [Table.filled, List.zipIdx_map, List.map_map, Function.comp_def]
  refine congrArg Flow.ofItems (List.map_congr_left fun m hm => ?_)
  simp only [Prod.map]
  rw [hagain, Row.project_eq_fill (hcomplete m.1 (mem_of_mem_zipIdx hm))]
  rfl

namespace Plan

variable {p : Plan} {t : Table}

/-- A run over a table in which a row lacks a declared column fails. -/
theorem run_of_not_complete (h : ¬ t.Complete p.table.columns) (order : RowOrder) :
    ∃ f, p.run (.table t) order = .error f := by
  cases hrun : p.run (.table t) order with
  | error f => exact ⟨f, rfl⟩
  | ok out =>
      obtain ⟨rows, hrows, _⟩ := exists_rows_of_run hrun
      obtain ⟨scanned, hscan, _⟩ := rows_eq_ok.1 hrows
      refine absurd (fun r hr c hc => ?_) h
      obtain ⟨cut, _, hcut⟩ := exists_of_mapM_eq_ok (TableRef.rows_eq_ok.1 hscan).2 r hr
      obtain ⟨v, hv⟩ := (Row.eq_fill_of_project hcut).2 c hc
      obtain ⟨before, after, hcells, _⟩ := List.lookup_eq_some_iff.1 hv
      rw [Row.columns, hcells]
      simp

/-- What a run through a provider is, as a result and as all that is observed of it. The provider
gives the table as it is or filled to the declared columns; if the columns are those declared, or no
row lacks a declared column, this is no different from interpreting the table itself, which fails
where a row lacks one. -/
theorem Made.run_through_provider (hp : p.Made) {tables : Provider}
    (hfind : tables.find? p.table.name = some t) (hdeclared : ∀ c ∈ p.table.columns, c ∈ t.columns)
    (e : Engine) :
    (t.columns = p.table.columns ∨ t.Complete p.table.columns →
      e.run p tables = e.interpret p (.table t)) ∧
    (t.columns ≠ p.table.columns →
      e.run p tables = e.interpret p (.table (t.filled p.table.columns))) ∧
    (¬ t.Complete p.table.columns → ∃ f, e.outcome (.interpret p (.table t)) = .error f) := by
  have hheading : IsHeading p.table.columns := hp.valid.heading _ (List.mem_cons_self ..)
  have hread := Provider.read_eq hfind hdeclared hheading
  have hrun : e.run p tables = e.interpret p (.table
      (if t.columns = p.table.columns then t else t.filled p.table.columns)) := by
    rw [Engine.run, Engine.runFrom, hread]
    rfl
  refine ⟨fun h => ?_, fun hne => ?_, fun hlacks => ?_⟩
  · rw [hrun]
    by_cases hcolumns : t.columns = p.table.columns
    · rw [if_pos hcolumns]
    · rw [if_neg hcolumns]
      have hsame : p.run (.table (t.filled p.table.columns)) e.config.rowOrder =
          p.run (.table t) e.config.rowOrder := by
        rw [run_eq_flow, run_eq_flow, flow, flow, Source.toTable, Source.toTable,
          TableRef.flow_filled hheading.nodup hdeclared (h.resolve_left hcolumns)]
      rw [Engine.interpret, Engine.interpret, hsame]
  · rw [hrun, if_neg hne]
  · obtain ⟨f, hf⟩ := run_of_not_complete hlacks e.config.rowOrder
    exact ⟨f, by rw [Engine.outcome_interpret, hf]; rfl⟩

/-- Scores, declared in another order than that of the table. -/
def pointsFirst : Plan := ofTable ⟨"scores", ["points", "team"], false⟩

theorem made_pointsFirst : pointsFirst.Made := by
  have htable : TableRef.make "scores" [.str "points", .str "team"] false =
      .ok pointsFirst.table := rfl
  exact .table htable

theorem run_through_provider_scores :
    let tables : Provider := ⟨[("scores", scoreTable)]⟩
    pointsFirst.Made ∧ tables.find? "scores" = some scoreTable ∧
      (∀ c ∈ pointsFirst.table.columns, c ∈ scoreTable.columns) ∧
      scoreTable.columns ≠ pointsFirst.table.columns ∧
      scoreTable.Complete pointsFirst.table.columns ∧
      Engine.plain.run pointsFirst tables =
        Engine.plain.interpret pointsFirst (.table scoreTable) := by
  have hcomplete : scoreTable.Complete pointsFirst.table.columns := by decide
  have hdeclared : ∀ c ∈ pointsFirst.table.columns, c ∈ scoreTable.columns := by decide
  refine ⟨made_pointsFirst, rfl, hdeclared, by decide, hcomplete, ?_⟩
  exact (made_pointsFirst.run_through_provider rfl hdeclared Engine.plain).1 (.inr hcomplete)

/-- A row that lacks a declared column runs through a provider, with a null in its place, and is
an error where the table itself is interpreted. -/
theorem run_through_provider_lacking :
    let t : Table := ⟨["team", "points"], [⟨[("team", .str "a")]⟩]⟩
    let tables : Provider := ⟨[("scores", t)]⟩
    Engine.plain.outcome (.run pointsFirst tables.read) =
        .ok (.table ⟨["points", "team"], [⟨[("points", .null), ("team", .str "a")]⟩]⟩) ∧
      Engine.plain.outcome (.interpret pointsFirst (.table t)) =
        .error (.eval (.rowLacksColumn 0 "scores" "points") (some 0)) := by
  refine ⟨?_, ?_⟩
  · rw [Engine.outcome_run]
    refine (Engine.outcome_interpret ..).trans ?_
    rw [run_eq_flow, flow, Source.toTable, TableRef.flow_of_columns (by decide)]
    rfl
  · rw [Engine.outcome_interpret, run_eq_flow, flow, Source.toTable,
      TableRef.flow_of_columns (by decide)]
    rfl

end Plan

end Tabula
