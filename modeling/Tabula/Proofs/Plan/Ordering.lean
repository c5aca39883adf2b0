import Tabula.Proofs.Plan.Deferral
import Tabula.Proofs.Row.Leading

/-!
Plans that end in an ordering. Over the same rows in any two orders, and as long as no ranking comes
before the ordering, they give the same rows, and the keys come out in the same order up to the first
column that holds a double that is no number. In that column nulls are still last, but the keys before
them may stand in another order for each order of the source.
-/

namespace Tabula

/-- Where nothing is read through windows, no value reaches one. -/
theorem noNaNFrom_of_unread {keys : Operator → List String} {os : List Operator}
    (h : ∀ o ∈ os, keys o = []) (order : RowOrder) (position : Nat) (columns : List String)
    (rows : List Row) : noNaNFrom keys order (stepsFrom position columns os) rows = true := by
  induction os generalizing position columns rows with
  | nil => rfl
  | cons o os ih =>
      rw [List.forall_mem_cons] at h
      rw [stepsFrom, noNaNFrom, h.1, Bool.and_eq_true]
      refine ⟨by simp, ?_⟩
      split
      · exact ih h.2 _ _ _
      · rfl

theorem Plan.noNaN_of_unread {p : Plan} {keys : Operator → List String}
    (h : ∀ o ∈ p.operators, keys o = []) (t : Table) (order : RowOrder) :
    p.noNaN keys t order = true := by
  rw [noNaN]
  split
  · exact noNaNFrom_of_unread h order _ _ _
  · rfl

/-- Where no value is read through a window, the same rows come out for the source in any order. -/
theorem Plan.Made.rows_perm {p : Plan} (hp : p.Made)
    (hwindows : ∀ name value w, Operator.extend name value (some w) ∉ p.operators) {t t' : Table}
    (ht : t.Supported) (hcolumns : t.columns = t'.columns) (hperm : t.rows.Perm t'.rows)
    {order order' : RowOrder} {rows rows' : List Row} (h : p.rows t order = .ok rows)
    (h' : p.rows t' order' = .ok rows') : rows.Perm rows' := by
  have hunread : ∀ o ∈ p.operators, o.windowColumns = [] := by
    intro o ho
    cases o with
    | extend name value window =>
        cases window with
        | none => rfl
        | some w => exact absurd ho (hwindows name value w)
    | _ => rfl
  have hsame := hp.sameRows (fun name w => hwindows name _ w) ht hcolumns hperm order order'
    (noNaN_of_unread hunread t order)
  rwa [h, h'] at hsame

section Ordering

variable {table : TableRef} {before : List Operator} {terms : List OrderTerm} {t : Table}
  {order : RowOrder} {rows : List Row}

/-- The rows of a plan that ends in an ordering are those that reach it, sorted. -/
theorem Plan.Made.exists_sorted (hp : Plan.Made ⟨table, before ++ [.orderBy terms]⟩)
    (ht : t.Supported) (h : Plan.rows ⟨table, before ++ [.orderBy terms]⟩ t order = .ok rows) :
    ∃ between, Plan.rows ⟨table, before⟩ t order = .ok between ∧
      sortRows terms between = .ok rows ∧
      ∀ term ∈ terms, ∀ r ∈ between, r.Has Value.Supported term.column := by
  obtain ⟨scanned, hscanned, hsteps⟩ : ∃ scanned, table.rows t = .ok scanned ∧
      rowsThrough order 1 table.columns (before ++ [.orderBy terms]) scanned = .ok rows :=
    Plan.rows_eq_ok.1 h
  obtain ⟨between, hbetween, hsteps⟩ := rowsThrough_append_eq_ok.1 hsteps
  obtain ⟨sorted, hsorted, hlast⟩ := bind_eq_ok.1 hsteps
  obtain rfl := Except.ok.inj hlast
  obtain ⟨-, hordering, -⟩ := fitChain_append.1 hp.fitChain
  have hrows : Plan.rows ⟨table, before⟩ t order = .ok between :=
    Plan.rows_eq_ok.2 ⟨scanned, hscanned, hbetween⟩
  have hover : ∀ r ∈ between, r.Over (Plan.columnsAfter table.columns before) :=
    (hp.of_append.ends_flow ht order).of_eq_ok (Plan.toResult_flow_eq_ok.2 hrows)
  exact ⟨between, hrows, mapError_eq_ok.1 hsorted,
    fun term hterm r hr => (hover r hr).has (hordering term hterm)⟩

end Ordering

/-- What of an ordering does not depend on the order of the source. Two runs that succeed over
tables with the same rows in any two orders give the same rows; the keys of the terms in front come
out the same as long as none of them is a double that is no number; and among the rows that these
terms do not tell apart, nulls are last under the next term, whatever else its column holds. -/
theorem Plan.Made.run_ordered {p : Plan} (hp : p.Made) {before : List Operator}
    {terms : List OrderTerm} (hoperators : p.operators = before ++ [.orderBy terms])
    (hbefore : ∀ name value w, Operator.extend name value (some w) ∉ before)
    {t t' : Table} (ht : t.Supported) (hcolumns : t.columns = t'.columns)
    (hperm : t.rows.Perm t'.rows) {order order' : RowOrder} {out out' : Table}
    (hout : p.run (.table t) order = .ok out) (hout' : p.run (.table t') order' = .ok out') :
    out.rows.Perm out'.rows ∧
    (∀ firsts rest, terms = firsts ++ rest →
      (∀ term ∈ firsts, ∀ r ∈ out.rows, (r.getD term.column).isNaN = false) →
        List.Forall₂ (fun r s => r.sameKeys firsts s = true) out.rows out'.rows) ∧
    ∀ firsts term rest, terms = firsts ++ term :: rest →
      (∀ first ∈ firsts, ∀ r ∈ out.rows, (r.getD first.column).isNaN = false) →
        out.rows.Pairwise fun r s => r.sameKeys firsts s = true →
          (r.getD term.column).isNull = true → (s.getD term.column).isNull = true := by
  obtain ⟨table, operators⟩ := p
  obtain rfl : operators = before ++ [.orderBy terms] := hoperators
  have ht' : t'.Supported := fun r hr => ht r (hperm.symm.subset hr)
  obtain ⟨rows, hrows, rfl⟩ := run_eq_ok.1 hout
  obtain ⟨rows', hrows', rfl⟩ := run_eq_ok.1 hout'
  obtain ⟨between, hbetween, hsorted, hhas⟩ := hp.exists_sorted ht hrows
  obtain ⟨between', hbetween', hsorted', -⟩ := hp.exists_sorted ht' hrows'
  -- the same rows reach the ordering
  have hsame : between.Perm between' :=
    hp.of_append.rows_perm hbefore ht hcolumns hperm hbetween hbetween'
  have hout := (sortItems_perm hhas hsorted).1
  have hhas' : ∀ term ∈ terms, ∀ r ∈ between', r.Has Value.Supported term.column :=
    fun term hterm r hr => hhas term hterm r (hsame.symm.subset hr)
  have hout' := (sortItems_perm hhas' hsorted').1
  have hplain {firsts rest : List OrderTerm} (hterms : terms = firsts ++ rest)
      (hn : ∀ term ∈ firsts, ∀ r ∈ rows, (r.getD term.column).isNaN = false) :
      ∀ term ∈ firsts, ∀ r ∈ between, r.Has Value.Plain term.column := by
    intro term hterm r hr
    have hmem : term ∈ terms := hterms ▸ List.mem_append_left _ hterm
    exact (hhas term hmem r hr).plain (hn term hterm r (hout.symm.subset hr))
  refine ⟨hout.trans (hsame.trans hout'.symm), ?_, ?_⟩
  · intro firsts rest hterms hn
    have hfirsts := hplain hterms hn
    subst hterms
    exact sameKeys_of_perm hhas hfirsts hsame hsorted hsorted'
  · intro firsts term rest hterms hn
    have hfirsts := hplain hterms hn
    subst hterms
    exact nullsLast_sortRows hhas hfirsts hsorted

/-- Two values of one run, the first a double that is no number. -/
def measures : Table :=
  ⟨["run", "value"], [⟨[("run", .int 1), ("value", .float (0.0 / 0.0))]⟩,
    ⟨[("run", .int 1), ("value", .float 1.0)]⟩]⟩

def measuresBack : Table := ⟨measures.columns, measures.rows.reverse⟩

def orderedMeasures (terms : List OrderTerm) : Plan :=
  ⟨⟨"measures", measures.columns, false⟩, [.orderBy terms]⟩

theorem made_orderedMeasures {terms : List OrderTerm} (hne : terms ≠ [])
    (hterms : ∀ t ∈ terms, t.column ∈ measures.columns) : (orderedMeasures terms).Made := by
  have htable : TableRef.make "measures" [.str "run", .str "value"] false =
      .ok (orderedMeasures terms).table := rfl
  exact (Plan.Made.table htable).add (d := .orderBy terms)
    (Plan.add_of_check rfl (check_orderBy_eq_ok.2 ⟨hne, hterms, rfl⟩))

theorem run_orderedMeasures {terms : List OrderTerm} {t : Table}
    (ht : t = measures ∨ t = measuresBack) (h : sortRows terms t.rows = .ok t.rows)
    (order : RowOrder) : (orderedMeasures terms).run (.table t) order = .ok t := by
  have hscan : (orderedMeasures terms).table.rows t = .ok t.rows := by
    refine TableRef.rows_eq_ok.2 ?_
    rcases ht with rfl | rfl <;> exact ⟨fun _ hc => hc, rfl⟩
  have hcolumns : (orderedMeasures terms).columns = t.columns := by
    rcases ht with rfl | rfl <;> rfl
  refine Plan.run_eq_ok.2 ⟨t.rows, Plan.rows_eq_ok.2 ⟨t.rows, hscan, bind_eq_ok.2
    ⟨t.rows, ?_, rfl⟩⟩, ?_⟩
  · exact (mapError_eq_ok (g := (·.at (some 1)))).2 h
  · rw [hcolumns]

/-- Two rows of one run stay as they are. -/
theorem sortRows_run {r s : Row} (hr : r.get? "run" = some (.int 1))
    (hs : s.get? "run" = some (.int 1)) : sortRows [⟨"run", false⟩] [r, s] = .ok [r, s] := by
  have hplain : ∀ t ∈ [OrderTerm.mk "run" false], ∀ a ∈ [r, s], (id a).Has Value.Plain t.column := by
    simp [Row.Has, hr, hs, show (Value.int 1).Plain by decide]
  have hcomparable : ∀ t ∈ [OrderTerm.mk "run" false], ComparableIn ([r, s].map id) t.column := by
    simp [ComparableIn, Row.getD, hr, hs, show (Value.int 1).Comparable (.int 1) by decide +kernel]
  rw [sortRows, sortItems_eq_inOrder hplain hcomparable]
  refine congrArg Except.ok ((mergeSort_pair _ _ _).trans (if_pos ?_))
  simp only [id, precedes, Row.getD, hr, hs]
  decide +kernel

/-- The rows have the same run, and in the other column there is a double that is no number. -/
theorem Plan.Made.run_ordered_measures :
    let p := orderedMeasures [⟨"run", false⟩, ⟨"value", false⟩]
    p.run (.table measures) .input = .ok measures ∧
      p.run (.table measuresBack) .partition = .ok measuresBack ∧
      List.Forall₂ (fun r s => r.sameKeys [⟨"run", false⟩] s = true) measures.rows
        measuresBack.rows ∧
      measures.rows.Pairwise fun r s => r.sameKeys [⟨"run", false⟩] s = true →
        (r.getD "value").isNull = true → (s.getD "value").isNull = true := by
  intro p
  have hp : p.Made := made_orderedMeasures (by simp) (by decide)
  have hterms : [OrderTerm.mk "run" false, ⟨"value", false⟩] =
      [⟨"run", false⟩] ++ [⟨"value", false⟩] := rfl
  have hout : p.run (.table measures) .input = .ok measures :=
    run_orderedMeasures (.inl rfl) (hterms ▸ sortRows_append_eq_ok.2
      ⟨measures.rows, rfl, sortRows_run rfl rfl⟩) .input
  have hout' : p.run (.table measuresBack) .partition = .ok measuresBack :=
    run_orderedMeasures (.inr rfl) (hterms ▸ sortRows_append_eq_ok.2
      ⟨measuresBack.rows, rfl, sortRows_run rfl rfl⟩) .partition
  have ht : measures.Supported := by decide +kernel
  have hruns : ∀ term ∈ [OrderTerm.mk "run" false], ∀ r ∈ measures.rows,
      (r.getD term.column).isNaN = false := by decide +kernel
  have hoperators : p.operators = [] ++ [.orderBy [⟨"run", false⟩, ⟨"value", false⟩]] := rfl
  have hcolumns : measures.columns = measuresBack.columns := rfl
  have hperm : measures.rows.Perm measuresBack.rows := (List.reverse_perm _).symm
  obtain ⟨-, hsame, hnulls⟩ := hp.run_ordered hoperators (by simp) ht hcolumns hperm hout hout'
  exact ⟨hout, hout', hsame [⟨"run", false⟩] [⟨"value", false⟩] rfl hruns,
    hnulls [⟨"run", false⟩] ⟨"value", false⟩ [] rfl hruns⟩

/-- Of a number and a double that is no number, each comes first in one of two runs over the same
rows. -/
theorem run_ordered_unordered :
    let p := orderedMeasures [⟨"value", false⟩]
    p.Made ∧ measures.Supported ∧ measures.rows.Perm measuresBack.rows ∧
      p.run (.table measures) .input = .ok measures ∧
      p.run (.table measuresBack) .input = .ok measuresBack ∧
      measures.rows.map (fun r => (r.getD "value").isNaN) = [true, false] ∧
      measuresBack.rows.map (fun r => (r.getD "value").isNaN) = [false, true] := by
  intro p
  refine ⟨made_orderedMeasures (by simp) (by decide), by decide +kernel,
    (List.reverse_perm _).symm, ?_, ?_, by decide +kernel, by decide +kernel⟩
  · exact run_orderedMeasures (.inl rfl) rfl .input
  · exact run_orderedMeasures (.inr rfl) rfl .input

end Tabula
