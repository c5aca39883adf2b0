import Tabula.Proofs.Plan.Permutation
import Tabula.Proofs.Plan.Staging

/-!
Orderings put off. Operators that go row by row, whatever the order of the rows, and leave the
columns of an ordering as they are can as well come before it: a stable sort of what they leave of
the rows is what they leave of the sorted rows. So where nothing else follows an ordering, it can be
moved to the end of the plan, and a run that succeeds gives the same rows in the same order.
-/

namespace Tabula

/-- The operator leaves the columns of the ordering as they are, and what it does to a row does not
depend on the order of the rows. -/
def Operator.Spares (terms : List OrderTerm) : Operator → Prop
  | extend name value (some _) => value ≠ .ranking .rowNumber ∧ ∀ t ∈ terms, t.column ≠ name
  | extend name _ none => ∀ t ∈ terms, t.column ≠ name
  | selectRows _ => True
  | selectColumns selected => ∀ t ∈ terms, t.column ∈ selected
  | dropColumns dropped => ∀ t ∈ terms, t.column ∉ dropped
  | orderBy _ | materialize .. => False

theorem Operator.Spares.kept {terms : List OrderTerm} {columns : List String} {o : Operator}
    (h : o.Spares terms) (hterms : ∀ t ∈ terms, t.column ∈ columns) :
    ∀ t ∈ terms, t.column ∈ o.output columns := by
  intro t ht
  cases o with
  | extend name value window =>
      rw [output]
      split
      · exact hterms t ht
      · exact List.mem_append_left _ (hterms t ht)
  | selectRows condition => exact hterms t ht
  | selectColumns selected => exact h t ht
  | dropColumns dropped => exact List.mem_filter.2 ⟨hterms t ht, by simpa using h t ht⟩
  | orderBy _ | materialize _ _ => exact absurd h id

theorem Operator.Spares.isTerminal {terms : List OrderTerm} {o : Operator} (h : o.Spares terms) :
    o.isTerminal = false := by
  cases o with
  | materialize _ _ => exact absurd h id
  | _ => rfl

theorem kept_columnsAfter {terms : List OrderTerm} {columns : List String} {os : List Operator}
    (hos : ∀ o ∈ os, o.Spares terms) (hterms : ∀ t ∈ terms, t.column ∈ columns) :
    ∀ t ∈ terms, t.column ∈ Plan.columnsAfter columns os := by
  induction os generalizing columns with
  | nil => exact hterms
  | cons o os ih =>
      rw [List.forall_mem_cons] at hos
      exact ih hos.2 (hos.1.kept hterms)

/-! ### Row by row -/

section RowByRow

variable {terms : List OrderTerm} {rows out : List Row}

theorem mapM_eq_ok_filterMap {g : Row → Result Row} :
    rows.mapM g = .ok out ↔
      (∀ r ∈ rows, ∃ s, g r = .ok s) ∧ out = rows.filterMap fun r => (g r).toOption := by
  induction rows generalizing out with
  | nil => simp [pure, Except.pure, eq_comm]
  | cons r rest ih =>
      rw [mapM_cons_eq_ok, List.forall_mem_cons, List.filterMap_cons]
      constructor
      · rintro ⟨s, others, hs, hothers, rfl⟩
        obtain ⟨hall, rfl⟩ := ih.1 hothers
        rw [hs]
        exact ⟨⟨⟨s, rfl⟩, hall⟩, rfl⟩
      · rintro ⟨⟨⟨s, hs⟩, hall⟩, rfl⟩
        rw [hs]
        exact ⟨s, _, rfl, ih.2 ⟨hall, rfl⟩, rfl⟩

/-- The row itself if it is kept. -/
def kept? (keep : Row → Result Bool) (r : Row) : Option Row :=
  if (keep r).toOption = some true then some r else none

theorem keepRows_eq_ok_filterMap {keep : Row → Result Bool} :
    keepRows keep rows = .ok out ↔
      (∀ r ∈ rows, ∃ b, keep r = .ok b) ∧ out = rows.filterMap (kept? keep) := by
  induction rows generalizing out with
  | nil => simp [keepRows, eq_comm]
  | cons r rest ih =>
      rw [keepRows_cons_eq_ok, List.forall_mem_cons, List.filterMap_cons, kept?]
      constructor
      · rintro ⟨kept, others, hkept, hothers, rfl⟩
        obtain ⟨hall, rfl⟩ := ih.1 hothers
        refine ⟨⟨⟨kept, hkept⟩, hall⟩, ?_⟩
        rw [hkept]
        cases kept <;> rfl
      · rintro ⟨⟨⟨kept, hkept⟩, hall⟩, rfl⟩
        refine ⟨kept, _, hkept, ih.2 ⟨hall, rfl⟩, ?_⟩
        rw [hkept]
        cases kept <;> rfl

/-- What becomes of a row, if it is not left out, reads the same in the columns of the ordering. -/
def KeepsTerms (terms : List OrderTerm) (f : Row → Option Row) : Prop :=
  ∀ r s, f r = some s → ∀ t ∈ terms, s.getD t.column = r.getD t.column

theorem KeepsTerms.of_set {name : String} (hname : ∀ t ∈ terms, t.column ≠ name)
    {f : Row → Option Row} (hf : ∀ r s, f r = some s → ∃ v, s = r.set name v) :
    KeepsTerms terms f := by
  intro r s hs t ht
  obtain ⟨v, rfl⟩ := hf r s hs
  exact Row.getD_congr (Row.get?_set_of_ne r v (hname t ht))

theorem KeepsTerms.of_cut {names : List String} (hterms : ∀ t ∈ terms, t.column ∈ names) :
    KeepsTerms terms fun r => (r.cut names).toOption := by
  intro r s hs t ht
  have hpick : s = r.pick names :=
    Row.eq_pick_of_project (mapError_eq_ok.1 (toOption_eq_some.1 hs))
  rw [hpick]
  exact Row.getD_congr (Row.get?_pick_of_mem (hterms t ht))

theorem keepsTerms_kept? (keep : Row → Result Bool) : KeepsTerms terms (kept? keep) := by
  intro r s hs t _
  unfold kept? at hs
  split at hs
  · cases hs
    rfl
  · cases hs

/-- Ranks that do not depend on places are put into the rows one by one. -/
theorem RankedWindow.rows_eq_filterMap {w : RankedWindow} (hf : w.ranking ≠ .rowNumber)
    (h : w.window.Readable rows) (hout : w.rows .input rows = .ok out) {rows' : List Row}
    (hperm : rows.Perm rows') :
    w.rows .input rows' = .ok (rows'.filterMap fun r =>
      some (r.set w.name (.int (w.window.rankOf w.ranking rows 0 r)))) := by
  have ho := orderable_of_rows_eq_ok h hout
  rw [rows_eq (h.of_perm hperm) (ho.of_perm hperm), List.filterMap_eq_map', ← map_zipIdx_row]
  refine congrArg Except.ok (List.map_congr_left fun m _ => ?_)
  rw [numbered, Window.rankOf_perm hf h hperm 0 m.2]

variable {columns : List String} {o : Operator} {position : Nat}

/-- An operator that spares the ordering and succeeds goes row by row, also through the rows in any
other order. -/
theorem PlanStep.exists_rowwise (ho : o.Fits columns) (hspares : o.Spares terms)
    (hterms : ∀ t ∈ terms, t.column ∈ columns) (hrows : ∀ r ∈ rows, r.Over columns)
    (hn : ∀ r ∈ rows, ∀ c ∈ o.windowColumns, (r.getD c).isNaN = false)
    (h : PlanStep.rows ⟨position, o, columns, o.output columns⟩ .input rows = .ok out) :
    ∃ f, KeepsTerms terms f ∧ ∀ rows', rows.Perm rows' →
      PlanStep.rows ⟨position, o, columns, o.output columns⟩ .input rows' =
        .ok (rows'.filterMap f) := by
  have hkept := hspares.kept hterms
  have hmap {g : Row → Result Row} (hg : rows.mapM g = .ok out) {rows' : List Row}
      (hperm : rows.Perm rows') :
      rows'.mapM g = .ok (rows'.filterMap fun r => (g r).toOption) :=
    mapM_eq_ok_filterMap.2
      ⟨fun r hr => (mapM_eq_ok_filterMap.1 hg).1 r (hperm.symm.subset hr), rfl⟩
  rcases o with ⟨name, value, _ | window⟩ | condition | terms' | selected | dropped | _
  · refine ⟨_, .of_set hspares fun r s hs => ?_, fun rows' hperm => hmap h hperm⟩
    obtain ⟨v, _, hv⟩ := Row.extend_eq_ok.1 (toOption_eq_some.1 hs)
    exact ⟨v, hv⟩
  · obtain ⟨⟨f, rfl⟩, hcolumns⟩ := ho
    have hf : f ≠ .rowNumber := by
      rintro rfl
      exact hspares.1 rfl
    have hreadable : window.Readable rows :=
      fun r hr c hc => (hrows r hr).plain (hcolumns c hc) (hn r hr c hc)
    refine ⟨_, .of_set hspares.2 fun r s hs => ?_, fun rows' hperm =>
      RankedWindow.rows_eq_filterMap (w := ⟨name, f, window, position⟩) hf hreadable h hperm⟩
    exact ⟨_, (Option.some.inj hs).symm⟩
  · refine ⟨_, keepsTerms_kept? _, fun rows' hperm => keepRows_eq_ok_filterMap.2 ⟨?_, rfl⟩⟩
    exact fun r hr => (keepRows_eq_ok_filterMap.1 h).1 r (hperm.symm.subset hr)
  · exact absurd hspares id
  · exact ⟨_, .of_cut hkept, fun rows' hperm => hmap h hperm⟩
  · exact ⟨_, .of_cut hkept, fun rows' hperm => hmap h hperm⟩
  · exact absurd hspares id

end RowByRow

/-! ### Sorted rows -/

/-- The rows in the stable order of the terms. -/
def sortedBy (terms : List OrderTerm) (rows : List Row) : List Row :=
  stableSort (Row.isAhead terms) rows

/-- The rows can be sorted by the terms: all have the columns, with values in them that are equal to
themselves and can be ordered together. -/
structure Sortable (terms : List OrderTerm) (columns : List String) (rows : List Row) : Prop where
  shaped : ∀ r ∈ rows, r.Over columns
  kept : ∀ t ∈ terms, t.column ∈ columns
  plain : ∀ t ∈ terms, ∀ r ∈ rows, (r.getD t.column).isNaN = false
  comparable : ∀ t ∈ terms, ComparableIn rows t.column

section Sorted

variable {terms : List OrderTerm} {columns : List String} {rows out : List Row} {o : Operator}
  {os : List Operator} {position : Nat}

theorem Sortable.sortRows_eq (h : Sortable terms columns rows) :
    sortRows terms rows = .ok (sortedBy terms rows) :=
  sortItems_eq (fun t ht r hr => (h.shaped r hr).plain (h.kept t ht) (h.plain t ht r hr))
    (by simpa using h.comparable)

/-- Rows that were sorted could be sorted. -/
theorem Sortable.of_sortRows (hover : ∀ r ∈ rows, r.Over columns)
    (hkept : ∀ t ∈ terms, t.column ∈ columns)
    (hplain : ∀ t ∈ terms, ∀ r ∈ rows, (r.getD t.column).isNaN = false)
    (h : sortRows terms rows = .ok out) : Sortable terms columns rows := by
  refine ⟨hover, hkept, hplain, ?_⟩
  have hsorted := (sortItems_perm (fun t ht r hr => (hover r hr).has (hkept t ht)) h).2
  simpa using hsorted

/-- Where two rows stand is decided by the columns of the terms. -/
theorem KeepsTerms.isAhead_eq {f : Row → Option Row} (hf : KeepsTerms terms f) {a b a' b' : Row}
    (ha : f a = some a') (hb : f b = some b') :
    Row.isAhead terms a' b' = Row.isAhead terms a b :=
  Row.isAhead_congr (fun t ht => by rw [hf a a' ha t ht]) fun t ht => by rw [hf b b' hb t ht]

theorem KeepsTerms.filterMap_sortedBy {f : Row → Option Row} (hf : KeepsTerms terms f)
    (rows : List Row) : (sortedBy terms rows).filterMap f = sortedBy terms (rows.filterMap f) :=
  filterMap_stableSort (Row.strictWeak_isAhead terms) (Row.strictWeak_isAhead terms)
    hf.isAhead_eq rows

/-- A step through sorted rows gives what it makes of the rows as they were, sorted, and that can be
sorted again. -/
theorem PlanStep.rows_sortedBy (hrows : Sortable terms columns rows) (ho : o.Fits columns)
    (hspares : o.Spares terms)
    (hn : ∀ r ∈ sortedBy terms rows, ∀ c ∈ o.windowColumns, (r.getD c).isNaN = false)
    (h : PlanStep.rows ⟨position, o, columns, o.output columns⟩ .input (sortedBy terms rows) =
      .ok out) :
    ∃ out', PlanStep.rows ⟨position, o, columns, o.output columns⟩ .input rows = .ok out' ∧
      out = sortedBy terms out' ∧ Sortable terms (o.output columns) out' := by
  have hperm : (sortedBy terms rows).Perm rows := stableSort_perm _ rows
  obtain ⟨f, hf, hrowwise⟩ := exists_rowwise ho hspares hrows.kept
    (fun r hr => hrows.shaped r (hperm.subset hr)) hn h
  have hout := hrowwise rows hperm
  rw [hrowwise _ (.refl _), hf.filterMap_sortedBy, Except.ok.injEq] at h
  refine ⟨_, hout, h.symm, over_rows ho hrows.shaped hout, hspares.kept hrows.kept, ?_, ?_⟩
  · intro t ht s hs
    obtain ⟨r, hr, hrs⟩ := List.mem_filterMap.1 hs
    rw [hf r s hrs t ht]
    exact hrows.plain t ht r hr
  · intro t ht s hs s' hs'
    obtain ⟨r, hr, hrs⟩ := List.mem_filterMap.1 hs
    obtain ⟨r', hr', hrs'⟩ := List.mem_filterMap.1 hs'
    rw [hf r s hrs t ht, hf r' s' hrs' t ht]
    exact hrows.comparable t ht r hr r' hr'

/-- A chain of operators that spare the ordering gives of sorted rows what it makes of the rows as
they were, sorted. -/
theorem rowsThrough_sortedBy (hrows : Sortable terms columns rows) (hos : FitChain columns os)
    (hspares : ∀ o ∈ os, o.Spares terms)
    (hn : noNaNFrom Operator.windowColumns .input (stepsFrom position columns os)
      (sortedBy terms rows) = true)
    (h : rowsThrough .input position columns os (sortedBy terms rows) = .ok out) :
    ∃ out', rowsThrough .input position columns os rows = .ok out' ∧ out = sortedBy terms out' ∧
      Sortable terms (Plan.columnsAfter columns os) out' := by
  induction os generalizing position columns rows with
  | nil =>
      cases h
      exact ⟨rows, rfl, rfl, hrows⟩
  | cons o os ih =>
      rw [List.forall_mem_cons] at hspares
      obtain ⟨hn, hrest⟩ := noNaNFrom_cons hn
      obtain ⟨after, hafter, h⟩ := bind_eq_ok.1 h
      obtain ⟨after', hafter', rfl, hsortable⟩ :=
        PlanStep.rows_sortedBy hrows hos.1 hspares.1 hn hafter
      obtain ⟨out', hout', hsorted, hlast⟩ := ih hsortable hos.2 hspares.2 (hrest _ hafter) h
      exact ⟨out', bind_eq_ok.2 ⟨after', hafter', hout'⟩, hsorted, hlast⟩

end Sorted

/-! ### Plans -/

theorem noNaNFrom_append {keys : Operator → List String} {order : RowOrder}
    {steps steps' : List PlanStep} {rows between : List Row}
    (h : noNaNFrom keys order (steps ++ steps') rows = true)
    (hbetween : steps.foldlM (fun rows s => s.rows order rows) rows = .ok between) :
    noNaNFrom keys order steps' between = true := by
  induction steps generalizing rows with
  | nil =>
      cases hbetween
      exact h
  | cons s steps ih =>
      rw [List.foldlM_cons] at hbetween
      obtain ⟨after, hafter, hbetween⟩ := bind_eq_ok.1 hbetween
      exact ih ((noNaNFrom_cons h).2 after hafter) hbetween

namespace Plan

variable {table : TableRef} {before after : List Operator} {terms : List OrderTerm}

/-- The last operator of a plan was checked after the others. -/
theorem Made.exists_check {os : List Operator} {o : Operator} (h : Made ⟨table, os ++ [o]⟩) :
    Made ⟨table, os⟩ ∧ terminal? ⟨table, os⟩ = none ∧
      ∃ d : Draft, d.check (columns ⟨table, os⟩) (some (next ⟨table, os⟩)) = .ok o := by
  generalize hp : Plan.mk table (os ++ [o]) = p at h
  cases h with
  | table _ => simp [ofTable] at hp
  | @add q p d hq hadd =>
      obtain ⟨hopen, o', hcheck, rfl⟩ := add_eq_ok_iff.1 hadd
      obtain ⟨rfl, hoperators⟩ := Plan.mk.inj hp
      obtain ⟨rfl, ho⟩ := List.append_inj' hoperators rfl
      obtain rfl := (List.singleton_inj.1 ho)
      exact ⟨hq, hopen, d, hcheck⟩

theorem Made.of_append {os : List Operator} (h : Made ⟨table, os ++ after⟩) : Made ⟨table, os⟩ := by
  induction after using List.reverseRecOn with
  | nil => rwa [List.append_nil] at h
  | append_singleton after o ih =>
      rw [← List.append_assoc] at h
      exact ih h.exists_check.1

theorem terminal?_eq_none {os : List Operator} (h : ∀ o ∈ os, o.isTerminal = false) :
    terminal? ⟨table, os⟩ = none := by
  rw [terminal?, Option.filter_eq_none_iff]
  intro o ho
  rw [h o (List.mem_of_getLast? ho)]
  exact Bool.false_ne_true

/-- Operators that spare an ordering can be added without it. -/
theorem Made.without_ordering (h : Made ⟨table, before ++ .orderBy terms :: after⟩)
    (hspares : ∀ o ∈ after, o.Spares terms) :
    Made ⟨table, before ++ after⟩ ∧ terminal? ⟨table, before ++ after⟩ = none := by
  have hordering : Made ⟨table, before ++ [.orderBy terms]⟩ := by
    rw [← List.singleton_append, ← List.append_assoc] at h
    exact h.of_append
  obtain ⟨hbefore, hopen, -⟩ := hordering.exists_check
  have hafter {os : List Operator} (hos : ∀ o ∈ os, o.Spares terms) :
      terminal? ⟨table, before ++ os⟩ = none := by
    have hopen' : terminal? ⟨table, os⟩ = none :=
      terminal?_eq_none fun o ho => (hos o ho).isTerminal
    exact terminal?_append hopen hopen'
  refine ⟨?_, hafter hspares⟩
  induction after using List.reverseRecOn with
  | nil => rwa [List.append_nil]
  | append_singleton after o ih =>
      rw [← List.cons_append, ← List.append_assoc] at h
      obtain ⟨hmade, -, d, hcheck⟩ := h.exists_check
      have hfront : ∀ o ∈ after, o.Spares terms := fun o ho => hspares o (List.mem_append_left _ ho)
      -- an ordering changes no columns, so the operator passes the same check
      have hcolumns : columns ⟨table, before ++ .orderBy terms :: after⟩ =
          columns ⟨table, before ++ after⟩ := by
        rw [columns, columns, columnsAfter_append, columnsAfter_append]
        rfl
      rw [hcolumns] at hcheck
      rw [← List.append_assoc]
      exact (ih hmade hfront).add (add_of_check (hafter hfront) (check_eq_ok_at hcheck _))

/-- The ordering can be added after operators that spare it. -/
theorem Made.deferred (h : Made ⟨table, before ++ .orderBy terms :: after⟩)
    (hspares : ∀ o ∈ after, o.Spares terms) :
    Made ⟨table, before ++ after ++ [.orderBy terms]⟩ := by
  obtain ⟨hmade, hopen⟩ := h.without_ordering hspares
  have hne : terms ≠ [] := by
    rintro rfl
    exact h.valid.ordered (by simp)
  obtain ⟨-, hordering, -⟩ := fitChain_append.1 h.fitChain
  have hkept : ∀ t ∈ terms, t.column ∈ columns ⟨table, before ++ after⟩ := by
    rw [columns, columnsAfter_append]
    exact kept_columnsAfter hspares hordering
  exact hmade.add (d := .orderBy terms) (add_of_check hopen
    (check_orderBy_eq_ok.2 ⟨hne, hkept, rfl⟩))

end Plan

/-- An ordering can be put off to the end. Where only operators follow it that spare it, and no
value that it orders by or that a window reads is a double that is no number, the plan with the
ordering moved to its end is made as well, and whenever the run in the order of the input succeeds,
so does the run of that plan, with the same rows in the same order. -/
theorem Plan.Made.run_deferred {p : Plan} (hp : p.Made) {before after : List Operator}
    {terms : List OrderTerm} (hoperators : p.operators = before ++ .orderBy terms :: after)
    (hspares : ∀ o ∈ after, o.Spares terms) {t : Table} (ht : t.Supported)
    (hn : p.noNaN Operator.windowColumns t .input = true)
    (hterms : ∀ rows, Plan.rows ⟨p.table, before⟩ t .input = .ok rows →
      ∀ term ∈ terms, ∀ r ∈ rows, (r.getD term.column).isNaN = false)
    {out : Table} (hout : p.run (.table t) .input = .ok out) :
    (Plan.mk p.table (before ++ after ++ [.orderBy terms])).Made ∧
      (Plan.mk p.table (before ++ after ++ [.orderBy terms])).run (.table t) .input = .ok out := by
  obtain ⟨table, operators⟩ := p
  obtain rfl : operators = before ++ .orderBy terms :: after := hoperators
  have hdeferred := hp.deferred hspares
  refine ⟨hdeferred, ?_⟩
  -- the rows that reach the ordering, and what it and the others make of them
  obtain ⟨final, hfinal, rfl⟩ := run_eq_ok.1 hout
  obtain ⟨scanned, hscanned, hsteps⟩ : ∃ scanned, table.rows t = .ok scanned ∧
      rowsThrough .input 1 table.columns (before ++ .orderBy terms :: after) scanned =
        .ok final := rows_eq_ok.1 hfinal
  obtain ⟨between, hbetween, hsteps⟩ := rowsThrough_append_eq_ok.1 hsteps
  obtain ⟨sorted, hsorted, hafter⟩ := bind_eq_ok.1 hsteps
  obtain ⟨-, hordering, hchain⟩ := fitChain_append.1 hp.fitChain
  have hrows : Plan.rows ⟨table, before⟩ t .input = .ok between :=
    rows_eq_ok.2 ⟨scanned, hscanned, hbetween⟩
  have hover : ∀ r ∈ between, r.Over (columnsAfter table.columns before) :=
    (hp.of_append.ends_flow ht .input).of_eq_ok (toResult_flow_eq_ok.2 hrows)
  have hsortable : Sortable terms (columnsAfter table.columns before) between :=
    .of_sortRows hover hordering (hterms between hrows) (mapError_eq_ok.1 hsorted)
  have hnAfter : noNaNFrom Operator.windowColumns .input
      (stepsFrom (1 + before.length + 1) (columnsAfter table.columns before) after) sorted =
        true := by
    simp only [noNaN, hscanned, steps, stepsFrom_append] at hn
    exact (noNaNFrom_cons (noNaNFrom_append hn hbetween)).2 sorted hsorted
  obtain rfl : sortedBy terms between = sorted :=
    Except.ok.inj (hsortable.sortRows_eq.symm.trans (mapError_eq_ok.1 hsorted))
  obtain ⟨last, hlast, rfl, hsortableLast⟩ :=
    rowsThrough_sortedBy hsortable hchain hspares hnAfter hafter
  -- without the ordering the others give the same rows, which are sorted at the end
  refine run_eq_ok.2 ⟨sortedBy terms last, rows_eq_ok.2 ⟨scanned, hscanned, ?_⟩, ?_⟩
  · refine rowsThrough_append_eq_ok.2 ⟨last, ?_, ?_⟩
    · exact rowsThrough_append_eq_ok.2 ⟨between, hbetween, rowsThrough_eq_ok_at hlast _⟩
    · exact bind_eq_ok.2 ⟨_, mapError_eq_ok.2 hsortableLast.sortRows_eq, rfl⟩
  · simp only [columns, columnsAfter_append]
    rfl

/-- The places of the rows that have points, over rows that were ordered by points before. -/
def orderedPlacings : Plan := ⟨placings.table, .orderBy [⟨"points", true⟩] :: placings.operators⟩

theorem made_orderedPlacings : orderedPlacings.Made := by
  have hordering : (Plan.ofTable placings.table).add (.orderBy [⟨"points", true⟩]) =
      .ok ⟨placings.table, orderedPlacings.operators.take 1⟩ :=
    Plan.add_of_check rfl (check_orderBy_eq_ok.2 ⟨by simp, by decide, rfl⟩)
  have hselection : (Plan.mk placings.table (orderedPlacings.operators.take 1)).add
      (.selectRows (.isNull (.column "points") true)) =
        .ok ⟨placings.table, orderedPlacings.operators.take 2⟩ :=
    Plan.add_of_check rfl (check_selectRows_eq_ok.2 ⟨⟨rfl, by decide⟩, rfl⟩)
  have hranking : (Plan.mk placings.table (orderedPlacings.operators.take 2)).add
      (.extend "place" (.ranking .denseRank) (some ⟨["team"], [⟨"points", true⟩]⟩)) =
        .ok orderedPlacings :=
    Plan.add_of_check rfl (check_extend_eq_ok.2 ⟨by decide, rfl, by decide, rfl⟩)
  exact ((made_scores.add hordering).add hselection).add hranking

/-- Two of the scores, the fewer points first. -/
def fewScores : Table := ⟨scoreTable.columns, scoreTable.rows.drop 2⟩

theorem rows_fewScores : placings.table.rows fewScores = .ok fewScores.rows :=
  TableRef.rows_eq_ok.2 ⟨by decide, rfl⟩

theorem mergeSort_pair {α : Type} (le : α → α → Bool) (a b : α) :
    [a, b].mergeSort le = if le a b then [a, b] else [b, a] := by
  simp [List.mergeSort, List.MergeSort.Internal.splitInTwo, List.merge]

theorem sortRows_fewScores :
    sortRows [⟨"points", true⟩] fewScores.rows = .ok fewScores.rows.reverse := by
  have hplain : ∀ r ∈ fewScores.rows, r.Has Value.Plain "points" := by decide +kernel
  have hcomparable : ∀ r ∈ fewScores.rows, ∀ s ∈ fewScores.rows,
      (r.getD "points").Comparable (s.getD "points") := by decide +kernel
  rw [sortRows, sortItems_eq_inOrder (by simpa using hplain)
    (by simpa [ComparableIn] using hcomparable)]
  refine congrArg Except.ok ((mergeSort_pair _ _ _).trans (if_neg ?_))
  decide +kernel

/-- The ordering turns the scores round. -/
theorem rows_ordering_fewScores :
    PlanStep.rows ⟨1, .orderBy [⟨"points", true⟩], fewScores.columns, fewScores.columns⟩ .input
      fewScores.rows = .ok fewScores.rows.reverse :=
  (mapError_eq_ok (g := (·.at (some 1)))).2 sortRows_fewScores

theorem exists_rows_orderedPlacings :
    ∃ rows, orderedPlacings.rows fewScores .input = .ok rows := by
  obtain ⟨rows, hrows⟩ : ∃ rows, rowsThrough .input 2 fewScores.columns placings.operators
      fewScores.rows.reverse = .ok rows := exists_of_isOk (by decide +kernel)
  exact ⟨rows, Plan.rows_eq_ok.2
    ⟨_, rows_fewScores, bind_eq_ok.2 ⟨_, rows_ordering_fewScores, hrows⟩⟩⟩

theorem noNaN_orderedPlacings :
    orderedPlacings.noNaN Operator.windowColumns fewScores .input = true := by
  have hrest : noNaNFrom Operator.windowColumns .input
      (stepsFrom 2 fewScores.columns placings.operators) fewScores.rows.reverse = true := by
    decide +kernel
  have hscanned : orderedPlacings.table.rows fewScores = .ok fewScores.rows := rows_fewScores
  have hsteps : orderedPlacings.steps =
      ⟨1, .orderBy [⟨"points", true⟩], fewScores.columns, fewScores.columns⟩ ::
        stepsFrom 2 fewScores.columns placings.operators := rfl
  simp only [Plan.noNaN, hscanned, hsteps, noNaNFrom, rows_ordering_fewScores, hrest]
  rfl

theorem Plan.Made.run_deferred_scores :
    ∃ out, orderedPlacings.run (.table fewScores) .input = .ok out ∧
      (Plan.mk placings.table (placings.operators ++ [.orderBy [⟨"points", true⟩]])).run
        (.table fewScores) .input = .ok out := by
  have ht : fewScores.Supported := by decide +kernel
  have hoperators : orderedPlacings.operators =
      [] ++ .orderBy [⟨"points", true⟩] :: placings.operators := rfl
  have hspares : ∀ o ∈ placings.operators, o.Spares [⟨"points", true⟩] := by
    simp [placings, Operator.Spares]
  have hterms : ∀ rows, Plan.rows ⟨placings.table, []⟩ fewScores .input = .ok rows →
      ∀ term ∈ [OrderTerm.mk "points" true], ∀ r ∈ rows, (r.getD term.column).isNaN = false := by
    intro rows hrows
    obtain ⟨scanned, hscanned, hrest⟩ := Plan.rows_eq_ok.1 hrows
    obtain rfl := Except.ok.inj (rows_fewScores.symm.trans hscanned)
    obtain rfl := Except.ok.inj hrest
    decide +kernel
  obtain ⟨rows, hrows⟩ := exists_rows_orderedPlacings
  have hrun : orderedPlacings.run (.table fewScores) .input =
      .ok ⟨orderedPlacings.columns, rows⟩ := Plan.run_of_rows hrows
  exact ⟨_, hrun, (made_orderedPlacings.run_deferred hoperators hspares ht noNaN_orderedPlacings
    hterms hrun).2⟩

end Tabula
