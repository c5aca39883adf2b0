import Tabula.Proofs.Plan.Safety
import Tabula.Proofs.Row.Reordered

/-!
Runs over rearranged rows. As long as no ranking numbers rows one by one, every step over the same
rows in another order gives the same rows in some order, or fails for both. So a run does not depend
on the order of the rows of its source, nor on the order in which rankings give their rows.
-/

namespace Tabula

/-- Both fail, or both give the same rows, perhaps in another order. -/
def SameRows : Result (List Row) → Result (List Row) → Prop
  | .ok out, .ok out' => out.Perm out'
  | .error _, .error _ => True
  | _, _ => False

namespace SameRows

variable {x x' : Result (List Row)}

theorem of_forall (h : ∀ out, x = .ok out → ∃ out', x' = .ok out' ∧ out.Perm out')
    (h' : ∀ out', x' = .ok out' → ∃ out, x = .ok out ∧ out'.Perm out) : SameRows x x' := by
  cases x with
  | ok out =>
      obtain ⟨out', rfl, hperm⟩ := h out rfl
      exact hperm
  | error e =>
      cases x' with
      | ok out' =>
          obtain ⟨out, hout, _⟩ := h' out' rfl
          cases hout
      | error e' => exact trivial

theorem bind (h : SameRows x x') {f f' : List Row → Result (List Row)}
    (hf : ∀ out out', x = .ok out → out.Perm out' → SameRows (f out) (f' out')) :
    SameRows (x >>= f) (x' >>= f') := by
  cases x with
  | ok out =>
      cases x' with
      | ok out' => exact hf out out' rfl h
      | error e' => exact absurd h id
  | error e =>
      cases x' with
      | ok out' => exact absurd h id
      | error e' => exact trivial

theorem congr {y y' : Result (List Row)} (h : SameRows x x')
    (hy : ∀ out, y = .ok out ↔ x = .ok out) (hy' : ∀ out, y' = .ok out ↔ x' = .ok out) :
    SameRows y y' := by
  cases x with
  | ok out =>
      cases x' with
      | ok out' =>
          rw [(hy out).2 rfl, (hy' out').2 rfl]
          exact h
      | error e' => exact absurd h id
  | error e =>
      cases x' with
      | ok out' => exact absurd h id
      | error e' =>
          refine of_forall (fun out hout => ?_) fun out hout => ?_
          · cases (hy out).1 hout
          · cases (hy' out).1 hout

end SameRows

section Steps

variable {rows rows' : List Row}

theorem keepRows_perm {keep : Row → Result Bool} (hperm : rows.Perm rows') {out : List Row}
    (h : keepRows keep rows = .ok out) :
    ∃ out', keepRows keep rows' = .ok out' ∧ out.Perm out' := by
  induction hperm generalizing out with
  | nil => exact ⟨out, h, .refl _⟩
  | cons r _ ih =>
      obtain ⟨kept, others, hkept, hothers, rfl⟩ := keepRows_cons_eq_ok.1 h
      obtain ⟨others', hothers', hperm⟩ := ih hothers
      refine ⟨_, keepRows_cons_eq_ok.2 ⟨kept, others', hkept, hothers', rfl⟩, ?_⟩
      cases kept with
      | true => exact hperm.cons r
      | false => exact hperm
  | swap r s rest =>
      obtain ⟨kept, later, hkept, hlater, rfl⟩ := keepRows_cons_eq_ok.1 h
      obtain ⟨kept', others, hkept', hothers, rfl⟩ := keepRows_cons_eq_ok.1 hlater
      -- the two rows are decided one by one, in either order
      have hcons := keepRows_cons_eq_ok.2 ⟨kept, others, hkept, hothers, rfl⟩
      refine ⟨_, keepRows_cons_eq_ok.2 ⟨kept', _, hkept', hcons, rfl⟩, ?_⟩
      cases kept with
      | true =>
          cases kept' with
          | true => exact .swap r s others
          | false => exact .refl _
      | false => cases kept' <;> exact .refl _
  | trans _ _ ih ih' =>
      obtain ⟨out', h', hperm⟩ := ih h
      obtain ⟨out'', h'', hperm'⟩ := ih' h'
      exact ⟨out'', h'', hperm.trans hperm'⟩

variable {columns : List String} {o : Operator} {position : Nat}

theorem PlanStep.rows_perm (ho : o.Fits columns)
    (hf : ∀ name w, o ≠ .extend name (.ranking .rowNumber) (some w))
    (hrows : ∀ r ∈ rows, r.Over columns)
    (hn : ∀ r ∈ rows, ∀ c ∈ o.windowColumns, (r.getD c).isNaN = false)
    (hperm : rows.Perm rows') {order order' : RowOrder} {out : List Row}
    (h : PlanStep.rows ⟨position, o, columns, o.output columns⟩ order rows = .ok out) :
    ∃ out', PlanStep.rows ⟨position, o, columns, o.output columns⟩ order' rows' = .ok out' ∧
      out.Perm out' := by
  rcases o with ⟨name, value, _ | window⟩ | condition | terms | selected | dropped | _
  · exact mapM_eq_ok_of_perm hperm h
  · obtain ⟨⟨f, rfl⟩, hcolumns⟩ := ho
    refine RankedWindow.rows_perm (w := ⟨name, f, window, position⟩) ?_ ?_ hperm h
    · rintro rfl
      exact hf name window rfl
    · exact fun r hr c hc => (hrows r hr).plain (hcolumns c hc) (hn r hr c hc)
  · exact keepRows_perm hperm h
  · obtain ⟨out', hout', hperm'⟩ := sortRows_perm
      (fun t ht r hr => (hrows r hr).has (ho t ht)) hperm (mapError_eq_ok.1 h)
    exact ⟨out', mapError_eq_ok.2 hout', hperm'⟩
  · exact mapM_eq_ok_of_perm hperm h
  · exact mapM_eq_ok_of_perm hperm h
  · cases h
    exact ⟨rows', rfl, hperm⟩

theorem PlanStep.sameRows (position : Nat) (ho : o.Fits columns)
    (hf : ∀ name w, o ≠ .extend name (.ranking .rowNumber) (some w))
    (hrows : ∀ r ∈ rows, r.Over columns)
    (hn : ∀ r ∈ rows, ∀ c ∈ o.windowColumns, (r.getD c).isNaN = false)
    (hperm : rows.Perm rows') (order order' : RowOrder) :
    SameRows (PlanStep.rows ⟨position, o, columns, o.output columns⟩ order rows)
      (PlanStep.rows ⟨position, o, columns, o.output columns⟩ order' rows') := by
  refine .of_forall (fun out h => rows_perm ho hf hrows hn hperm h) fun out' h' => ?_
  refine rows_perm ho hf ?_ ?_ hperm.symm h'
  · exact fun r hr => hrows r (hperm.symm.subset hr)
  · exact fun r hr => hn r (hperm.symm.subset hr)

theorem sameRows_steps {os : List Operator} (hos : FitChain columns os)
    (hf : ∀ name w, Operator.extend name (.ranking .rowNumber) (some w) ∉ os)
    (hrows : ∀ r ∈ rows, r.Over columns) (order order' : RowOrder)
    (hn : noNaNFrom Operator.windowColumns order (stepsFrom position columns os) rows = true)
    (hperm : rows.Perm rows') :
    SameRows
      ((stepsFrom position columns os).foldlM (fun rows s => s.rows order rows) rows)
      ((stepsFrom position columns os).foldlM (fun rows s => s.rows order' rows) rows') := by
  induction os generalizing position columns rows rows' with
  | nil => exact hperm
  | cons o os ih =>
      -- what reaches the later steps is known of one run only, the other has the same rows
      obtain ⟨hn, hrest⟩ := noNaNFrom_cons hn
      simp only [List.mem_cons, not_or] at hf
      have hstep := PlanStep.sameRows position hos.1
        (fun name w heq => (hf name w).1 heq.symm) hrows hn hperm order order'
      rw [stepsFrom, List.foldlM_cons, List.foldlM_cons]
      refine hstep.bind fun out out' hout hperm' => ?_
      exact ih hos.2 (fun name w => (hf name w).2) (PlanStep.over_rows hos.1 hrows hout)
        (hrest out hout) hperm'

end Steps

theorem TableRef.rows_perm {ref : TableRef} {t t' : Table} (hcolumns : t.columns = t'.columns)
    (hperm : t.rows.Perm t'.rows) {out : List Row} (h : ref.rows t = .ok out) :
    ∃ out', ref.rows t' = .ok out' ∧ out.Perm out' := by
  obtain ⟨hall, hrows⟩ := TableRef.rows_eq_ok.1 h
  obtain ⟨out', hout', hperm'⟩ := mapM_eq_ok_of_perm hperm hrows
  exact ⟨out', TableRef.rows_eq_ok.2 ⟨hcolumns ▸ hall, hout'⟩, hperm'⟩

theorem Plan.Made.sameRows {p : Plan} (hp : p.Made)
    (hf : ∀ name w, Operator.extend name (.ranking .rowNumber) (some w) ∉ p.operators)
    {t t' : Table} (ht : t.Supported) (hcolumns : t.columns = t'.columns)
    (hperm : t.rows.Perm t'.rows) (order order' : RowOrder)
    (hn : p.noNaN Operator.windowColumns t order = true) :
    SameRows (p.rows t order) (p.rows t' order') := by
  have hscan : SameRows (p.table.rows t) (p.table.rows t') :=
    .of_forall (fun _ h => TableRef.rows_perm hcolumns hperm h)
      fun _ h => TableRef.rows_perm hcolumns.symm hperm.symm h
  rw [Plan.rows, Plan.rows]
  refine hscan.bind fun out out' hout hperm' => ?_
  rw [Plan.noNaN, hout] at hn
  exact sameRows_steps hp.fitChain hf (TableRef.over_rows ht hout) order order' hn hperm'

end Tabula
