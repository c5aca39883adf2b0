import Tabula.Expr.Eval
import Tabula.Proofs.Row.Shape
import Tabula.Proofs.Value.Operations

/-!
What evaluating ends with. In a row of values that plans compute with, an expression without
rankings over columns of the row has such a value again, or none for a cause that lies in the
values: no column is missed, and a missing order is never the reason.
-/

namespace Tabula

/-- The cause lies in the values that are computed with, not in the plan or in the table. -/
def EvalCause.OfValues : EvalCause → Prop
  | rankingOutsideExtend _ | notWindowed _ | noColumn _ | lacksColumns .. | rowLacksColumn .. =>
      False
  | _ => True

/-- A fault that is told as a cause which lies in the values. -/
def EvalFault.OfValues : EvalFault → Prop
  | cause c => c.OfValues
  | noOrder _ => False

theorem OpFault.IsCause.within {f : OpFault} (h : f.IsCause) (e : Expr) :
    (f.within e).OfValues := by
  cases f with
  | noOrder _ => exact h
  | _ => exact trivial

namespace Expr

/-- The expression ranks nothing and reads only these columns. -/
def Scalar (columns : List String) (e : Expr) : Prop :=
  e.hasRanking = false ∧ ∀ c ∈ e.columns, c ∈ columns

theorem scalar_of_mem {columns : List String} {es : List Expr} (hranking : anyRanking es = false)
    (hreads : ∀ c ∈ columnsOf es, c ∈ columns) : ∀ e ∈ es, e.Scalar columns := by
  rw [anyRanking_eq_any, List.any_eq_false] at hranking
  rw [columnsOf_eq_flatMap] at hreads
  intro e he
  constructor
  · exact Bool.eq_false_iff.2 (hranking e he)
  · exact fun c hc => hreads c (List.mem_flatMap.2 ⟨e, he, hc⟩)

variable {row : Row}

/-- The operation at the top of an expression. -/
theorem ends_within {x : Except OpFault Value} (hx : Value.Sound x) (e : Expr) :
    Ends EvalFault.OfValues Value.Supported (x.mapError (OpFault.within e)) :=
  hx.mapError fun _ hf => hf.within e

theorem ends_eval (hrow : ∀ e ∈ row.cells, e.2.Supported) {e : Expr} (h : e.Scalar row.columns) :
    Ends EvalFault.OfValues Value.Supported (e.eval row) := by
  induction e with
  | column name =>
      obtain ⟨v, hv, hsupported⟩ := Row.has_of_mem hrow (h.2 name (List.mem_singleton.2 rfl))
      rw [eval, hv]
      exact hsupported
  | literal l =>
      rw [eval]
      cases l <;> exact nofun
  | ranking f => cases h.1
  | compare op l r ihl ihr =>
      simp only [Scalar, hasRanking, columns, Bool.or_eq_false_iff, List.forall_mem_append] at h
      rw [eval]
      refine (ihl ⟨h.1.1, h.2.1⟩).bind fun a ha => (ihr ⟨h.1.2, h.2.2⟩).bind fun b _ => ?_
      exact ends_within (Value.sound_comparison op ha) _
  | arith op l r ihl ihr =>
      simp only [Scalar, hasRanking, columns, Bool.or_eq_false_iff, List.forall_mem_append] at h
      rw [eval]
      refine (ihl ⟨h.1.1, h.2.1⟩).bind fun a _ => (ihr ⟨h.1.2, h.2.2⟩).bind fun b _ => ?_
      exact ends_within (Value.sound_arith op a b) _
  | not e ih =>
      rw [eval]
      exact (ih h).bind fun v _ => ends_within (Value.sound_negation v) _
  | junction op a b rest iha ihb ihrest =>
      simp only [Scalar, hasRanking, columns, Bool.or_eq_false_iff, List.forall_mem_append] at h
      have hrest := scalar_of_mem h.1.2 h.2.2
      rw [eval, evalAll_eq_mapM]
      refine (iha ⟨h.1.1.1, h.2.1.1⟩).bind fun v _ => (ihb ⟨h.1.1.2, h.2.1.2⟩).bind fun w _ => ?_
      refine (ends_mapM fun e he => ihrest e he (hrest e he)).bind fun vs _ => ?_
      exact ends_within (Value.sound_junction op _) _
  | isNull e negated ih =>
      rw [eval]
      exact (ih h).bind fun v _ => .pure (Value.supported_bool _)
  | unary f e ih =>
      rw [eval]
      exact (ih h).bind fun v _ => ends_within (Value.sound_unary f v) _
  | round e ih =>
      rw [eval]
      exact (ih h).bind fun v _ => ends_within (Value.sound_round v) _
  | roundTo e p ihe ihp =>
      simp only [Scalar, hasRanking, columns, Bool.or_eq_false_iff, List.forall_mem_append] at h
      rw [eval]
      refine (ihe ⟨h.1.1, h.2.1⟩).bind fun v _ => (ihp ⟨h.1.2, h.2.2⟩).bind fun w _ => ?_
      exact ends_within (Value.sound_roundTo v w) _
  | coalesce a rest iha ihrest =>
      simp only [Scalar, hasRanking, columns, Bool.or_eq_false_iff, List.forall_mem_append] at h
      have hrest := scalar_of_mem h.1.2 h.2.2
      rw [eval, evalAll_eq_mapM]
      refine (iha ⟨h.1.1, h.2.1⟩).bind fun v hv => ?_
      refine (ends_mapM fun e he => ihrest e he (hrest e he)).bind fun vs hvs => .pure ?_
      exact Value.supported_coalesce (List.forall_mem_cons.2 ⟨hv, hvs⟩)

theorem ends_holds (hrow : ∀ e ∈ row.cells, e.2.Supported) {condition : Expr}
    (h : condition.Scalar row.columns) :
    Ends EvalFault.OfValues (fun _ => True) (condition.holds row) := by
  refine (ends_eval hrow h).bind fun v _ => ?_
  cases v <;> exact trivial

end Expr

end Tabula
