import Tabula.Proofs.Plan.Safety
import Tabula.Sql.Print

/-!
The stages at which plans fail. A plan that cannot be compiled always fails with an error of
compiling. A run may fail for other reasons than the plan, but if it fails with an error of the
plan, it is one of evaluating. Neither asks anything of the plan or of the table.
-/

namespace Tabula

namespace Failure

/-- The class of a failure that is an error of a plan. -/
def errorClass? : Failure → Option ErrorClass
  | plan e => some e.cause.errorClass
  | _ => none

/-- If the failure is an error of a plan, then at this stage. -/
def OnlyAt (stage : Stage) (f : Failure) : Prop := ∀ c, f.errorClass? = some c → c.stage = stage

theorem stage_compile (cause : CompileCause) (position : Option Int) :
    ∃ c, (compile cause position).errorClass? = some c ∧ c.stage = .compile := by
  cases cause <;> exact ⟨_, rfl, rfl⟩

theorem onlyAt_eval (cause : EvalCause) (position : Option Int) :
    (eval cause position).OnlyAt .eval := by
  intro c hc
  rw [eval] at hc
  split at hc
  · cases hc
    cases cause <;> rfl
  · cases hc

end Failure

theorem EvalFault.onlyAt_at (fault : EvalFault) (position : Option Int) :
    (fault.at position).OnlyAt .eval := by
  cases fault with
  | cause c => exact Failure.onlyAt_eval c position
  | noOrder clash => exact nofun

theorem SortFault.onlyAt_at (fault : SortFault) (position : Option Int) :
    (fault.at position).OnlyAt .eval := by
  cases fault with
  | clash column c => exact Failure.onlyAt_eval _ position
  | noColumn name => exact nofun

/-! ### Compiling -/

/-- Failures of compiling. -/
def Failure.OfCompiling (f : Failure) : Prop :=
  ∃ c, f.errorClass? = some c ∧ c.stage = .compile

theorem ends_checkOrdering (steps : List PlanStep) :
    Ends Failure.OfCompiling (fun _ => True) (checkOrdering steps) := by
  induction steps with
  | nil => exact trivial
  | cons s rest ih =>
      rw [checkOrdering]
      split
      · split
        · exact Failure.stage_compile _ _
        · exact ih
      · exact ih

theorem ends_afterAll (d : Dialect) (inner : Sql.Query) (steps : List PlanStep) :
    Ends Failure.OfCompiling (fun _ => True) (inner.afterAll d steps) := by
  induction steps generalizing inner with
  | nil => exact trivial
  | cons s rest ih =>
      rw [Sql.Query.afterAll]
      cases inner.after d s with
      | ok q => exact ih q
      | error cause => exact Failure.stage_compile cause _

theorem Plan.ends_compile (p : Plan) (style : Sql.Style) :
    Ends Failure.OfCompiling (fun _ => True) (p.compile style) := by
  have hstatement : Ends Failure.OfCompiling (fun _ => True) (p.statement style.dialect) := by
    refine (ends_checkOrdering p.steps).bind fun _ _ => ?_
    refine (ends_afterAll style.dialect _ p.steps).bind fun _ _ => ?_
    split <;> exact trivial
  exact hstatement.bind fun _ _ => trivial

/-! ### Running -/

/-- Whatever comes out, a failure is no error of a plan at another stage than that of evaluating. -/
def Evaluates {α : Type} (x : Result α) : Prop := Ends (Failure.OnlyAt .eval) (fun _ => True) x

namespace Evaluates

variable {ε α β : Type}

theorem bind {x : Result α} {f : α → Result β} (hx : Evaluates x) (hf : ∀ a, Evaluates (f a)) :
    Evaluates (x >>= f) := Ends.bind hx fun a _ => hf a

theorem mapM {f : α → Result β} {as : List α} (h : ∀ a, Evaluates (f a)) :
    Evaluates (as.mapM f) :=
  (ends_mapM (Q := fun _ => True) fun a _ => h a).mono fun _ _ => trivial

theorem mapError {x : Except ε α} {g : ε → Failure} (h : ∀ e, (g e).OnlyAt .eval) :
    Evaluates (x.mapError g) := by
  cases x with
  | error e => exact h e
  | ok a => exact trivial

end Evaluates

theorem RankedWindow.evaluates_rows (w : RankedWindow) (order : RowOrder) (rows : List Row) :
    Evaluates (w.rows order rows) := by
  -- a missing column and a key that cannot be told apart are no errors of the plan
  have hkey (r : Row) : Evaluates (partitionKey w.window.partitionBy r) := by
    refine .bind (.mapM fun c => ?_) fun key => ?_
    · split
      · exact trivial
      · exact nofun
    · split
      · exact nofun
      · exact trivial
  refine .bind (.mapM fun m => .bind (hkey m.1) fun _ => trivial) fun keyed => ?_
  refine .bind (.mapM fun members => ?_) fun groups => ?_
  · exact .bind (.mapError fun fault => fault.onlyAt_at _) fun _ => trivial
  · cases order <;> exact trivial

theorem Row.evaluates_extend (r : Row) (name : String) (value : Expr) (position : Nat) :
    Evaluates (r.extend name value position) := by
  rw [Row.extend]
  cases value.eval r with
  | ok v => exact trivial
  | error fault => exact fault.onlyAt_at _

theorem Row.evaluates_cut (r : Row) (names : List String) : Evaluates (r.cut names) :=
  .mapError fun _ => nofun

theorem PlanStep.evaluates_ranked (s : PlanStep) : Evaluates s.ranked := by
  rw [PlanStep.ranked]
  split
  · exact trivial
  · exact Failure.onlyAt_eval _ _

namespace Flow

variable {w : Flow}

/-- No step fails with an error of a plan at another stage than that of evaluating. -/
theorem Safe.step_onlyAt (h : w.Safe (Failure.OnlyAt .eval) fun _ => True) (order : RowOrder)
    (s : PlanStep) : (w.step order s).Safe (Failure.OnlyAt .eval) fun _ => True := by
  obtain ⟨position, o, input, output⟩ := s
  have hwhole {f : List Row → Result (List Row)} (hf : ∀ rows, Evaluates (f rows)) :
      (w.whole f).Safe (Failure.OnlyAt .eval) fun _ => True :=
    h.whole fun rows _ => (hf rows).mono fun _ _ _ _ => trivial
  rcases o with ⟨name, value, _ | window⟩ | condition | terms | selected | dropped | _
  · exact h.map fun r _ => r.evaluates_extend name value position
  · exact hwhole fun rows => (PlanStep.evaluates_ranked _).bind fun ranked =>
      ranked.evaluates_rows order rows
  · exact h.filter fun r _ => Evaluates.mapError fun fault => fault.onlyAt_at _
  · exact hwhole fun rows => .mapError fun fault => fault.onlyAt_at _
  · exact h.map fun r _ => r.evaluates_cut output
  · exact h.map fun r _ => r.evaluates_cut output
  · exact h

theorem Safe.steps_onlyAt (h : w.Safe (Failure.OnlyAt .eval) fun _ => True) (order : RowOrder)
    (steps : List PlanStep) :
    (steps.foldl (Flow.step order) w).Safe (Failure.OnlyAt .eval) fun _ => True := by
  induction steps generalizing w with
  | nil => exact h
  | cons s rest ih => exact ih (h.step_onlyAt order s)

theorem safe_scan_onlyAt (ref : TableRef) (t : Table) :
    (ref.flow t).Safe (Failure.OnlyAt .eval) fun _ => True := by
  refine safe_cuts ref ?_ fun _ _ _ _ => trivial
  rintro e ⟨cause, -, rfl⟩
  exact Failure.onlyAt_eval _ _

end Flow

/-- Whatever the plan and the source, a run that fails with an error of a plan fails with one of
evaluating. -/
theorem Plan.evaluates_run (p : Plan) (source : Source) (order : RowOrder) :
    Evaluates (p.run source order) := by
  rw [Plan.run_eq_flow]
  have hsafe := (Flow.safe_scan_onlyAt p.table (source.toTable p.table.columns)).steps_onlyAt
    order p.steps
  exact hsafe.ends.map fun _ _ => trivial

end Tabula
