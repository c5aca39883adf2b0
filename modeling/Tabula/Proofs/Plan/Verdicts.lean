import Tabula.Proofs.Plan.Deferral

/-!
Selections by truth value. A condition that has no fault in a row is true, false or unknown there,
and the row is kept by the condition, by its negation or by the test that it is null: by one of the
three and by no other. So three plans that end in these selections share out the rows that come
before them, and if the first of them runs, the others do.
-/

namespace Tabula

namespace Expr

variable {e : Expr} {r : Row}

/-- What a condition says of a row: true, false or unknown. -/
def verdict (e : Expr) (r : Row) : Option Bool :=
  match e.eval r with
  | .ok (.bool b) => some b
  | _ => none

theorem verdict_of_eval {t : Option Bool} (h : e.eval r = .ok (.ofTruth t)) : e.verdict r = t := by
  rw [verdict, h]
  cases t <;> rfl

/-- Where it is decided whether a condition holds, its value is the truth value that it says. -/
theorem holds_eq_ok {b : Bool} :
    e.holds r = .ok b ↔
      e.eval r = .ok (.ofTruth (e.verdict r)) ∧ b = decide (e.verdict r = some true) := by
  unfold holds verdict
  rcases e.eval r with fault | _ | b' | _ | _ | _ | _
  case ok.bool => cases b' <;> simp [bind, Except.bind, pure, Except.pure, Value.ofTruth, eq_comm]
  all_goals simp [bind, Except.bind, pure, Except.pure, Value.ofTruth, throw, throwThe,
    MonadExceptOf.throw, eq_comm]

theorem holds_of_eval {t : Option Bool} (h : e.eval r = .ok (.ofTruth t)) :
    e.holds r = .ok (decide (t = some true)) := by
  have hverdict := verdict_of_eval h
  exact holds_eq_ok.2 ⟨hverdict.symm ▸ h, by rw [hverdict]⟩

/-- The negation of a condition holds where the condition is false. -/
theorem holds_not (h : e.eval r = .ok (.ofTruth (e.verdict r))) :
    (not e).holds r = .ok (decide (e.verdict r = some false)) := by
  have hvalue : (not e).eval r = .ok (.ofTruth ((e.verdict r).map (!·))) := by
    rw [eval, h]
    cases e.verdict r <;> rfl
  rw [holds_of_eval hvalue]
  rcases e.verdict r with _ | _ | _ <;> rfl

/-- The test for null holds where the condition is unknown. -/
theorem holds_isNull (h : e.eval r = .ok (.ofTruth (e.verdict r))) :
    (isNull e false).holds r = .ok (decide (e.verdict r = none)) := by
  have hvalue : (isNull e false).eval r = .ok (.ofTruth (some (e.verdict r).isNone)) := by
    rw [eval, h]
    rcases e.verdict r with _ | _ | _ <;> rfl
  rw [holds_of_eval hvalue]
  rcases e.verdict r with _ | _ | _ <;> rfl

end Expr

section Selections

variable {rows out : List Row} {condition : Expr} {position : Nat}

/-- A selection that is decided in every row keeps the rows where it holds. -/
theorem keepRows_eq_filter {holds : Row → Bool}
    (h : ∀ r ∈ rows, condition.holds r = .ok (holds r)) :
    keepRows (·.satisfies condition position) rows = .ok (rows.filter holds) := by
  induction rows with
  | nil => rfl
  | cons r rest ih =>
      rw [List.forall_mem_cons] at h
      refine keepRows_cons_eq_ok.2 ⟨holds r, _, mapError_eq_ok.2 h.1, ih h.2, ?_⟩
      rw [List.filter_cons]

/-- A selection that succeeds has a verdict on every row. -/
theorem eval_of_keepRows (h : keepRows (·.satisfies condition position) rows = .ok out) :
    ∀ r ∈ rows, condition.eval r = .ok (.ofTruth (condition.verdict r)) := by
  intro r hr
  obtain ⟨b, hb⟩ := (keepRows_eq_ok_filterMap.1 h).1 r hr
  exact (Expr.holds_eq_ok.1 (mapError_eq_ok.1 hb)).1

end Selections

namespace Plan

variable {p : Plan} {condition : Expr} {source : Source} {order : RowOrder}

theorem selectRows_expr (hopen : p.terminal? = none) (h : condition.Scalar p.columns) :
    p.selectRows (.expr condition) = .ok ⟨p.table, p.operators ++ [.selectRows condition]⟩ :=
  add_of_check hopen (check_selectRows_eq_ok.2 ⟨h, rfl⟩)

/-- A plan that ends in a selection runs the plan before it and selects from its rows. -/
theorem run_selection {out : Table} :
    (Plan.mk p.table (p.operators ++ [.selectRows condition])).run source order = .ok out ↔
      ∃ rows kept, p.run source order = .ok ⟨p.columns, rows⟩ ∧
        keepRows (·.satisfies condition (1 + p.operators.length)) rows = .ok kept ∧
          out = ⟨p.columns, kept⟩ := by
  have hlast (rows kept : List Row) :
      rowsThrough order (1 + p.operators.length) (columnsAfter p.table.columns p.operators)
          [.selectRows condition] rows = .ok kept ↔
        keepRows (·.satisfies condition (1 + p.operators.length)) rows = .ok kept := by
    simp [rowsThrough, stepsFrom, PlanStep.rows]
  simp only [run_eq_ok, rows_eq_ok, rowsThrough_append_eq_ok, hlast, columns_append]
  constructor
  · rintro ⟨kept, ⟨scanned, hscan, rows, hrows, hkept⟩, rfl⟩
    exact ⟨rows, kept, ⟨rows, ⟨scanned, hscan, hrows⟩, rfl⟩, hkept, rfl⟩
  · rintro ⟨rows, kept, ⟨_, ⟨scanned, hscan, hrows⟩, heq⟩, hkept, rfl⟩
    cases heq
    exact ⟨kept, ⟨scanned, hscan, rows, hrows, hkept⟩, rfl⟩

/-- A selection with a known verdict on every row, by whether it holds. -/
theorem run_selection_of_holds {rows : List Row}
    (hrun : p.run source order = .ok ⟨p.columns, rows⟩) {holds : Row → Bool}
    (h : ∀ r ∈ rows, condition.holds r = .ok (holds r)) :
    (Plan.mk p.table (p.operators ++ [.selectRows condition])).run source order =
      .ok ⟨p.columns, rows.filter holds⟩ :=
  run_selection.2 ⟨rows, _, hrun, keepRows_eq_filter h, rfl⟩

/-- A condition, its negation and the test that it is null can be put at the end of the same plans.
Where the first selection runs, over any source and in either order of rows, the other two do, and
so does the plan before them. Each keeps the rows of one truth value, all of them and in their
order, so every row goes to exactly one of the three results, as often as it was there. -/
theorem run_by_verdict (hopen : p.isTerminated = false) {e : Expr} (he : e.Scalar p.columns) :
    ∃ yes no unknown, p.selectRows (.expr e) = .ok yes ∧ p.selectRows (.expr (.not e)) = .ok no ∧
      p.selectRows (.expr (.isNull e false)) = .ok unknown ∧
        ∀ source order out, yes.run source order = .ok out →
          ∃ rows, p.run source order = .ok ⟨p.columns, rows⟩ ∧
            (∀ r ∈ rows, e.eval r = .ok (.ofTruth (e.verdict r))) ∧
            out = ⟨p.columns, rows.filter (e.verdict · = some true)⟩ ∧
            no.run source order = .ok ⟨p.columns, rows.filter (e.verdict · = some false)⟩ ∧
            unknown.run source order = .ok ⟨p.columns, rows.filter (e.verdict · = none)⟩ := by
  have hopen : p.terminal? = none := by simpa [isTerminated] using hopen
  refine ⟨_, _, _, selectRows_expr hopen he, selectRows_expr hopen he,
    selectRows_expr hopen he, fun source order out hrun => ?_⟩
  obtain ⟨rows, kept, hrows, hkept, rfl⟩ := run_selection.1 hrun
  have hverdict := eval_of_keepRows hkept
  refine ⟨rows, hrows, hverdict, ?_, ?_, ?_⟩
  · have hyes := run_selection_of_holds hrows fun r hr => Expr.holds_of_eval (hverdict r hr)
    exact Except.ok.inj (hrun.symm.trans hyes)
  · exact run_selection_of_holds hrows fun r hr => Expr.holds_not (hverdict r hr)
  · exact run_selection_of_holds hrows fun r hr => Expr.holds_isNull (hverdict r hr)

end Plan

/-- Whether a row has two points or more. -/
def twoPoints : Expr := .compare (.order .ge) (.column "points") (.literal (.int 2))

theorem Plan.run_by_verdict_scores :
    (ofTable placings.table).isTerminated = false ∧ twoPoints.Scalar placings.table.columns ∧
      ∃ yes no unknown, (ofTable placings.table).selectRows (.expr twoPoints) = .ok yes ∧
        (ofTable placings.table).selectRows (.expr (.not twoPoints)) = .ok no ∧
        (ofTable placings.table).selectRows (.expr (.isNull twoPoints false)) = .ok unknown ∧
        yes.run (.table scoreTable) .input = .ok ⟨["team", "points"],
          [⟨[("team", .str "a"), ("points", .int 2)]⟩,
            ⟨[("team", .str "a"), ("points", .int 2)]⟩]⟩ ∧
        no.run (.table scoreTable) .input =
          .ok ⟨["team", "points"], [⟨[("team", .str "a"), ("points", .float 1.5)]⟩]⟩ ∧
        unknown.run (.table scoreTable) .input =
          .ok ⟨["team", "points"], [⟨[("team", .str "b"), ("points", .null)]⟩]⟩ := by
  have hscalar : twoPoints.Scalar (ofTable placings.table).columns := ⟨rfl, by decide⟩
  obtain ⟨yes, no, unknown, hyes, hno, hunknown, hruns⟩ :=
    run_by_verdict (p := ofTable placings.table) rfl hscalar
  refine ⟨rfl, hscalar, yes, no, unknown, hyes, hno, hunknown, ?_⟩
  obtain ⟨out, hout⟩ : ∃ out, yes.run (.table scoreTable) .input = .ok out := by
    cases hyes.symm.trans (selectRows_expr rfl hscalar)
    obtain ⟨rows, hrows⟩ := exists_of_isOk
      (by decide +kernel : (Plan.rows ⟨placings.table, [.selectRows twoPoints]⟩ scoreTable
        .input).isOk = true)
    exact ⟨_, run_of_rows hrows⟩
  obtain ⟨rows, hrows, _, rfl, hothers⟩ := hruns (.table scoreTable) .input out hout
  -- the plan without a selection gives the table itself
  have hscan : (ofTable placings.table).run (.table scoreTable) .input =
      .ok ⟨["team", "points"], RankedWindow.scores⟩ :=
    run_of_rows (rows_eq_ok.2 ⟨_, TableRef.rows_eq_ok.2 ⟨by decide, rfl⟩, rfl⟩)
  cases hrows.symm.trans hscan
  have hverdicts : RankedWindow.scores.map twoPoints.verdict =
      [some true, none, some false, some true] := by decide +kernel
  simp only [RankedWindow.scores, List.map_cons, List.map_nil, List.cons.injEq, and_true]
    at hverdicts
  obtain ⟨htwo, hnull, hless, _⟩ := hverdicts
  simp only [RankedWindow.scores, List.filter_cons, List.filter_nil, htwo, hnull, hless]
    at hout hothers
  exact ⟨hout, hothers⟩

end Tabula
