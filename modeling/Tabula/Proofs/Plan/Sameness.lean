import Tabula.Plan.Lineage
import Tabula.Proofs.Expr.Sameness
import Tabula.Proofs.Plan.Rendering
import Tabula.Proofs.Plan.Run
import Tabula.Proofs.Sql.Expressible

/-!
Equal plans. Plans count as equal if their tables and operators do, where expressions are equal up
to how the values of literals are written. They have the same columns, depend on the same columns of
their table, and are compiled or not for the same reasons. But a literal is shown, compiled and
evaluated as it is written: only where all literals are alike are equal plans one plan.
-/

namespace Tabula

open List

/-! ### Expressions -/

namespace Expr

/-- The function that the form calls. -/
def Head.function? : Head → Option ScalarFn
  | .unary f => some (.unary f)
  | .round => some .round
  | .roundTo => some .round
  | .coalesce => some .coalesce
  | _ => none

theorem function?_head (e : Expr) : e.callee?.map Prod.fst = e.head.function? := by
  cases e <;> rfl

theorem functions_of_same {e f : Expr} (h : e.same f = true) : e.functions = f.functions := by
  refine induct_same (fun e f hhead _ hoperands => ?_) h
  rw [functions_eq, functions_eq, function?_head, function?_head, hhead,
    flatMap_eq_of_forall₂ (hoperands.imp fun _ _ hab => hab.2)]

end Expr

/-! ### Operators -/

namespace Operator

/-- The literals in what the operator computes, or in its condition. -/
def literals : Operator → List Literal
  | extend _ value _ => value.literals
  | selectRows condition => condition.literals
  | _ => []

/-- Equal operators have equal expressions, or no literals and then they are the same. -/
inductive Agree : Operator → Operator → Prop
  | extend (name : String) {value value' : Expr} (window : Option Window)
      (h : value.same value' = true) : Agree (extend name value window) (extend name value' window)
  | selectRows {condition condition' : Expr} (h : condition.same condition' = true) :
      Agree (selectRows condition) (selectRows condition')
  | rest (o : Operator) (h : o.literals = []) : Agree o o

theorem agree_of_same {o o' : Operator} (h : o.same o' = true) : o.Agree o' := by
  fun_cases same o o' with
  | case1 name value window name' value' window' =>
      simp only [same, Bool.and_eq_true, beq_iff_eq] at h
      obtain ⟨⟨rfl, hvalue⟩, rfl⟩ := h
      exact .extend name window hvalue
  | case2 condition condition' => exact .selectRows h
  | case7 => simp_all [same]
  | _ =>
      simp only [same, Bool.and_eq_true, beq_iff_eq] at h
      simp only [h]
      exact .rest _ rfl

namespace Agree

variable {o o' : Operator}

theorem forall₂_literals (h : o.Agree o') : Forall₂ Literal.Same o.literals o'.literals := by
  cases h with
  | extend _ _ h => exact Expr.forall₂_literals h
  | selectRows h => exact Expr.forall₂_literals h
  | rest _ h =>
      rw [h]
      exact .nil

theorem eq_of_literals (h : o.Agree o') (hliterals : o.literals = o'.literals) : o = o' := by
  cases h with
  | extend name window h => rw [Expr.eq_of_literals h hliterals]
  | selectRows h => rw [Expr.eq_of_literals h hliterals]
  | rest => rfl

theorem output_eq (h : o.Agree o') (columns : List String) :
    o.output columns = o'.output columns := by
  cases h <;> rfl

theorem isTerminal_eq (h : o.Agree o') : o.isTerminal = o'.isTerminal := by
  cases h <;> rfl

theorem excessClass_eq (h : o.Agree o') : o.excessClass = o'.excessClass := by
  cases h with
  | extend _ window _ => cases window <;> rfl
  | _ => rfl

theorem eq_orderBy_iff (h : o.Agree o') (terms : List OrderTerm) :
    o = orderBy terms ↔ o' = orderBy terms := by
  cases h <;> simp

theorem reads_eq (h : o.Agree o') : o.reads = o'.reads := by
  cases h with
  | extend _ window h => cases window <;> simp only [reads, Expr.columns_of_same h]
  | selectRows h => exact Expr.columns_of_same h
  | rest => rfl

theorem needs_eq (h : o.Agree o') (position : Nat) (input output needed : List String) :
    PlanStep.needs ⟨position, o, input, output⟩ needed =
      PlanStep.needs ⟨position, o', input, output⟩ needed := by
  have hreads := h.reads_eq
  cases h with
  | extend | selectRows => simp only [PlanStep.needs, hreads]
  | rest => rfl

theorem exceeds_iff (h : o.Agree o') (d : Dialect) (cause : CompileCause) :
    o.Exceeds d cause ↔ o'.Exceeds d cause := by
  have hextend {name : String} {value value' : Expr} {window : Option Window}
      (hhead : value.head = value'.head) (hfunctions : value.functions = value'.functions)
      (hexceeds : (Operator.extend name value window).Exceeds d cause) :
      (Operator.extend name value' window).Exceeds d cause := by
    cases hexceeds with
    | ranking hf =>
        cases value' <;> cases hhead
        exact .ranking hf
    | value hlacks => exact .value (hfunctions ▸ hlacks)
  cases h with
  | extend name window h =>
      have hhead := (Expr.parts_of_same h).1
      have hfunctions := Expr.functions_of_same h
      exact ⟨hextend hhead hfunctions, hextend hhead.symm hfunctions.symm⟩
  | selectRows h =>
      have hfunctions := Expr.functions_of_same h
      constructor
      · rintro (_ | _ | hlacks)
        exact .condition (hfunctions ▸ hlacks)
      · rintro (_ | _ | hlacks)
        exact .condition (hfunctions ▸ hlacks)
  | rest => exact Iff.rfl

/-- Equal operators are told apart, however their columns are called. -/
theorem tellsApart_text (h : o.Agree o') :
    TellsApart Anything (fun o => o.text.toList) o o' := by
  intro r s _ _ heq
  cases h with
  | extend name window h =>
      simp only [toList_text, kind, toList_parameters_extend, append_assoc, cons_append, nil_append,
        append_cancel_left_eq, List.cons.injEq, true_and] at heq
      obtain ⟨rfl, hrest⟩ := (Expr.apart_of_same h).alone _ _ (startsIn_windowChars window r)
        (startsIn_windowChars window s) heq
      exact ⟨rfl, (List.cons.inj (append_cancel_left hrest)).2⟩
  | selectRows h =>
      simp only [toList_text, kind, parameters, append_assoc, cons_append, nil_append,
        append_cancel_left_eq, List.cons.injEq, true_and] at heq
      obtain ⟨rfl, hrest⟩ := (Expr.apart_of_same h).alone (')' :: r) (')' :: s) (by simp) (by simp)
        heq
      exact ⟨rfl, (List.cons.inj hrest).2⟩
  | rest => exact ⟨rfl, append_cancel_left heq⟩

end Agree

end Operator

/-! ### Chains -/

section Chains

variable {α β : Type} {os os' : List Operator}

/-- At every place both lists have items that are related, or neither has one. -/
theorem getElem?_cases {R : α → β → Prop} {as : List α} {bs : List β} (h : Forall₂ R as bs)
    (k : Nat) : as[k]? = none ∧ bs[k]? = none ∨
      ∃ a b, as[k]? = some a ∧ bs[k]? = some b ∧ R a b := by
  induction h generalizing k with
  | nil => exact .inl ⟨rfl, rfl⟩
  | @cons a b _ _ hab _ ih =>
      cases k with
      | zero => exact .inr ⟨a, b, rfl, rfl, hab⟩
      | succ k => exact ih k

theorem columnsAfter_eq (h : Forall₂ Operator.Agree os os') (columns : List String) :
    Plan.columnsAfter columns os = Plan.columnsAfter columns os' := by
  induction h generalizing columns with
  | nil => rfl
  | cons ho _ ih =>
      rw [Plan.columnsAfter, foldl_cons, ho.output_eq]
      exact ih _

theorem map_needs_stepsFrom (h : Forall₂ Operator.Agree os os') (position : Nat)
    (columns : List String) :
    (stepsFrom position columns os).map PlanStep.needs =
      (stepsFrom position columns os').map PlanStep.needs := by
  induction h generalizing position columns with
  | nil => rfl
  | cons ho _ ih =>
      rw [stepsFrom, stepsFrom, map_cons, map_cons, ih, ho.output_eq]
      exact congrArg (· :: _) (funext (ho.needs_eq position columns _))

theorem unexpressed_eq (h : Forall₂ Operator.Agree os os') (d : Dialect) :
    unexpressed d os = unexpressed d os' := by
  ext k
  simp only [unexpressed, Set.mem_ofPred_eq]
  rcases getElem?_cases h k with ⟨hk, hk'⟩ | ⟨o, o', hk, hk', ho⟩
  · simp [hk, hk']
  · simp [hk, hk', ho.exceeds_iff d]

theorem buriedOrderings_eq (h : Forall₂ Operator.Agree os os') :
    buriedOrderings os = buriedOrderings os' := by
  have hterminal : os.map Operator.isTerminal = os'.map Operator.isTerminal :=
    map_eq_of_forall₂ (h.imp fun _ _ ho => ho.isTerminal_eq)
  have hafter (os : List Operator) (k : Nat) : (∃ o ∈ os.drop k, o.isTerminal = false) ↔
      false ∈ (os.map Operator.isTerminal).drop k := by
    rw [← map_drop, mem_map]
  ext k
  simp only [buriedOrderings, Set.mem_ofPred_eq, hafter, hterminal]
  rcases getElem?_cases h k with ⟨hk, hk'⟩ | ⟨o, o', hk, hk', ho⟩
  · simp [hk, hk']
  · simp [hk, hk', ho.eq_orderBy_iff]

end Chains

/-! ### Plans -/

namespace Plan

/-- The literals of a plan, in order. -/
def literals (p : Plan) : List Literal := p.operators.flatMap Operator.literals

variable {p q : Plan}

theorem parts_of_same (h : p.same q = true) :
    p.table = q.table ∧ Forall₂ Operator.Agree p.operators q.operators := by
  rw [same, Bool.and_eq_true, Bool.and_eq_true, beq_iff_eq, beq_iff_eq, all_eq_true] at h
  obtain ⟨⟨htable, hlength⟩, hall⟩ := h
  exact ⟨htable, forall₂_iff_zip.2 ⟨hlength, fun hi => Operator.agree_of_same (hall _ hi)⟩⟩

theorem columns_of_same (h : p.same q = true) : p.columns = q.columns := by
  obtain ⟨htable, hoperators⟩ := parts_of_same h
  rw [columns, columns, htable, columnsAfter_eq hoperators]

theorem columnsUsed_of_same (h : p.same q = true) : p.columnsUsed = q.columnsUsed := by
  obtain ⟨htable, hoperators⟩ := parts_of_same h
  have hneeds (p : Plan) : p.steps.foldr PlanStep.needs p.columns =
      (p.steps.map PlanStep.needs).foldr (fun needs needed => needs needed) p.columns := by
    rw [foldr_map]
  rw [columnsUsed, columnsUsed, hneeds, hneeds, steps, steps, columns_of_same h, htable,
    map_needs_stepsFrom hoperators]

/-- Equal plans with the same literals are the same. -/
theorem eq_of_literals (h : p.same q = true) (hliterals : p.literals = q.literals) : p = q := by
  obtain ⟨htable, hoperators⟩ := parts_of_same h
  obtain ⟨table, operators⟩ := p
  obtain ⟨table', operators'⟩ := q
  obtain rfl : table = table' := htable
  refine congrArg (Plan.mk table) (eq_of_flatMap_eq (hoperators.imp fun o o' ho => ?_) hliterals)
  exact ⟨ho.forall₂_literals.length_eq, ho.eq_of_literals⟩

theorem eq_of_alike (h : p.same q = true) (halike : Forall₂ Literal.Alike p.literals q.literals) :
    p = q := by
  have hsame : Forall₂ Literal.Same p.literals q.literals :=
    forall₂_flatMap ((parts_of_same h).2.imp fun _ _ ho => ho.forall₂_literals)
  exact eq_of_literals h (eq_of_forall₂ (fun _ _ => Literal.Same.eq) hsame halike)

theorem eq_of_same_of_render_eq (h : p.same q = true) (hrender : p.render = q.render) : p = q := by
  obtain ⟨htable, hoperators⟩ := parts_of_same h
  obtain ⟨table, operators⟩ := p
  obtain ⟨table', operators'⟩ := q
  obtain rfl : table = table' := htable
  have hchars := congrArg String.toList hrender
  rw [toList_render, toList_render, append_cancel_left_eq] at hchars
  refine congrArg (Plan.mk table) (operators_of_stepChars (fun i hi => ?_) hchars)
  exact ((forall₂_iff_zip.1 hoperators).2 hi).tellsApart_text

theorem Made.failsAs_compile_of_same (hp : p.Made) (hq : q.Made) (h : p.same q = true)
    (s : Sql.Style) (c : ErrorClass) (position : Option Int) :
    FailsAs (p.compile s) c position ↔ FailsAs (q.compile s) c position := by
  have hoperators := (parts_of_same h).2
  have hburied := buriedOrderings_eq hoperators
  by_cases hc : c = .orderingNotOutermost
  · rw [hc, hp.compile_buried_iff, hq.compile_buried_iff, hburied]
  · rw [hp.compile_excess_iff s hc, hq.compile_excess_iff s hc, hburied, unexpressed_eq hoperators]
    refine and_congr_right fun _ => exists_congr fun k => ?_
    rcases getElem?_cases hoperators k with ⟨hk, hk'⟩ | ⟨o, o', hk, hk', ho⟩
    · simp [hk, hk']
    · simp [hk, hk', ho.excessClass_eq]

theorem Made.compile_ok_of_same (hp : p.Made) (hq : q.Made) (h : p.same q = true)
    (s : Sql.Style) : (∃ text, p.compile s = .ok text) ↔ ∃ text, q.compile s = .ok text := by
  have hoperators := (parts_of_same h).2
  rw [hp.compile_ok_iff, hq.compile_ok_iff, buriedOrderings_eq hoperators,
    unexpressed_eq hoperators]

theorem render_eq_iff_alike (h : p.same q = true) :
    p.render = q.render ↔ Forall₂ Literal.Alike p.literals q.literals := by
  constructor
  · intro hrender
    rw [eq_of_same_of_render_eq h hrender, forall₂_same]
    exact fun l _ => .refl l
  · intro halike
    rw [eq_of_alike h halike]

/-- What equal plans give. They have the same columns and depend on the same columns of their table;
in every dialect both are compiled, or compiling both fails with one class of error at one place.
They have the same text if and only if any two literals that stand at one place are alike, and then
they are compiled to the same text in every dialect and run alike over every source. -/
theorem Made.results_of_same (hp : p.Made) (hq : q.Made) (h : p.same q = true) :
    p.columns = q.columns ∧ p.columnsUsed = q.columnsUsed ∧
    (∀ s, (∃ text, p.compile s = .ok text) ↔ ∃ text, q.compile s = .ok text) ∧
    (∀ s c position, FailsAs (p.compile s) c position ↔ FailsAs (q.compile s) c position) ∧
    (p.render = q.render ↔ Forall₂ Literal.Alike p.literals q.literals) ∧
    (Forall₂ Literal.Alike p.literals q.literals →
      (∀ s, p.compile s = q.compile s) ∧
        ∀ source order, p.run source order = q.run source order) := by
  refine ⟨columns_of_same h, columnsUsed_of_same h, hp.compile_ok_of_same hq h,
    hp.failsAs_compile_of_same hq h, render_eq_iff_alike h, fun halike => ?_⟩
  rw [eq_of_alike h halike]
  exact ⟨fun _ => rfl, fun _ _ => rfl⟩

/-- The rows of the scores whose points are a number. -/
def pointsEqual (l : Literal) : Plan :=
  ⟨placings.table, [.selectRows (.compare .eq (.column "points") (.literal l))]⟩

theorem made_pointsEqual (l : Literal) : (pointsEqual l).Made := by
  have hreads : ["points"] ⊆ (ofTable placings.table).columns := by decide
  have hselection : (ofTable placings.table).add
      (.selectRows (.compare .eq (.column "points") (.literal l))) = .ok (pointsEqual l) :=
    add_of_check rfl (check_selectRows_eq_ok.2 ⟨⟨rfl, hreads⟩, rfl⟩)
  exact made_scores.add hselection

/-- Points compared with an integer and with a double of the same value. -/
theorem Made.results_of_same_numbers :
    let p := pointsEqual (.int 2)
    let q := pointsEqual (.float 2.0 (by decide +kernel))
    p.Made ∧ q.Made ∧ p.same q = true ∧ p.columnsUsed = q.columnsUsed ∧
      (∃ text, q.compile ⟨.reference, true, false⟩ = .ok text) ∧ p.render ≠ q.render := by
  intro p q
  have hp : p.Made := made_pointsEqual _
  have hq : q.Made := made_pointsEqual _
  have hsame : p.same q = true := by decide +kernel
  have hcompiled : ∃ text, p.compile ⟨.reference, true, false⟩ = .ok text :=
    exists_of_isOk (by decide +kernel)
  obtain ⟨-, hused, hcompile, -, hrender, -⟩ := Made.results_of_same hp hq hsame
  refine ⟨hp, hq, hsame, hused, (hcompile _).1 hcompiled, fun h => ?_⟩
  rcases hrender.1 h with _ | ⟨⟨⟩, -⟩

/-- Points compared with one and with true: the plans are equal, but not their texts, their queries
and what comes of running them. -/
theorem results_of_same_unlike :
    let p := pointsEqual (.int 1)
    let q := pointsEqual (.bool true)
    let source := Source.table ⟨["team", "points"], [⟨[("team", .str "a"), ("points", .int 1)]⟩]⟩
    p.Made ∧ q.Made ∧ p.same q = true ∧ p.render ≠ q.render ∧
      p.compile ⟨.reference, true, false⟩ ≠ q.compile ⟨.reference, true, false⟩ ∧
      (∃ out, p.run source .input = .ok out) ∧ ∀ out, q.run source .input ≠ .ok out := by
  intro p q source
  have hrun : ∃ out, p.run source .input = .ok out := by
    obtain ⟨rows, hrows⟩ := exists_of_isOk
      (by decide +kernel : (p.rows (source.toTable p.table.columns) .input).isOk = true)
    exact ⟨_, run_of_rows hrows⟩
  refine ⟨made_pointsEqual _, made_pointsEqual _, by decide +kernel, by decide +kernel, ?_, hrun,
    fun out hout => ?_⟩
  · have hshown : (p.compile ⟨.reference, true, false⟩).toOption ≠
        (q.compile ⟨.reference, true, false⟩).toOption := by decide +kernel
    exact fun h => hshown (congrArg Except.toOption h)
  · obtain ⟨rows, hrows, -⟩ := exists_rows_of_run hout
    have hfails : (q.rows (source.toTable q.table.columns) .input).isOk = false := by
      decide +kernel
    rw [hrows] at hfails
    cases hfails

end Plan

end Tabula
