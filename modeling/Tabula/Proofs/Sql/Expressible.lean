import Mathlib.Order.Bounds.Basic
import Tabula.Proofs.Plan.Safety
import Tabula.Proofs.Plan.Validity
import Tabula.Proofs.Sql.Lowering
import Tabula.Sql.Print

/-!
What dialects can express. A plan is compiled unless an operator that goes on follows an ordering or
something is used that the dialect lacks, and the error names the first node at which that is so:
orderings are looked at first, then the operators one after the other. What is compiled in one
dialect is compiled to the same statement in every dialect that lacks nothing.
-/

namespace Tabula

/-- The operator uses something that the dialect has not: a ranking, or a function anywhere in what
it computes or in its condition. -/
inductive Operator.Exceeds (d : Dialect) : Operator → CompileCause → Prop
  | ranking {name : String} {f : Ranking} {w : Window} (h : f ∉ d.rankings) :
      Exceeds d (.extend name (.ranking f) (some w)) (.rankingUnavailable (.ranking f) d)
  | value {name : String} {value : Expr} {cause : CompileCause}
      (h : d.Lacks value.functions cause) : Exceeds d (.extend name value none) cause
  | condition {condition : Expr} {cause : CompileCause} (h : d.Lacks condition.functions cause) :
      Exceeds d (.selectRows condition) cause

/-- The places of the operators that use something the dialect has not. -/
def unexpressed (d : Dialect) (os : List Operator) : Set Nat :=
  {k | ∃ o cause, os[k]? = some o ∧ o.Exceeds d cause}

/-- The places of the orderings that are followed by an operator other than one that keeps the
result. -/
def buriedOrderings (os : List Operator) : Set Nat :=
  {k | ∃ terms, os[k]? = some (.orderBy terms) ∧ ∃ o ∈ os.drop (k + 1), o.isTerminal = false}

/-! ### Queries -/

namespace Sql

section Queries

variable {d : Dialect} {columns : List String} {o : Operator} {os : List Operator}

/-- What a computed column is computed from, where the operator uses nothing that is missing. -/
theorem ends_ofValue {name : String} {value : Expr} {window : Option Window}
    (ho : (Operator.extend name value window).Fits columns) :
    Ends ((Operator.extend name value window).Exceeds d)
      (fun v => (∀ cause, ¬ (Operator.extend name value window).Exceeds d cause) ∧
        Selected.ofValue .extendedWindowTies value window = .ok v)
      (Selected.ofValue d value window) := by
  cases window with
  | none =>
      have hfree := Expr.hasRanking_eq_false_iff.1 ho.1
      have hvalue := Scalar.ends_ofExpr d hfree
      refine (hvalue.weaken fun _ => .value).bind fun s hs => .pure ⟨?_, ?_⟩
      · rintro cause (_ | h)
        exact Dialect.not_lacks hs.1 cause h
      · show (Scalar.ofExpr .extendedWindowTies value >>= fun s => pure (Selected.scalar s)) = _
        rw [Scalar.ofExpr_extendedWindowTies hfree, hs.2]
        rfl
  | some w =>
      obtain ⟨⟨f, rfl⟩, -⟩ := ho
      have hall : Selected.ofValue .extendedWindowTies (.ranking f) (some w) = .ok (.ranking f w) :=
        if_pos (List.contains_iff_mem.2 (Dialect.mem_rankings f))
      by_cases hf : f ∈ d.rankings
      · have hvalue : Selected.ofValue d (.ranking f) (some w) = .ok (.ranking f w) :=
          if_pos (List.contains_iff_mem.2 hf)
        rw [hvalue]
        refine ⟨?_, hall⟩
        rintro cause (h | _)
        exact h hf
      · have hvalue : Selected.ofValue d (.ranking f) (some w) =
            .error (.rankingUnavailable (.ranking f) d) :=
          if_neg fun hc => hf (List.contains_iff_mem.1 hc)
        rw [hvalue]
        exact .ranking hf

/-- A step is lowered, as it is in the dialect that lacks nothing, unless its operator uses
something that the dialect has not. -/
theorem ends_after (ho : o.Fits columns) (inner : Query) (position : Nat) :
    Ends (o.Exceeds d)
      (fun q => (∀ cause, ¬ o.Exceeds d cause) ∧
        inner.after .extendedWindowTies ⟨position, o, columns, o.output columns⟩ = .ok q)
      (inner.after d ⟨position, o, columns, o.output columns⟩) := by
  cases o with
  | extend name value window =>
      refine (ends_ofValue ho).bind fun v hv => .pure ⟨hv.1, ?_⟩
      show (Selected.ofValue .extendedWindowTies value window >>= _) = _
      rw [hv.2]
      rfl
  | selectRows condition =>
      have hfree := Expr.hasRanking_eq_false_iff.1 ho.1
      have hcondition := Scalar.ends_ofExpr d hfree
      refine (hcondition.weaken fun _ => .condition).bind fun s hs => .pure ⟨?_, ?_⟩
      · rintro cause (_ | _ | h)
        exact Dialect.not_lacks hs.1 cause h
      · show (Scalar.ofExpr .extendedWindowTies condition >>= _) = _
        rw [Scalar.ofExpr_extendedWindowTies hfree, hs.2]
        rfl
  | _ => exact .pure ⟨fun cause h => (by cases h), rfl⟩

end Queries

end Sql

/-! ### First places -/

section Least

variable {S T : Set Nat} {k : Nat}

theorem isLeast_succ (hzero : 0 ∉ S) (hsucc : ∀ j, j + 1 ∈ S ↔ j ∈ T) (h : IsLeast T k) :
    IsLeast S (k + 1) := by
  refine ⟨(hsucc k).2 h.1, fun j hj => ?_⟩
  cases j with
  | zero => exact absurd hj hzero
  | succ j => exact Nat.succ_le_succ (h.2 ((hsucc j).1 hj))

theorem eq_empty_of_succ (hzero : 0 ∉ S) (hsucc : ∀ j, j + 1 ∈ S ↔ j ∈ T) (h : T = ∅) :
    S = ∅ := by
  refine Set.eq_empty_iff_forall_notMem.2 fun j hj => ?_
  cases j with
  | zero => exact hzero hj
  | succ j =>
      have hmem := (hsucc j).1 hj
      rw [h] at hmem
      exact hmem

theorem isLeast_zero (h : 0 ∈ S) : IsLeast S 0 := ⟨h, fun _ _ => Nat.zero_le _⟩

end Least

/-! ### Chains -/

section Chains

variable {d : Dialect} {columns : List String} {o : Operator} {os : List Operator}

theorem zero_mem_unexpressed : 0 ∈ unexpressed d (o :: os) ↔ ∃ cause, o.Exceeds d cause := by
  simp [unexpressed]

theorem succ_mem_unexpressed (j : Nat) :
    j + 1 ∈ unexpressed d (o :: os) ↔ j ∈ unexpressed d os := by
  simp [unexpressed]

theorem zero_mem_buriedOrderings :
    0 ∈ buriedOrderings (o :: os) ↔
      o.isOrdering = true ∧ ∃ next ∈ os, next.isTerminal = false := by
  cases o <;> simp [buriedOrderings, Operator.isOrdering]

theorem succ_mem_buriedOrderings (j : Nat) :
    j + 1 ∈ buriedOrderings (o :: os) ↔ j ∈ buriedOrderings os := by
  simp [buriedOrderings]

/-- The queries of a chain of operators come out, as they do in the dialect that lacks nothing,
unless something is missing, and then the first operator that uses such a thing is named. -/
theorem afterAll_outcome (hos : FitChain columns os) (inner : Sql.Query) (position : Nat) :
    (∃ q, inner.afterAll d (stepsFrom position columns os) = .ok q ∧
        inner.afterAll .extendedWindowTies (stepsFrom position columns os) = .ok q ∧
          unexpressed d os = ∅) ∨
      ∃ k o cause, IsLeast (unexpressed d os) k ∧ os[k]? = some o ∧ o.Exceeds d cause ∧
        inner.afterAll d (stepsFrom position columns os) =
          .error (.compile cause (some ((position + k : Nat) : Int))) := by
  induction os generalizing columns inner position with
  | nil => exact .inl ⟨inner, rfl, rfl, by simp [unexpressed]⟩
  | cons o os ih =>
      have hstep := Sql.ends_after (d := d) hos.1 inner position
      rw [stepsFrom, Sql.Query.afterAll, Sql.Query.afterAll]
      cases hafter : inner.after d ⟨position, o, columns, o.output columns⟩ with
      | error cause =>
          have hexceeds := hstep.of_eq_error hafter
          exact .inr ⟨0, o, cause, isLeast_zero (zero_mem_unexpressed.2 ⟨cause, hexceeds⟩), rfl,
            hexceeds, rfl⟩
      | ok next =>
          obtain ⟨hno, hall⟩ := hstep.of_eq_ok hafter
          have hzero : 0 ∉ unexpressed d (o :: os) := fun h =>
            (zero_mem_unexpressed.1 h).elim hno
          rw [hall]
          rcases ih hos.2 next (position + 1) with ⟨q, hq, hq', hempty⟩ |
            ⟨k, o', cause, hleast, ho', hexceeds, herror⟩
          · exact .inl ⟨q, hq, hq', eq_empty_of_succ hzero succ_mem_unexpressed hempty⟩
          · refine .inr ⟨k + 1, o', cause, isLeast_succ hzero succ_mem_unexpressed hleast, ho',
              hexceeds, ?_⟩
            rw [Nat.add_assoc, Nat.add_comm 1] at herror
            exact herror

theorem map_find?_stepsFrom (position : Nat) (columns : List String) (os : List Operator)
    (keep : Operator → Bool) :
    ((stepsFrom position columns os).find? fun s => keep s.operator).map PlanStep.operator =
      os.find? keep := by
  induction os generalizing position columns with
  | nil => rfl
  | cons o os ih =>
      rw [stepsFrom, List.find?_cons, List.find?_cons]
      cases keep o with
      | true => rfl
      | false => exact ih (position + 1) (o.output columns)

/-- The orderings of a chain are accepted unless an operator that goes on follows one, and then the
first such ordering is named. -/
theorem checkOrdering_outcome (position : Nat) (columns : List String) (os : List Operator) :
    (checkOrdering (stepsFrom position columns os) = .ok () ∧ buriedOrderings os = ∅) ∨
      ∃ k terms next, IsLeast (buriedOrderings os) k ∧ os[k]? = some (.orderBy terms) ∧
        (os.drop (k + 1)).find? (fun o => !o.isTerminal) = some next ∧
          checkOrdering (stepsFrom position columns os) =
            .error (.compile (.orderingNotLast (.orderBy terms) next)
              (some ((position + k : Nat) : Int))) := by
  induction os generalizing position columns with
  | nil => exact .inl ⟨rfl, by simp [buriedOrderings]⟩
  | cons o os ih =>
      have hfind := map_find?_stepsFrom (position + 1) (o.output columns) os fun o => !o.isTerminal
      by_cases hburied : 0 ∈ buriedOrderings (o :: os)
      · obtain ⟨ho, following, hmem, hgoes⟩ := zero_mem_buriedOrderings.1 hburied
        obtain ⟨next, hnext⟩ : ∃ next, os.find? (fun o => !o.isTerminal) = some next :=
          Option.isSome_iff_exists.1 (List.find?_isSome.2 ⟨following, hmem, by simp [hgoes]⟩)
        cases o with
        | orderBy terms =>
            rw [hnext] at hfind
            obtain ⟨t, ht, rfl⟩ := Option.map_eq_some_iff.1 hfind
            refine .inr ⟨0, terms, t.operator, isLeast_zero hburied, rfl, hnext, ?_⟩
            rw [stepsFrom, checkOrdering, if_pos ho, ht]
            rfl
        | _ => cases ho
      · have hcheck : checkOrdering (stepsFrom position columns (o :: os)) =
            checkOrdering (stepsFrom (position + 1) (o.output columns) os) := by
          rw [stepsFrom, checkOrdering]
          split
          · rename_i ho
            have hnone : os.find? (fun o => !o.isTerminal) = none := by
              refine List.find?_eq_none.2 fun next hnext => ?_
              have hkeeps : next.isTerminal = true := by
                by_contra hgoes
                exact hburied (zero_mem_buriedOrderings.2
                  ⟨ho, next, hnext, Bool.eq_false_of_not_eq_true hgoes⟩)
              simp [hkeeps]
            rw [hnone, Option.map_eq_none_iff] at hfind
            rw [hfind]
          · rfl
        rw [hcheck]
        rcases ih (position + 1) (o.output columns) with ⟨hok, hempty⟩ |
          ⟨k, terms, next, hleast, hk, hnext, herror⟩
        · exact .inl ⟨hok, eq_empty_of_succ hburied succ_mem_buriedOrderings hempty⟩
        · rw [Nat.add_assoc, Nat.add_comm 1] at herror
          exact .inr ⟨k + 1, terms, next, isLeast_succ hburied succ_mem_buriedOrderings hleast, hk,
            hnext, herror⟩

end Chains

/-! ### Plans -/

theorem failsAs_compile {α : Type} {cause : CompileCause} {place position : Option Int}
    {c : ErrorClass} : FailsAs (.error (.compile cause place) : Result α) c position ↔
      (PlanCause.compile cause).errorClass = c ∧ position = place := by
  constructor
  · rintro ⟨cause', h, hc⟩
    cases h
    exact ⟨hc, rfl⟩
  · rintro ⟨hc, rfl⟩
    exact ⟨_, rfl, hc⟩

/-- The class of the error where a dialect has not what the operator uses: a ranking in a computed
column with a window, and a function otherwise. -/
def Operator.excessClass : Operator → ErrorClass
  | extend _ _ (some _) => .dialectMismatch
  | _ => .unsupportedExpression

theorem Operator.Exceeds.errorClass {d : Dialect} {o : Operator} {cause : CompileCause}
    (h : o.Exceeds d cause) : (PlanCause.compile cause).errorClass = o.excessClass := by
  rcases h with _ | ⟨_, _, _, rfl⟩ | ⟨_, _, _, rfl⟩ <;> rfl

theorem Operator.excessClass_ne (o : Operator) : o.excessClass ≠ .orderingNotOutermost := by
  rcases o with ⟨_, _, _ | _⟩ | _ | _ | _ | _ | _ <;> exact ErrorClass.noConfusion

namespace Plan

/-- Whether the result is selected or kept as a table is the same in every dialect. -/
theorem exists_statement_eq (p : Plan) :
    ∃ whole : Sql.Query → Sql.Statement, ∀ d, p.statement d = do
      checkOrdering p.steps
      let q ← (Sql.Query.table p.table.columns p.table.name).afterAll d p.steps
      return whole q := by
  unfold statement
  split
  · exact ⟨_, fun d => rfl⟩
  · exact ⟨_, fun d => rfl⟩

/-- What compiling a plan ends with: a text, the error of an ordering, or the error of something
that the dialect has not. -/
theorem Made.compile_outcome {p : Plan} (hp : p.Made) (s : Sql.Style) :
    (∃ text, p.compile s = .ok text ∧
        p.compile { s with dialect := .extendedWindowTies } = .ok text ∧
          buriedOrderings p.operators = ∅ ∧ unexpressed s.dialect p.operators = ∅) ∨
      (∃ k terms next, IsLeast (buriedOrderings p.operators) k ∧
        p.operators[k]? = some (.orderBy terms) ∧
          (p.operators.drop (k + 1)).find? (fun o => !o.isTerminal) = some next ∧
            p.compile s = .error (.compile (.orderingNotLast (.orderBy terms) next)
              (some ((k + 1 : Nat) : Int)))) ∨
      (buriedOrderings p.operators = ∅ ∧ ∃ k o cause,
        IsLeast (unexpressed s.dialect p.operators) k ∧ p.operators[k]? = some o ∧
          o.Exceeds s.dialect cause ∧
            p.compile s = .error (.compile cause (some ((k + 1 : Nat) : Int)))) := by
  obtain ⟨whole, hwhole⟩ := p.exists_statement_eq
  rw [compile, compile, hwhole, hwhole, steps]
  rcases checkOrdering_outcome 1 p.table.columns p.operators with
    ⟨hordering, hburied⟩ | ⟨k, terms, next, hleast, hk, hnext, herror⟩
  · rw [hordering]
    rcases afterAll_outcome (d := s.dialect) hp.fitChain
      (.table p.table.columns p.table.name) 1 with
      ⟨q, hq, hq', hempty⟩ | ⟨k, o, cause, hleast, hk, hexceeds, herror⟩
    · refine .inl ⟨(whole q).text s, ?_, ?_, hburied, hempty⟩
      · simp [hq, bind, Except.bind, pure, Except.pure]
      · simp [hq', bind, Except.bind, pure, Except.pure, Sql.Statement.text]
    · refine .inr (.inr ⟨hburied, k, o, cause, hleast, hk, hexceeds, ?_⟩)
      rw [Nat.add_comm] at herror
      simp [herror, bind, Except.bind]
  · refine .inr (.inl ⟨k, terms, next, hleast, hk, hnext, ?_⟩)
    rw [herror, Nat.add_comm]
    rfl

section Compile

variable {p : Plan}

theorem Made.compile_buried_iff (hp : p.Made) (s : Sql.Style) (position : Option Int) :
    FailsAs (p.compile s) .orderingNotOutermost position ↔
      ∃ k, IsLeast (buriedOrderings p.operators) k ∧ position = some ((k + 1 : Nat) : Int) := by
  rcases hp.compile_outcome s with ⟨text, htext, -, hburied, -⟩ |
    ⟨k, terms, next, hleast, -, -, herror⟩ | ⟨hburied, k, o, cause, -, -, hexceeds, herror⟩
  · rw [htext]
    exact iff_of_false not_failsAs_ok fun ⟨k, hk, _⟩ => hk.nonempty.ne_empty hburied
  · rw [herror, failsAs_compile]
    constructor
    · exact fun h => ⟨k, hleast, h.2⟩
    · rintro ⟨k', hk', rfl⟩
      exact ⟨rfl, by rw [hleast.unique hk']⟩
  · rw [herror, failsAs_compile, hexceeds.errorClass]
    exact iff_of_false (fun h => o.excessClass_ne h.1) fun ⟨k, hk, _⟩ =>
      hk.nonempty.ne_empty hburied

theorem Made.compile_excess_iff (hp : p.Made) (s : Sql.Style) {c : ErrorClass}
    (hc : c ≠ .orderingNotOutermost) (position : Option Int) :
    FailsAs (p.compile s) c position ↔ buriedOrderings p.operators = ∅ ∧
      ∃ k o, IsLeast (unexpressed s.dialect p.operators) k ∧ p.operators[k]? = some o ∧
        c = o.excessClass ∧ position = some ((k + 1 : Nat) : Int) := by
  rcases hp.compile_outcome s with ⟨text, htext, -, -, hempty⟩ |
    ⟨k, terms, next, hleast, -, -, herror⟩ | ⟨hburied, k, o, cause, hleast, hk, hexceeds, herror⟩
  · rw [htext]
    exact iff_of_false not_failsAs_ok fun ⟨_, k, _, hk, _⟩ => hk.nonempty.ne_empty hempty
  · rw [herror, failsAs_compile]
    exact iff_of_false (fun h => hc h.1.symm) fun h => hleast.nonempty.ne_empty h.1
  · rw [herror, failsAs_compile, hexceeds.errorClass]
    constructor
    · exact fun h => ⟨hburied, k, o, hleast, hk, h.1.symm, h.2⟩
    · rintro ⟨-, k', o', hleast', hk', rfl, rfl⟩
      obtain rfl := hleast.unique hleast'
      rw [hk, Option.some.injEq] at hk'
      exact ⟨by rw [hk'], rfl⟩

theorem Made.compile_ok_iff (hp : p.Made) (s : Sql.Style) :
    (∃ text, p.compile s = .ok text) ↔
      buriedOrderings p.operators = ∅ ∧ unexpressed s.dialect p.operators = ∅ := by
  rcases hp.compile_outcome s with ⟨text, htext, -, hburied, hempty⟩ |
    ⟨k, terms, next, hleast, -, -, herror⟩ | ⟨-, k, o, cause, hleast, -, -, herror⟩
  · exact iff_of_true ⟨text, htext⟩ ⟨hburied, hempty⟩
  · rw [herror]
    exact iff_of_false (by simp) fun h => hleast.nonempty.ne_empty h.1
  · rw [herror]
    exact iff_of_false (by simp) fun h => hleast.nonempty.ne_empty h.2

end Compile

end Plan

end Tabula
