import Tabula.Proofs.Expr.Explained.Operand
import Tabula.Proofs.Expr.Foreign.Statement
import Tabula.Proofs.Result

/-!
A text is used as a whole. Every part of the grammar explains what it takes, to any depth, so the
lexemes of a statement all have a use in the phrase that it says; and a text says a phrase only if
it has one statement, with one semicolon after it at most.
-/

namespace Tabula

open Reader Phrase

variable {g : Grammar} {ls : List Lexeme} {p : Phrase} {text : String}

namespace Grammar.Explains

section Rules

variable (hg : g.Explains)

include hg

theorem assignmentRule (ls : List Lexeme) : Ensures (assignmentRule g) ls (Explained ls) := by
  refine .bind ((hg.disjunction ls).mono fun found rest hfound => ?_)
  extract_lets afterLeft
  have hleft (left : Option Phrase) (mid : List Lexeme) (h : Explained ls left mid) :
      Ensures (afterLeft left) mid (Explained ls) := by
    refine .ifMark (fun _ _ _ _ => .andThen fun _ _ => ?_) (.pure h)
    cases left with
    | none => exact .failure
    | some p => exact .pure (.of_not_isExpr rfl)
  cases found with
  | some p => exact .bind (.pure (hleft (some p) rest hfound))
  | none =>
      rcases rest with _ | ⟨l, tail⟩
      · exact .bind (.peek (.bind (.pure (hleft none [] hfound))))
      refine .bind (.peek (.bind (.secondAtMark (.ite (fun h => ?_) fun _ => ?_))))
      · -- The word before the mark is passed over, and the mark is there.
        rcases tail with _ | ⟨m, after⟩
        · simp at h
        refine .bind (.skip (.bind (.pure (.bind (.mark_cons (by simpa using h) ?_)))))
        exact .andThen fun _ _ => .pure (.of_not_isExpr rfl)
      · exact .bind (.pure (hleft none _ hfound))

theorem expressionRule (ls : List Lexeme) : Ensures (expressionRule g) ls (Explained ls) := by
  refine .bind ((ensures_aliasBefore ls).mono fun found rest hfound => ?_)
  cases found with
  | some p => exact .pure (.of_foreign hfound)
  | none =>
      obtain rfl : rest = ls := hfound
      exact .bind ((hg.assignment rest).mono fun _ _ h => explained_aliasOf false h)

theorem statementRule (ls : List Lexeme) : Ensures (statementRule g) ls (Explained ls) := by
  refine .bind (.peek ?_)
  rcases ls with _ | ⟨l, tail⟩
  · exact .pure .none
  refine .bind (.secondAtMark ?_)
  refine .ite (fun _ => .andThen fun _ _ => .pure (.of_not_isExpr rfl)) fun _ => ?_
  refine .ite (fun _ => barren_command.explained _ _) fun _ => ?_
  refine .ite (fun _ => hg.column _) fun _ => ?_
  split
  · rename_i r hr
    exact .andThen fun _ rest => (barren_statementOf hr).explained _ rest
  refine .bind (.peekSecond (.ite (fun _ => ?_) fun _ => ?_))
  · refine .andThen fun _ _ => .andThen fun _ mid => ?_
    refine .bind ((barren_setOperations rfl mid).mono fun q rest hq => ?_)
    exact (barren_withClauses hq).explained _ rest
  refine .bind ((hg.expression (l :: tail)).mono fun found rest hfound => ?_)
  cases found with
  | some p =>
      refine .bind ((kept_setOperations p rest).mono fun q mid hq => ?_)
      refine .bind ((kept_withClauses q mid).mono fun r last hr => .pure ?_)
      exact hfound.of_kept (hq.trans hr)
  | none =>
      refine .bind ((hg.select false rest).mono fun query mid hmid => ?_)
      cases query with
      | none =>
          obtain rfl : mid = rest := hmid
          exact .pure hfound
      | some q => exact (barren_withClauses hmid).explained _ mid

end Rules

/-- To any depth, the parts of the grammar explain what they take. -/
theorem ofDepth (depth : Nat) : (Grammar.ofDepth depth).Explains := by
  induction depth with
  | zero =>
      exact ⟨fun _ _ => .failure, fun _ _ => .failure, fun _ => .failure, fun _ => .failure,
        fun _ => .failure, fun _ => .failure, fun _ => .failure, fun _ => .failure,
        fun _ => .failure, fun _ _ => .failure⟩
  | succ depth ih =>
      exact {
        select := foreign_select
        type := foreign_type
        expression := ih.expressionRule
        assignment := ih.assignmentRule
        disjunction := ih.disjunctionRule
        condition := ih.conditionRule kept_suffixes
        bits := ih.bitsRule
        signed := ih.signedRule fun ls => (ih.typed ls).mono fun _ _ => Settled.explained
        column := fun ls => (ih.columnRule ls).mono fun _ _ => Settled.explained
        argument := ih.argumentRule }

end Grammar.Explains

/-- A call is built only of as many arguments as the function takes. -/
theorem takes_of_call? {f : ScalarFn} {es : List Expr} {e : Expr} (h : Expr.call? f es = some e) :
    (Callee.scalar f).takes es.length = true := by
  unfold Expr.call? at h
  split at h
  · rfl
  · rfl
  · rfl
  · simp [Callee.takes]
  · cases h

/-- A call that converts to an expression is of a function that takes its arguments. -/
theorem isExpr_call {name : String} {args : List Phrase} {e : Expr}
    (hargs : ∀ es, toExprs text args = .ok es → areExprs args = true ∧ es.length = args.length)
    (h : (Phrase.call name args).toExpr text = .ok e) :
    (Phrase.call name args).isExpr = true := by
  rw [toExpr] at h
  rw [isExpr, Bool.and_eq_true]
  cases hcallee : callee name with
  | unknown n =>
      rw [hcallee] at h
      cases h
  | ranking f =>
      simp only [hcallee] at h
      split at h
      · rename_i hempty
        obtain rfl := List.isEmpty_iff.1 hempty
        exact ⟨rfl, rfl⟩
      · cases h
  | scalar f =>
      simp only [hcallee] at h
      obtain ⟨es, hes, h⟩ := bind_eq_ok.1 h
      obtain ⟨hexprs, hlength⟩ := hargs es hes
      refine ⟨?_, hexprs⟩
      split at h
      · rename_i e' hcall
        exact hlength ▸ takes_of_call? hcall
      · cases h

mutual
/-- What converts to an expression has only forms that expressions have, unless a name in it is
qualified. -/
theorem isExpr_of_toExpr (p : Phrase) (e : Expr) (he : p.toExpr text = .ok e)
    (h : p.isQualified = false) : p.isExpr = true := by
  cases p with
  | path qualifiers n comments => simpa [isQualified, isExpr] using h
  | number _ | string _ | bool _ | null => rw [isExpr]
  | paren p =>
      rw [toExpr] at he
      rw [isQualified] at h
      rw [isExpr]
      exact isExpr_of_toExpr p e he h
  | minus p =>
      rw [toExpr] at he
      rw [isQualified] at h
      rw [isExpr]
      obtain ⟨e, he, -⟩ := bind_eq_ok.1 he
      exact isExpr_of_toExpr p e he h
  | isNull p =>
      rw [toExpr] at he
      rw [isQualified] at h
      rw [isExpr]
      obtain ⟨e, he, -⟩ := bind_eq_ok.1 he
      exact isExpr_of_toExpr p e he h
  | not p =>
      rw [isQualified] at h
      rw [isExpr]
      obtain ⟨e, he⟩ : ∃ e, p.toExpr text = .ok e := by
        cases p with
        | isNull q =>
            rw [toExpr] at he
            obtain ⟨e, he, -⟩ := bind_eq_ok.1 he
            rw [toExpr, he]
            exact ⟨_, rfl⟩
        | _ =>
            rw [toExpr] at he
            · obtain ⟨e, he, -⟩ := bind_eq_ok.1 he
              exact ⟨e, he⟩
            · nofun
      exact isExpr_of_toExpr p e he h
  | compare op l r | arith op l r | junction op l r =>
      rw [toExpr] at he
      rw [isQualified, Bool.or_eq_false_iff] at h
      rw [isExpr, Bool.and_eq_true]
      obtain ⟨a, ha, he⟩ := bind_eq_ok.1 he
      obtain ⟨b, hb, -⟩ := bind_eq_ok.1 he
      exact ⟨isExpr_of_toExpr l a ha h.1, isExpr_of_toExpr r b hb h.2⟩
  | call name args =>
      rw [isQualified] at h
      exact isExpr_call (fun es hes => areExprs_of_toExprs args es hes h) he
  | otherTest | cast _ | windowed | type _ _ | placeholder _ | form _ =>
      rw [toExpr] at he
      cases he
theorem areExprs_of_toExprs (ps : List Phrase) (es : List Expr) (hes : toExprs text ps = .ok es)
    (h : areQualified ps = false) : areExprs ps = true ∧ es.length = ps.length := by
  cases ps with
  | nil =>
      rw [toExprs] at hes
      cases hes
      exact ⟨rfl, rfl⟩
  | cons p ps =>
      rw [toExprs] at hes
      obtain ⟨e, he, hes⟩ := bind_eq_ok.1 hes
      obtain ⟨es', hes', hes⟩ := bind_eq_ok.1 hes
      obtain rfl := pure_eq_ok.1 hes
      rw [areQualified, Bool.or_eq_false_iff] at h
      obtain ⟨hps, hlength⟩ := areExprs_of_toExprs ps es' hes' h.2
      rw [areExprs, isExpr_of_toExpr p e he h.1, hps]
      exact ⟨rfl, by simp [hlength]⟩
end

end Tabula
