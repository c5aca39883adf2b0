import Tabula.Proofs.Expr.Foreign.Call
import Tabula.Expr.Grammar.Statement

/-!
Statements that begin with a word of their own are no expressions.
-/

namespace Tabula

open Reader Phrase

variable {g : Grammar}

theorem barren_command : Barren command := .andThen fun _ => .pure rfl

theorem barren_orCommand (name : String) : Barren (orCommand name) :=
  .andThen fun _ => .ite (.pure rfl) barren_command

theorem barren_onTable (name : String) : Barren (onTable g name) := .andThen fun _ => .pure rfl

theorem barren_beginOf : Barren beginOf :=
  .andThen fun _ => .andThen fun _ => .andThen fun _ => .andThen fun _ => .pure rfl

theorem barren_endOf (name : String) : Barren (endOf name) := by
  unfold endOf
  extract_lets afterChain afterSavepoint
  have hsavepoint : Barren (afterSavepoint ()) :=
    .andThen fun _ => .ite (.andThen fun _ => .andThen fun _ => .pure rfl) (.pure rfl)
  exact .andThen fun _ => .andThen fun _ =>
    .ite (.andThen fun _ => .andThen fun _ => hsavepoint) hsavepoint

theorem barren_createOf : Barren (createOf g) := by
  refine .andThen fun _ => .andThen fun _ => .andThen fun _ => .andThen fun _ =>
    .ite ?_ barren_command
  refine .andThen fun _ => .andThen fun _ => .andThen fun _ => .ite (.andThen fun found => ?_)
    (barren_orCommand _)
  cases found with
  | none => exact barren_command
  | some _ => exact barren_orCommand _

theorem barren_dropOf : Barren dropOf :=
  .andThen fun _ => .andThen fun _ => .andThen fun _ => .ite
    (.andThen fun _ => .andThen fun _ => .andThen fun _ => .pure rfl) barren_command

theorem barren_deleteOf : Barren (deleteOf g) := by
  unfold deleteOf
  extract_lets afterUsing afterFrom afterNames
  have husing : Barren (afterUsing ()) := .andThen fun _ => .pure rfl
  have hfrom : Barren (afterFrom ()) :=
    .andThen fun _ => .ite (.andThen fun _ => husing) husing
  have hnames : Barren (afterNames ()) :=
    .andThen fun _ => .ite (.andThen fun _ => hfrom) hfrom
  exact .andThen fun _ => .ite (.andThen fun _ => .ite (.andThen fun _ => hnames) hnames)
    hnames

theorem barren_insertOf : Barren (insertOf g) := by
  unfold insertOf
  extract_lets afterReturning afterQuery afterNames afterTable afterReplace
  have hquery : Barren (afterQuery ()) :=
    .andThen fun _ => .ite (.andThen fun _ => .pure rfl) (.pure rfl)
  have hnames : Barren (afterNames ()) := by
    refine .andThen fun found => ?_
    cases found with
    | none => exact .andThen fun _ => hquery
    | some _ => exact hquery
  have htable : Barren (afterTable ()) :=
    .andThen fun _ => .ite (.andThen fun _ => hnames) hnames
  have hreplace : Barren (afterReplace ()) :=
    .andThen fun _ => .andThen fun _ => .andThen fun _ =>
      .ite (.andThen fun _ => htable) (.andThen fun _ => htable)
  exact .andThen fun _ => .ite (.andThen fun _ => hreplace) hreplace

theorem barren_updateOf : Barren (updateOf g) := by
  unfold updateOf
  extract_lets afterSet
  have hset : Barren (afterSet ()) := .andThen fun _ => .andThen fun _ => .pure rfl
  exact .andThen fun _ => .andThen fun _ => .ite (.andThen fun _ => hset) hset

theorem barren_truncateOf : Barren (truncateOf g) :=
  .andThen fun _ => .andThen fun _ => .andThen fun _ => .andThen fun _ => barren_orCommand _

theorem barren_analyzeOf : Barren (analyzeOf g) :=
  .andThen fun _ => .ite (.pure rfl) (.andThen fun _ => .andThen fun _ => .andThen fun _ =>
    .ite (.andThen fun _ => .andThen fun _ => .pure rfl) (.pure rfl))

theorem barren_mergeOf : Barren (mergeOf g) :=
  .andThen fun _ => .andThen fun _ => .andThen fun _ => .andThen fun _ => .andThen fun _ =>
    .pure rfl

theorem barren_pivotOf : Barren (pivotOf g) := by
  unfold pivotOf
  extract_lets afterGroup afterUsing afterOn
  have husing : Barren (afterUsing ()) :=
    .andThen fun _ => .ite (.andThen fun _ => .pure rfl) (.pure rfl)
  have hon : Barren (afterOn ()) :=
    .andThen fun _ => .ite (.andThen fun _ => husing) husing
  exact .andThen fun _ => .andThen fun _ => .ite (.andThen fun _ => hon) hon

theorem barren_attachOf (name : String) : Barren (attachOf g name) := by
  unfold attachOf
  extract_lets afterParens afterName
  have hname : Barren (afterName ()) :=
    .andThen fun _ => .ite (.andThen fun _ => .pure rfl) (.pure rfl)
  exact .andThen fun _ => .andThen fun _ => .andThen fun _ => .andThen fun _ =>
    .ite (.andThen fun _ => hname) hname

theorem barren_installOf : Barren installOf :=
  .andThen fun _ => .andThen fun _ => .ite (.andThen fun _ => .pure rfl) (.pure rfl)

theorem barren_grantOf (name : String) : Barren (grantOf name) := by
  refine .andThen fun _ => .andThen fun _ => .andThen fun _ => .andThen fun found => ?_
  cases found with
  | none => exact barren_command
  | some _ =>
      exact .andThen fun _ => .ite (.andThen fun _ => barren_orCommand _) barren_command

theorem barren_copyOf : Barren (copyOf g) := by
  unfold copyOf
  extract_lets afterTarget afterSource
  have hsource : Barren (afterSource ()) :=
    .andThen fun _ => .ite (.andThen fun _ => .andThen fun _ => barren_orCommand _)
      (.andThen fun _ => barren_orCommand _)
  refine .andThen fun _ => .andThen fun found => ?_
  cases found with
  | none => exact .andThen fun _ => hsource
  | some _ => exact hsource

theorem barren_commentOf : Barren commentOf := by
  refine .andThen fun _ => .andThen fun _ => .andThen fun _ => .andThen fun _ =>
    .ite ?_ barren_command
  refine .andThen fun _ => .andThen fun _ => .andThen fun next => ?_
  split
  · exact .andThen fun _ => .pure rfl
  · exact .failure

theorem barren_alterOf : Barren (alterOf g) :=
  .andThen fun _ => .ite (.andThen fun _ => .andThen fun _ => .andThen fun _ =>
    .ite (barren_orCommand _) barren_command) barren_command

/-- No statement with a word of its own is an expression. -/
theorem barren_statementOf {key : String} {r : Reader Phrase} (h : statementOf g key = some r) :
    Barren r := by
  unfold statementOf at h
  split at h
  case h_34 =>
    split at h
    · exact Option.some.inj h ▸ barren_command
    · cases h
  all_goals obtain rfl := Option.some.inj h
  · exact barren_alterOf
  · exact barren_analyzeOf
  · exact barren_attachOf _
  · exact barren_beginOf
  · exact .andThen fun _ => .andThen fun _ => barren_onTable _
  · exact barren_commentOf
  · exact barren_endOf _
  · exact barren_copyOf
  · exact barren_createOf
  · exact barren_deleteOf
  · exact barren_describeOf
  · exact barren_describeOf
  · exact barren_attachOf _
  · exact barren_dropOf
  · exact .andThen fun _ => .ite barren_installOf barren_command
  · exact barren_grantOf _
  · exact barren_insertOf
  · exact barren_installOf
  · exact .andThen fun _ => .andThen fun _ => .pure rfl
  · exact barren_command
  · exact barren_mergeOf
  · exact barren_pivotOf
  · exact barren_pivotOf
  · exact barren_pivotOf
  · exact .andThen fun _ => .pure rfl
  · exact barren_grantOf _
  · exact barren_endOf _
  · exact .andThen fun _ => barren_orCommand _
  · exact .andThen fun _ => .ite (.pure rfl) barren_command
  · exact barren_truncateOf
  · exact .andThen fun _ => barren_onTable _
  · exact barren_updateOf
  · exact .andThen fun _ => barren_onTable _

end Tabula
