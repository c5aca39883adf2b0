import Tabula.Plan
import Tabula.Proofs.Expr.Eval

/-!
The shape of plans. A plan is made from a table reference and by adding operators, and each addition
is checked. So every operator of it reads columns that come out of what is before it, rankings stand
only where a window is, and no column comes out twice.
-/

namespace Tabula

/-- The operator reads only these columns, and it has a ranking if and only if it has a window. -/
def Operator.Fits (columns : List String) : Operator → Prop
  | extend _ value none => value.Scalar columns
  | extend _ value (some w) => (∃ f, value = .ranking f) ∧ ∀ c ∈ w.columns, c ∈ columns
  | selectRows condition => condition.Scalar columns
  | orderBy terms => ∀ t ∈ terms, t.column ∈ columns
  | selectColumns selected => selected.Nodup ∧ ∀ c ∈ selected, c ∈ columns
  | dropColumns _ => True
  | materialize .. => True

theorem Operator.Fits.nodup_output {columns : List String} {o : Operator} (h : o.Fits columns)
    (hn : columns.Nodup) : (o.output columns).Nodup := by
  cases o with
  | extend name value window =>
      rw [output]
      split
      · exact hn
      · rename_i hnot
        rw [List.contains_iff_mem] at hnot
        refine List.nodup_append.2 ⟨hn, List.nodup_cons.2 ⟨List.not_mem_nil, .nil⟩, ?_⟩
        intro c hc d hd heq
        exact hnot (List.mem_singleton.1 hd ▸ heq ▸ hc)
  | selectRows condition => exact hn
  | orderBy terms => exact hn
  | selectColumns selected => exact h.1
  | dropColumns dropped => exact hn.filter _
  | materialize table temporary => exact hn

/-- Every operator fits the columns that come out before it. -/
def FitChain : List String → List Operator → Prop
  | _, [] => True
  | columns, o :: os => o.Fits columns ∧ FitChain (o.output columns) os

theorem fitChain_append {columns : List String} {os os' : List Operator} :
    FitChain columns (os ++ os') ↔
      FitChain columns os ∧ FitChain (Plan.columnsAfter columns os) os' := by
  induction os generalizing columns with
  | nil => simp [FitChain, Plan.columnsAfter]
  | cons o os ih =>
      rw [List.cons_append, FitChain, FitChain, ih, and_assoc]
      rfl

/-- The plan is made from a table reference by adding operators. -/
inductive Plan.Made : Plan → Prop
  | table {name : String} {columns : List Value} {temporary : Bool} {ref : TableRef}
      (h : TableRef.make name columns temporary = .ok ref) : Made (ofTable ref)
  | add {p q : Plan} {d : Draft} (hp : Made p) (h : p.add d = .ok q) : Made q

/-! ### What checks leave -/

theorem eraseRepsBy_loop_ne_nil {α : Type} {r : α → α → Bool} (a : α) (as acc : List α) :
    List.eraseRepsBy.loop r a as acc ≠ [] := by
  induction as generalizing a acc with
  | nil => simp [List.eraseRepsBy.loop]
  | cons b as ih =>
      rw [List.eraseRepsBy.loop]
      split
      · exact ih a acc
      · exact ih b (a :: acc)

theorem sortedNames_eq_nil {names : List String} : sortedNames names = [] ↔ names = [] := by
  have hlength : (names.mergeSort fun a b => decide (a ≤ b)).length = names.length :=
    List.length_mergeSort names
  rw [sortedNames]
  cases hsort : names.mergeSort fun a b => decide (a ≤ b) with
  | nil =>
      rw [hsort] at hlength
      rw [List.eq_nil_of_length_eq_zero hlength.symm]
      simp [List.eraseReps, List.eraseRepsBy]
  | cons n rest =>
      -- duplicates are dropped, but never the last of them
      have hne : names ≠ [] := by
        rintro rfl
        simp at hsort
      exact iff_of_false (eraseRepsBy_loop_ne_nil n rest []) hne

theorem filter_not_contains_eq_nil {needed available : List String} :
    (needed.filter fun c => !available.contains c) = [] ↔ ∀ c ∈ needed, c ∈ available := by
  simp [List.filter_eq_nil_iff]

theorem checkColumns_eq_ok {needed available : List String} {position : Option Int} {u : Unit} :
    checkColumns needed available position = .ok u ↔ ∀ c ∈ needed, c ∈ available := by
  rw [← filter_not_contains_eq_nil, ← sortedNames_eq_nil, checkColumns]
  split
  · rename_i h
    rw [h]
    simp
  · rename_i h
    exact iff_of_false nofun h

section Names

variable {position : Option Int} {seen names : List String}

theorem uniqueFrom_cons_eq_ok {name : String} {rest : List Value} :
    uniqueFrom position seen (.str name :: rest) = .ok names ↔ name ≠ "" ∧ name ∉ seen ∧
      ∃ others, uniqueFrom position (name :: seen) rest = .ok others ∧ names = name :: others := by
  rw [uniqueFrom]
  split
  · rename_i hname
    exact iff_of_false nofun fun h => h.1 hname
  · rename_i hname
    split
    · rename_i hseen
      exact iff_of_false nofun fun h => h.2.1 (List.contains_iff_mem.1 hseen)
    · rename_i hseen
      rw [List.contains_iff_mem] at hseen
      rw [bind_eq_ok, and_iff_right hname, and_iff_right hseen]
      exact exists_congr fun others => and_congr_right fun _ => pure_eq_ok.trans eq_comm

/-- Names are accepted exactly if they are non-empty texts, none is repeated and none was seen
before, and they come out as they are. -/
theorem uniqueFrom_eq_ok {columns : List Value} : uniqueFrom position seen columns = .ok names ↔
    columns = names.map .str ∧ (∀ n ∈ names, n ≠ "") ∧ names.Nodup ∧ ∀ n ∈ names, n ∉ seen := by
  induction columns generalizing seen names with
  | nil =>
      rw [uniqueFrom, Except.ok.injEq, eq_comm (a := ([] : List Value)), List.map_eq_nil_iff]
      constructor
      · rintro rfl
        simp
      · exact fun h => h.1.symm
  | cons v rest ih =>
      cases v with
      | str name =>
          rw [uniqueFrom_cons_eq_ok]
          constructor
          · rintro ⟨hname, hseen, others, hothers, rfl⟩
            obtain ⟨rfl, hnamed, hnodup, hnew⟩ := ih.1 hothers
            simp only [List.mem_cons, not_or] at hnew
            refine ⟨rfl, List.forall_mem_cons.2 ⟨hname, hnamed⟩, List.nodup_cons.2 ⟨?_, hnodup⟩,
              List.forall_mem_cons.2 ⟨hseen, fun n hn => (hnew n hn).2⟩⟩
            exact fun hmem => (hnew name hmem).1 rfl
          · rintro ⟨hnames, hnamed, hnodup, hnew⟩
            obtain ⟨name, others, rfl, hname, rfl⟩ := List.map_eq_cons_iff.1 hnames.symm
            cases hname
            rw [List.forall_mem_cons] at hnamed hnew
            rw [List.nodup_cons] at hnodup
            refine ⟨hnamed.1, hnew.1, others, ih.2 ⟨rfl, hnamed.2, hnodup.2, ?_⟩, rfl⟩
            simp only [List.mem_cons, not_or]
            exact fun n hn => ⟨fun heq => hnodup.1 (heq ▸ hn), hnew.2 n hn⟩
      | _ =>
          refine iff_of_false nofun ?_
          rintro ⟨hnames, -⟩
          cases names <;> cases hnames

end Names

theorem nodup_of_uniqueColumns {columns : List Value} {position : Option Int}
    {names : List String} (h : uniqueColumns columns position = .ok names) : names.Nodup :=
  (uniqueFrom_eq_ok.1 h).2.2.1

theorem nodup_of_make {name : String} {columns : List Value} {temporary : Bool} {ref : TableRef}
    (h : TableRef.make name columns temporary = .ok ref) : ref.columns.Nodup := by
  unfold TableRef.make at h
  split at h
  · cases h
  · obtain ⟨names, hnames, h⟩ := bind_eq_ok.1 h
    dsimp only at h
    split at h
    · cases h
    · cases h
      exact nodup_of_uniqueColumns hnames

theorem exists_ranking_of_checkWindow {value : Expr} {w : Window} {u : Unit}
    (h : checkWindow value (some w) = .ok u) : ∃ f, value = .ranking f := by
  cases value with
  | ranking f => exact ⟨f, rfl⟩
  | _ => cases h

theorem hasRanking_of_checkWindow {value : Expr} {u : Unit} (h : checkWindow value none = .ok u) :
    value.hasRanking = false := by
  unfold checkWindow at h
  split at h <;> simp_all

/-! ### What the checks of operators ask for -/

section Checks

variable {columns : List String} {position : Option Int} {o : Operator}

/-- Columns that are checked before an operator is given back. -/
theorem checkColumns_bind_eq_ok {needed : List String} {result : Operator} :
    (checkColumns needed columns position >>= fun _ => pure result) = .ok o ↔
      (∀ c ∈ needed, c ∈ columns) ∧ o = result := by
  rw [bind_eq_ok]
  constructor
  · rintro ⟨_, hreads, h⟩
    exact ⟨checkColumns_eq_ok.1 hreads, (pure_eq_ok.1 h).symm⟩
  · rintro ⟨hreads, rfl⟩
    exact ⟨(), checkColumns_eq_ok.2 hreads, rfl⟩

theorem check_extend_eq_ok {name : String} {value : Expr} {window : Option Window} :
    (Draft.extend name value window).check columns position = .ok o ↔
      name ≠ "" ∧ checkWindow value window = .ok () ∧
        (∀ c ∈ (Operator.extend name value window).reads, c ∈ columns) ∧
          o = .extend name value window := by
  unfold Draft.check
  dsimp only
  by_cases hname : name = ""
  · rw [if_pos hname]
    exact iff_of_false nofun fun h => h.1 hname
  · rw [if_neg hname, and_iff_right hname, bind_eq_ok]
    constructor
    · rintro ⟨_, hwindow, h⟩
      exact ⟨mapError_eq_ok.1 hwindow, checkColumns_bind_eq_ok.1 h⟩
    · rintro ⟨hwindow, h⟩
      exact ⟨(), mapError_eq_ok.2 hwindow, checkColumns_bind_eq_ok.2 h⟩

theorem check_selectRows_eq_ok {condition : Expr} :
    (Draft.selectRows condition).check columns position = .ok o ↔
      condition.Scalar columns ∧ o = .selectRows condition := by
  unfold Draft.check
  dsimp only
  rw [Expr.Scalar, and_assoc]
  cases condition.hasRanking with
  | true => exact iff_of_false (fun h => by cases h) fun h => Bool.noConfusion h.1
  | false => exact checkColumns_bind_eq_ok.trans (and_iff_right rfl).symm

theorem check_orderBy_eq_ok {terms : List OrderTerm} :
    (Draft.orderBy terms).check columns position = .ok o ↔
      terms ≠ [] ∧ (∀ t ∈ terms, t.column ∈ columns) ∧ o = .orderBy terms := by
  unfold Draft.check
  dsimp only
  cases terms with
  | nil => exact iff_of_false nofun fun h => h.1 rfl
  | cons t terms =>
      rw [and_iff_right (List.cons_ne_nil t terms), ← List.forall_mem_map]
      exact checkColumns_bind_eq_ok

theorem check_selectColumns_eq_ok {selected : List Value} :
    (Draft.selectColumns selected).check columns position = .ok o ↔
      ∃ names, uniqueColumns selected position = .ok names ∧ names ≠ [] ∧
        (∀ c ∈ names, c ∈ columns) ∧ o = .selectColumns names := by
  unfold Draft.check
  dsimp only
  rw [bind_eq_ok]
  refine exists_congr fun names => and_congr_right fun _ => ?_
  cases names with
  | nil => exact iff_of_false nofun fun h => h.1 rfl
  | cons n names =>
      rw [and_iff_right (List.cons_ne_nil n names)]
      exact checkColumns_bind_eq_ok

theorem check_dropColumns_eq_ok {dropped : List Value} :
    (Draft.dropColumns dropped).check columns position = .ok o ↔
      ∃ names, uniqueColumns dropped position = .ok names ∧ (∀ c ∈ names, c ∈ columns) ∧
        (Operator.dropColumns names).output columns ≠ [] ∧ o = .dropColumns names := by
  unfold Draft.check
  dsimp only
  rw [bind_eq_ok]
  refine exists_congr fun names => and_congr_right fun _ => ?_
  simp only [bind_eq_ok, checkColumns_eq_ok]
  rw [exists_and_left, exists_const]
  refine and_congr_right fun _ => ?_
  cases houtput : (Operator.dropColumns names).output columns with
  | nil => exact iff_of_false nofun fun h => h.1 rfl
  | cons c rest => exact pure_eq_ok.trans (by simp [eq_comm])

theorem check_materialize_eq_ok {table : String} {temporary : Bool} :
    (Draft.materialize table temporary).check columns position = .ok o ↔
      table ≠ "" ∧ o = .materialize table temporary := by
  unfold Draft.check
  dsimp only
  by_cases htable : table = ""
  · rw [if_pos htable]
    exact iff_of_false nofun fun h => h.1 htable
  · rw [if_neg htable]
    exact pure_eq_ok.trans (by simp [htable, eq_comm])

/-- An operator that passes its check fits the columns it was checked against. -/
theorem fits_of_check {d : Draft} (h : d.check columns position = .ok o) : o.Fits columns := by
  cases d with
  | extend name value window =>
      obtain ⟨_, hwindow, hreads, rfl⟩ := check_extend_eq_ok.1 h
      cases window with
      | none => exact ⟨hasRanking_of_checkWindow hwindow, hreads⟩
      | some w =>
          refine ⟨exists_ranking_of_checkWindow hwindow, ?_⟩
          exact fun c hc => hreads c (List.mem_append_right _ hc)
  | selectRows condition =>
      obtain ⟨hscalar, rfl⟩ := check_selectRows_eq_ok.1 h
      exact hscalar
  | orderBy terms =>
      obtain ⟨_, hreads, rfl⟩ := check_orderBy_eq_ok.1 h
      exact hreads
  | selectColumns selected =>
      obtain ⟨names, hnames, _, hreads, rfl⟩ := check_selectColumns_eq_ok.1 h
      exact ⟨nodup_of_uniqueColumns hnames, hreads⟩
  | dropColumns dropped =>
      obtain ⟨names, _, _, _, rfl⟩ := check_dropColumns_eq_ok.1 h
      exact trivial
  | materialize table temporary =>
      obtain ⟨_, rfl⟩ := check_materialize_eq_ok.1 h
      exact trivial

end Checks

/-- An operator that passes its check can be added where the plan does not end. -/
theorem Plan.add_of_check {p : Plan} {d : Draft} {o : Operator} (hp : p.terminal? = none)
    (h : d.check p.columns (some p.next) = .ok o) :
    p.add d = .ok ⟨p.table, p.operators ++ [o]⟩ := by
  unfold Plan.add
  rw [hp]
  simp only [h]
  rfl

/-- Adding an operator puts it, checked, after the others. -/
theorem add_eq_ok {p q : Plan} {d : Draft} (h : p.add d = .ok q) :
    ∃ o, o.Fits p.columns ∧ q = ⟨p.table, p.operators ++ [o]⟩ := by
  unfold Plan.add at h
  dsimp only at h
  split at h
  · cases h
  · obtain ⟨o, ho, h⟩ := bind_eq_ok.1 h
    cases h
    exact ⟨o, fits_of_check ho, rfl⟩

namespace Plan.Made

variable {p : Plan}

theorem nodup (h : p.Made) : p.table.columns.Nodup := by
  induction h with
  | table h => exact nodup_of_make h
  | add _ h ih =>
      obtain ⟨o, _, rfl⟩ := add_eq_ok h
      exact ih

theorem fitChain (h : p.Made) : FitChain p.table.columns p.operators := by
  induction h with
  | table h => exact trivial
  | add _ h ih =>
      obtain ⟨o, ho, rfl⟩ := add_eq_ok h
      exact fitChain_append.2 ⟨ih, ho, trivial⟩

end Plan.Made

end Tabula
