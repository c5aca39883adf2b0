import Tabula.Plan.Lineage
import Tabula.Proofs.Plan.Safety
import Tabula.Proofs.Plan.Validity

/-!
Projections at the end of a plan. Going backwards, a projection lets through what is needed after
it, and a selection of columns moreover reads all that it names, needed or not. So a chain of
projections uses what the first selection in it names, or what comes out at the end if it only drops
columns. This is never less than what comes out, and it is just that where nothing that was selected
first is given up later.
-/

namespace Tabula

/-! ### Columns needed before a step -/

section Needs

variable {s : PlanStep} {needed needed' : List String}

/-- The more columns are needed after a step, the more are needed before it. -/
theorem PlanStep.needs_mono (h : needed ⊆ needed') : s.needs needed ⊆ s.needs needed' := by
  have hreads {cs cs' reads : List String} (hcs : cs ⊆ cs') : cs ++ reads ⊆ cs' ++ reads :=
    List.append_subset.2 ⟨List.subset_append_of_subset_left reads hcs,
      List.subset_append_right cs' reads⟩
  obtain ⟨position, o, input, output⟩ := s
  cases o with
  | extend name value window =>
      unfold PlanStep.needs
      dsimp only
      by_cases hname : name ∈ needed
      · rw [if_pos (List.contains_iff_mem.2 hname), if_pos (List.contains_iff_mem.2 (h hname))]
        exact hreads (List.filter_subset _ h)
      · rw [if_neg fun hc => hname (List.contains_iff_mem.1 hc)]
        split
        · -- only more than `needed` asks for the column, and no other column is lost
          intro c hc
          have hne : c ≠ name := fun heq => hname (heq ▸ hc)
          exact List.mem_append_left _ (List.mem_filter.2 ⟨h hc, by simpa using hne⟩)
        · exact h
  | selectColumns selected => exact hreads (List.filter_subset _ h)
  | dropColumns dropped => exact hreads (List.filter_subset _ h)
  | _ => exact hreads h

theorem foldr_needs_mono (h : needed ⊆ needed') (steps : List PlanStep) :
    steps.foldr PlanStep.needs needed ⊆ steps.foldr PlanStep.needs needed' := by
  induction steps with
  | nil => exact h
  | cons s steps ih => exact PlanStep.needs_mono ih

end Needs

/-! ### Chains of projections -/

/-- The operator only selects or drops columns. -/
def Operator.Narrows : Operator → Prop
  | selectColumns _ | dropColumns _ => True
  | _ => False

/-- The draft of an operator that only selects or drops columns. -/
def Draft.Narrows : Draft → Prop
  | selectColumns _ | dropColumns _ => True
  | _ => False

/-- The columns that a chain of projections names: those of the first selection, or all that come
out of it if it only drops columns. -/
def namedFirst (columns : List String) : List Operator → List String
  | [] => columns
  | .selectColumns selected :: _ => selected
  | o :: os => namedFirst (o.output columns) os

section Narrowing

variable {columns : List String} {os : List Operator}

/-- What a chain of projections names is there before it, and all that comes out of it is named. -/
theorem namedFirst_between (hos : FitChain columns os) (hn : ∀ o ∈ os, o.Narrows) :
    namedFirst columns os ⊆ columns ∧ Plan.columnsAfter columns os ⊆ namedFirst columns os := by
  induction os generalizing columns with
  | nil => exact ⟨List.Subset.refl _, List.Subset.refl _⟩
  | cons o os ih =>
      rw [List.forall_mem_cons] at hn
      have hrest := ih hos.2 hn.2
      cases o with
      | selectColumns selected => exact ⟨hos.1.2, List.Subset.trans hrest.2 hrest.1⟩
      | dropColumns dropped =>
          refine ⟨fun c hc => ?_, hrest.2⟩
          exact List.mem_of_mem_filter (hrest.1 hc)
      | _ => exact absurd hn.1 id

theorem nodup_namedFirst (hos : FitChain columns os) (hn : ∀ o ∈ os, o.Narrows)
    (hcolumns : columns.Nodup) : (namedFirst columns os).Nodup := by
  induction os generalizing columns with
  | nil => exact hcolumns
  | cons o os ih =>
      rw [List.forall_mem_cons] at hn
      cases o with
      | selectColumns selected => exact hos.1.1
      | dropColumns dropped => exact ih hos.2 hn.2 (hcolumns.filter _)
      | _ => exact absurd hn.1 id

/-- What a chain of projections needs is what it names first. -/
theorem mem_needs_narrowing (hos : FitChain columns os) (hn : ∀ o ∈ os, o.Narrows)
    (position : Nat) (c : String) :
    c ∈ (stepsFrom position columns os).foldr PlanStep.needs (Plan.columnsAfter columns os) ↔
      c ∈ namedFirst columns os := by
  induction os generalizing position columns with
  | nil => exact Iff.rfl
  | cons o os ih =>
      rw [List.forall_mem_cons] at hn
      have hrest := ih hos.2 hn.2 (position + 1)
      cases o with
      | selectColumns selected =>
          -- whatever is needed later is selected, and the selection reads the others too
          show c ∈ List.filter selected.contains _ ++ selected ↔ c ∈ selected
          simp
      | dropColumns dropped =>
          have hkept := (namedFirst_between hos.2 hn.2).1
          show c ∈ List.filter ((Operator.dropColumns dropped).output columns).contains _ ++ [] ↔ _
          rw [List.append_nil, List.mem_filter, List.contains_iff_mem]
          exact ⟨fun h => hrest.1 h.1, fun h => ⟨hrest.2 h, hkept h⟩⟩
      | _ => exact absurd hn.1 id

end Narrowing

/-! ### Plans that end with projections -/

namespace Plan

/-- The columns of the table that are needed when `needed` are needed of what the plan gives. -/
def usedFor (p : Plan) (needed : List String) : List String :=
  p.table.columns.filter (p.steps.foldr PlanStep.needs needed).contains

theorem usedFor_mono {p : Plan} {needed needed' : List String} (h : needed ⊆ needed') :
    p.usedFor needed ⊆ p.usedFor needed' := by
  intro c hc
  obtain ⟨hdeclared, hneeded⟩ := List.mem_filter.1 hc
  rw [List.contains_iff_mem] at hneeded
  refine List.mem_filter.2 ⟨hdeclared, ?_⟩
  exact List.contains_iff_mem.2 (foldr_needs_mono h p.steps hneeded)

/-- What is used depends on which columns are needed, not on their order. -/
theorem usedFor_congr {p : Plan} {needed needed' : List String}
    (h : ∀ c, c ∈ needed ↔ c ∈ needed') : p.usedFor needed = p.usedFor needed' := by
  have hle := foldr_needs_mono (fun c hc => (h c).1 hc) p.steps
  have hge := foldr_needs_mono (fun c hc => (h c).2 hc) p.steps
  refine List.filter_congr fun c _ => ?_
  rw [Bool.eq_iff_iff, List.contains_iff_mem, List.contains_iff_mem]
  exact ⟨fun hc => hle hc, fun hc => hge hc⟩

/-- A plan uses, for the operators at its end, what these need. -/
theorem columnsUsed_append (p : Plan) (os : List Operator) :
    columnsUsed ⟨p.table, p.operators ++ os⟩ = p.usedFor
      ((stepsFrom (1 + p.operators.length) p.columns os).foldr PlanStep.needs
        (columnsAfter p.columns os)) := by
  rw [columnsUsed, steps, stepsFrom_append, columns, columnsAfter_append, List.foldr_append]
  rfl

theorem Made.isHeading {p : Plan} (hp : p.Made) : IsHeading p.columns := by
  obtain ⟨n, hn, hcolumns⟩ := p.exists_last_node
  exact hcolumns ▸ hp.valid.heading n (List.mem_of_getElem? hn)

/-- A selection at the end of a plan can be added, and uses what is selected. -/
theorem Made.exists_selected {p : Plan} (hp : p.Made) (hopen : p.terminal? = none)
    {selected : List String} (hne : selected ≠ []) (hnodup : selected.Nodup)
    (hsub : selected ⊆ p.columns) :
    ∃ q, p.add (.selectColumns (selected.map .str)) = .ok q ∧
      q.columnsUsed = p.usedFor selected := by
  have hunique : uniqueColumns (selected.map .str) (some p.next) = .ok selected :=
    uniqueFrom_strings (fun c hc => hp.isHeading.named c (hsub hc)) hnodup (by simp)
  refine ⟨_, add_of_check hopen (check_selectColumns_eq_ok.2 ⟨selected, hunique, hne, hsub, rfl⟩),
    ?_⟩
  rw [columnsUsed_append]
  apply usedFor_congr
  intro c
  have hfit : FitChain p.columns [.selectColumns selected] := ⟨⟨hnodup, hsub⟩, trivial⟩
  exact mem_needs_narrowing hfit (by simp [Operator.Narrows]) _ c

/-- Additions of projections put projections, checked, after the others. -/
theorem Made.exists_narrowing {p q : Plan} (hp : p.Made) {ds : List Draft}
    (hds : ∀ d ∈ ds, d.Narrows) (hq : ds.foldlM Plan.add p = .ok q) :
    q.Made ∧ ∃ os, q = ⟨p.table, p.operators ++ os⟩ ∧ ∀ o ∈ os, o.Narrows := by
  induction ds generalizing p with
  | nil =>
      cases hq
      exact ⟨hp, [], by rw [List.append_nil], by simp⟩
  | cons d ds ih =>
      rw [List.forall_mem_cons] at hds
      rw [List.foldlM_cons] at hq
      obtain ⟨next, hnext, hq⟩ := bind_eq_ok.1 hq
      obtain ⟨_, o, hcheck, rfl⟩ := add_eq_ok_iff.1 hnext
      have ho : o.Narrows := by
        cases d with
        | selectColumns selected =>
            obtain ⟨names, _, _, _, rfl⟩ := check_selectColumns_eq_ok.1 hcheck
            exact trivial
        | dropColumns dropped =>
            obtain ⟨names, _, _, _, rfl⟩ := check_dropColumns_eq_ok.1 hcheck
            exact trivial
        | _ => exact absurd hds.1 id
      obtain ⟨hmade, os, rfl, hos⟩ := ih (hp.add hnext) hds.2 hq
      refine ⟨hmade, o :: os, ?_, List.forall_mem_cons.2 ⟨ho, hos⟩⟩
      rw [List.append_assoc, List.singleton_append]

/-- Projections at the end of a plan use what a single selection of the columns uses that they name
first. A single selection of the columns that come out uses no more than they do, and no less where
all columns that are named first come out. -/
theorem Made.columnsUsed_narrowed {p q : Plan} (hp : p.Made) (hopen : p.terminal? = none)
    {ds : List Draft} (hds : ∀ d ∈ ds, d.Narrows) (hq : ds.foldlM Plan.add p = .ok q) :
    ∃ os first last, q = ⟨p.table, p.operators ++ os⟩ ∧
      p.add (.selectColumns ((namedFirst p.columns os).map .str)) = .ok first ∧
      p.add (.selectColumns (q.columns.map .str)) = .ok last ∧
      q.columnsUsed = first.columnsUsed ∧ last.columnsUsed ⊆ q.columnsUsed ∧
      (namedFirst p.columns os ⊆ q.columns → q.columnsUsed = last.columnsUsed) := by
  obtain ⟨hmade, os, rfl, hos⟩ := hp.exists_narrowing hds hq
  have hfit : FitChain p.columns os := (fitChain_append.1 hmade.fitChain).2
  have hlast : columns ⟨p.table, p.operators ++ os⟩ = columnsAfter p.columns os :=
    columnsAfter_append _ _ _
  obtain ⟨hsub, hall⟩ := namedFirst_between hfit hos
  rw [← hlast] at hall
  have hheading := hmade.isHeading
  have hne : namedFirst p.columns os ≠ [] := by
    intro hnil
    rw [hnil] at hall
    exact hheading.nonempty (List.subset_nil.1 hall)
  have hused : columnsUsed ⟨p.table, p.operators ++ os⟩ = p.usedFor (namedFirst p.columns os) := by
    rw [columnsUsed_append]
    exact usedFor_congr (mem_needs_narrowing hfit hos _)
  obtain ⟨first, hfirst, hfirstUsed⟩ := hp.exists_selected hopen hne
    (nodup_namedFirst hfit hos hp.isHeading.nodup) hsub
  obtain ⟨last, hlast, hlastUsed⟩ := hp.exists_selected hopen hheading.nonempty hheading.nodup
    (List.Subset.trans hall hsub)
  refine ⟨os, first, last, rfl, hfirst, hlast, hused.trans hfirstUsed.symm, ?_, fun hcome => ?_⟩
  · rw [hused, hlastUsed]
    exact usedFor_mono hall
  · rw [hused, hlastUsed]
    exact usedFor_congr fun c => ⟨fun hc => hcome hc, fun hc => hall hc⟩

end Plan

/-- The scores with both columns selected, and then the teams alone. -/
def twiceSelected : Plan :=
  ⟨placings.table, [.selectColumns ["team", "points"], .selectColumns ["team"]]⟩

theorem add_twiceSelected :
    [Draft.selectColumns [.str "team", .str "points"], .selectColumns [.str "team"]].foldlM
      Plan.add (.ofTable placings.table) = .ok twiceSelected := by
  have hboth : (Plan.ofTable placings.table).add (.selectColumns [.str "team", .str "points"]) =
      .ok ⟨placings.table, twiceSelected.operators.take 1⟩ :=
    Plan.add_of_check rfl
      (check_selectColumns_eq_ok.2 ⟨["team", "points"], rfl, by decide, by decide, rfl⟩)
  have hteam : (Plan.mk placings.table (twiceSelected.operators.take 1)).add
      (.selectColumns [.str "team"]) = .ok twiceSelected :=
    Plan.add_of_check rfl
      (check_selectColumns_eq_ok.2 ⟨["team"], rfl, by decide, by decide, rfl⟩)
  exact bind_eq_ok.2 ⟨_, hboth, bind_eq_ok.2 ⟨_, hteam, rfl⟩⟩

theorem Plan.Made.columnsUsed_narrowed_scores :
    ∃ os first last, twiceSelected = ⟨placings.table, os⟩ ∧
      (Plan.ofTable placings.table).add
        (.selectColumns ((namedFirst placings.table.columns os).map .str)) = .ok first ∧
      (Plan.ofTable placings.table).add
        (.selectColumns (twiceSelected.columns.map .str)) = .ok last ∧
      twiceSelected.columnsUsed = first.columnsUsed ∧
      last.columnsUsed ⊆ twiceSelected.columnsUsed ∧
      (namedFirst placings.table.columns os ⊆ twiceSelected.columns →
        twiceSelected.columnsUsed = last.columnsUsed) := by
  have hds : ∀ d ∈ [Draft.selectColumns [.str "team", .str "points"],
      .selectColumns [.str "team"]], d.Narrows := by simp [Draft.Narrows]
  exact made_scores.columnsUsed_narrowed rfl hds add_twiceSelected

/-- What a selection of the teams alone does not use is used when both columns were selected
before. -/
theorem columnsUsed_twiceSelected :
    [Draft.selectColumns [.str "team", .str "points"], .selectColumns [.str "team"]].foldlM
        Plan.add (.ofTable placings.table) = .ok twiceSelected ∧
      ∃ last, (Plan.ofTable placings.table).add
          (.selectColumns (twiceSelected.columns.map .str)) = .ok last ∧
        twiceSelected.columnsUsed = ["team", "points"] ∧ last.columnsUsed = ["team"] := by
  have hteam : (Plan.ofTable placings.table).add (.selectColumns [.str "team"]) =
      .ok ⟨placings.table, [.selectColumns ["team"]]⟩ :=
    Plan.add_of_check rfl
      (check_selectColumns_eq_ok.2 ⟨["team"], rfl, by decide, by decide, rfl⟩)
  exact ⟨add_twiceSelected, _, hteam, by decide, by decide⟩

end Tabula
