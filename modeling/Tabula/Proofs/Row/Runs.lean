import Tabula.Proofs.Row.Search

/-!
Sorting by runs, said without any law for the order. Whatever the comparisons answer, the outcome
holds the items it was given, and any two neighbours in it were compared with each other: either the
first was found before the second, or the second not before the first. If the sort fails, then a
comparison of two of the items fails. Hence an order that is not defined between two classes of
items is found out as soon as items of both classes have to stand side by side.
-/

namespace Tabula

section Runs

variable {α ε : Type} {before : α → α → Except ε Bool} {P : α → Prop}

/-- Two items were compared and the first may stand before the second. -/
def Linked (before : α → α → Except ε Bool) (x y : α) : Prop :=
  before x y = .ok true ∨ before y x = .ok false

/-- A failure of comparing two items that have `P`. -/
def FaultAmong (before : α → α → Except ε Bool) (P : α → Prop) (e : ε) : Prop :=
  ∃ x y, P x ∧ P y ∧ before x y = .error e

/-- Items with `P`, any two neighbours of which were compared. -/
structure IsRun (before : α → α → Except ε Bool) (P : α → Prop) (items : List α) : Prop where
  chain : items.IsChain (Linked before)
  all : ∀ x ∈ items, P x

/-- A run that stands in front of the other items, up to their order. -/
structure CutsRun (before : α → α → Except ε Bool) (P : α → Prop) (items : List α)
    (r : List α × List α) : Prop where
  run : IsRun before P r.1
  perm : (r.1 ++ r.2).Perm items
  nonempty : items ≠ [] → r.1 ≠ []

theorem ends_compare {x y : α} (hx : P x) (hy : P y) :
    Ends (FaultAmong before P) (fun b => before x y = .ok b) (before x y) :=
  .self fun _ he => ⟨x, y, hx, hy, he⟩

theorem not_map_eq_ok {x : Except ε Bool} {b : Bool} : not <$> x = .ok b ↔ x = .ok !b := by
  cases x with
  | error e => simp [Functor.map, Except.map]
  | ok c => cases b <;> cases c <;> simp [Functor.map, Except.map]

theorem not_map_eq_error {x : Except ε Bool} {e : ε} : not <$> x = .error e ↔ x = .error e := by
  cases x <;> simp [Functor.map, Except.map]

/-- Items that are not after `y` are counted up to the last that is linked to `y` from the left. -/
theorem ends_countNotAfter {y : α} {items : List α} (sense : Sense) (hy : P y)
    (hitems : ∀ x ∈ items, P x) :
    Ends (FaultAmong before P) (SplitsAt (fun x => not <$> before y x) items)
      (countPassing (fun x => not <$> before y x) sense items) :=
  ends_countPassing sense items fun x hx _ he => ⟨y, x, hy, hitems x hx, not_map_eq_error.1 he⟩

theorem ends_countBefore {y : α} {items : List α} (sense : Sense) (hy : P y)
    (hitems : ∀ x ∈ items, P x) :
    Ends (FaultAmong before P) (SplitsAt (fun x => before x y) items)
      (countPassing (fun x => before x y) sense items) :=
  ends_countPassing sense items fun x hx _ he => ⟨x, y, hitems x hx, hy, he⟩

namespace IsRun

theorem nil : IsRun before P [] := ⟨.nil, by simp⟩

theorem singleton {x : α} (hx : P x) : IsRun before P [x] := ⟨.singleton x, by simpa using hx⟩

theorem cons {x y : α} {items : List α} (hx : P x) (hlink : Linked before x y)
    (h : IsRun before P (y :: items)) : IsRun before P (x :: y :: items) := by
  refine ⟨List.isChain_cons_cons.2 ⟨hlink, h.chain⟩, ?_⟩
  intro z hz
  rcases List.mem_cons.1 hz with rfl | hz
  · exact hx
  · exact h.all z hz

theorem append {a b : List α} (ha : IsRun before P a) (hb : IsRun before P b)
    (hlink : ∀ x ∈ a.getLast?, ∀ y ∈ b.head?, Linked before x y) : IsRun before P (a ++ b) := by
  refine ⟨List.isChain_append.2 ⟨ha.chain, hb.chain, hlink⟩, ?_⟩
  intro x hx
  rcases List.mem_append.1 hx with hx | hx
  · exact ha.all x hx
  · exact hb.all x hx

theorem concat {x y : α} {items : List α} (h : IsRun before P (items ++ [x]))
    (hlink : Linked before x y) (hy : P y) : IsRun before P (items ++ [x] ++ [y]) :=
  h.append (singleton hy) (by simpa using hlink)

theorem take {items : List α} (h : IsRun before P items) (n : Nat) :
    IsRun before P (items.take n) :=
  ⟨List.IsChain.take h.chain n, fun x hx => h.all x (List.mem_of_mem_take hx)⟩

theorem drop {items : List α} (h : IsRun before P items) (n : Nat) :
    IsRun before P (items.drop n) :=
  ⟨h.chain.suffix (List.drop_suffix n items), fun x hx => h.all x (List.mem_of_mem_drop hx)⟩

theorem left {a b : List α} (h : IsRun before P (a ++ b)) : IsRun before P a := by
  simpa using h.take a.length

theorem right {a b : List α} (h : IsRun before P (a ++ b)) : IsRun before P b := by
  simpa using h.drop a.length

end IsRun

/-! ### Runs found in the list -/

theorem ends_descendingRun {last : α} {run rest : List α} (hrun : IsRun before P (last :: run))
    (hrest : ∀ x ∈ rest, P x) :
    Ends (FaultAmong before P) (CutsRun before P (last :: run ++ rest))
      (descendingRun before last run rest) := by
  induction rest generalizing last run with
  | nil => exact ⟨hrun, .refl _, by simp⟩
  | cons x rest ih =>
      rw [List.forall_mem_cons] at hrest
      refine (ends_compare hrest.1 (hrun.all last (by simp))).bind fun b hb => ?_
      cases b with
      | true =>
          -- the item was found before the last one, so the run grows at its front
          refine (ih (hrun.cons hrest.1 (.inl hb)) hrest.2).mono fun r hr => ?_
          exact ⟨hr.run, hr.perm.trans (List.perm_middle.symm), by simp [hr.nonempty]⟩
      | false => exact .pure ⟨hrun, .refl _, by simp⟩

theorem ends_ascendingRun {last : α} {run rest : List α}
    (hrun : IsRun before P (run.reverse ++ [last])) (hrest : ∀ x ∈ rest, P x) :
    Ends (FaultAmong before P) (CutsRun before P (run.reverse ++ [last] ++ rest))
      (ascendingRun before last run rest) := by
  induction rest generalizing last run with
  | nil =>
      rw [ascendingRun, List.reverse_cons]
      exact ⟨hrun, .refl _, by simp⟩
  | cons x rest ih =>
      rw [List.forall_mem_cons] at hrest
      refine (ends_compare hrest.1 (hrun.all last (by simp))).bind fun b hb => ?_
      cases b with
      | true =>
          rw [List.reverse_cons]
          exact .pure ⟨hrun, .refl _, by simp⟩
      | false =>
          have hnext : IsRun before P ((last :: run).reverse ++ [x]) := by
            rw [List.reverse_cons]
            exact hrun.concat (.inr hb) hrest.1
          refine (ih hnext hrest.2).mono fun r hr => ?_
          exact ⟨hr.run, by simpa using hr.perm, by simp [hr.nonempty]⟩

theorem ends_leadingRun {items : List α} (hitems : ∀ x ∈ items, P x) :
    Ends (FaultAmong before P) (CutsRun before P items) (leadingRun before items) := by
  rcases items with _ | ⟨x, _ | ⟨y, rest⟩⟩
  · exact ⟨.nil, .refl _, by simp⟩
  · exact ⟨.singleton (hitems x (by simp)), .refl _, by simp⟩
  · simp only [List.forall_mem_cons] at hitems
    obtain ⟨hx, hy, hrest⟩ := hitems
    refine (ends_compare hy hx).bind fun b hb => ?_
    cases b with
    | true =>
        refine (ends_descendingRun (IsRun.cons hy (.inl hb) (.singleton hx)) hrest).mono
          fun r hr => ⟨hr.run, hr.perm.trans (.swap x y rest), by simp [hr.nonempty]⟩
    | false =>
        have hrun : IsRun before P ([x].reverse ++ [y]) := IsRun.cons hx (.inr hb) (.singleton hy)
        exact ends_ascendingRun hrun hrest

theorem ends_insertByHalves {sorted : List α} {item : α} (hsorted : IsRun before P sorted)
    (hitem : P item) :
    Ends (FaultAmong before P) (fun out => IsRun before P out ∧ out.Perm (item :: sorted))
      (insertByHalves before sorted item) := by
  have hcount : Ends (FaultAmong before P) (SplitsAt (fun x => not <$> before item x) sorted)
      (countByHalves (fun x => not <$> before item x) .forward sorted) :=
    ends_countByHalves .forward sorted fun x hx e he =>
      ⟨item, x, hitem, hsorted.all x hx, not_map_eq_error.1 he⟩
  refine hcount.bind fun place hplace => .pure ⟨?_, ?_⟩
  · have htail : IsRun before P (item :: sorted.drop place) := by
      refine IsRun.append (a := [item]) (.singleton hitem) (hsorted.drop place) ?_
      intro x hx y hy
      simp only [List.getLast?_singleton, Option.mem_some_iff] at hx
      subst hx
      exact .inl (not_map_eq_ok.1 (hplace.next y hy))
    refine (hsorted.take place).append htail ?_
    intro x hx y hy
    simp only [List.head?_cons, Option.mem_some_iff] at hy
    subst hy
    exact .inr (not_map_eq_ok.1 (hplace.last x hx))
  · have hperm : (sorted.take place ++ item :: sorted.drop place).Perm
        (item :: (sorted.take place ++ sorted.drop place)) := List.perm_middle
    rwa [List.take_append_drop] at hperm

theorem ends_insertAll {items sorted : List α} (hsorted : IsRun before P sorted)
    (hitems : ∀ x ∈ items, P x) :
    Ends (FaultAmong before P) (fun out => IsRun before P out ∧ out.Perm (sorted ++ items))
      (items.foldlM (insertByHalves before) sorted) := by
  induction items generalizing sorted with
  | nil => exact ⟨hsorted, by simp⟩
  | cons x rest ih =>
      rw [List.forall_mem_cons] at hitems
      rw [List.foldlM_cons]
      refine (ends_insertByHalves hsorted hitems.1).bind fun out hout => ?_
      refine (ih hout.1 hitems.2).mono fun all hall => ⟨hall.1, hall.2.trans ?_⟩
      exact (hout.2.append_right rest).trans List.perm_middle.symm

theorem ends_filledRun {least : Nat} {items : List α} (hitems : ∀ x ∈ items, P x) :
    Ends (FaultAmong before P) (CutsRun before P items) (filledRun before least items) := by
  refine (ends_leadingRun hitems).bind ?_
  rintro ⟨run, rest⟩ hr
  have hrest : ∀ x ∈ rest, P x := fun x hx => hitems x (hr.perm.subset (by simp [hx]))
  refine (ends_insertAll hr.run fun x hx => hrest x (List.mem_of_mem_take hx)).bind ?_
  intro filled hfilled
  refine .pure ⟨hfilled.1, (hfilled.2.append_right _).trans ?_, ?_⟩
  · rw [List.append_assoc, List.take_append_drop]
    exact hr.perm
  · -- items are only added to the leading run, which is not empty
    intro hne hnil
    have hmem := hfilled.2.symm.subset (List.mem_append_left _ (List.head_mem (hr.nonempty hne)))
    rw [show filled = [] from hnil] at hmem
    exact List.not_mem_nil hmem

end Runs

end Tabula
