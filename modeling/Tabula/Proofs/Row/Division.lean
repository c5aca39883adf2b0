import Tabula.Proofs.Row.Merge

/-!
The whole sort by runs. Two neighbouring runs may keep what is in place at both ends, and the rest
of them is merged from the front, or from the back as in a mirror. The runs on the stack together
always hold the items that were gone through, and merging some of them keeps that.
-/

namespace Tabula

section Division

variable {α ε : Type} {before : α → α → Except ε Bool} {P : α → Prop}

/-! ### Seen from the back -/

theorem FaultAmong.of_isBefore {sense : Sense} {e : ε}
    (h : FaultAmong (Merge.isBefore before sense) P e) : FaultAmong before P e := by
  obtain ⟨x, y, hx, hy, he⟩ := h
  cases sense with
  | forward => exact ⟨x, y, hx, hy, he⟩
  | backward => exact ⟨y, x, hy, hx, he⟩

theorem isRun_reverse {items : List α} :
    IsRun (Merge.isBefore before .backward) P items.reverse ↔ IsRun before P items := by
  constructor
  · intro h
    exact ⟨List.isChain_reverse.1 h.chain, fun x hx => h.all x (List.mem_reverse.2 hx)⟩
  · intro h
    exact ⟨List.isChain_reverse.2 h.chain, fun x hx => h.all x (List.mem_reverse.1 hx)⟩

/-- Two runs fit between the same neighbours, and the second both starts and ends before the
first. -/
structure Interlocked (before : α → α → Except ε Bool) (P : α → Prop)
    (front behind first second : List α) : Prop where
  runFirst : IsRun before P (front ++ (first ++ behind))
  runSecond : IsRun before P (front ++ (second ++ behind))
  starts : ∀ y ∈ second.head?, ∀ x ∈ first.head?, Linked before y x
  ends : ∀ y ∈ second.getLast?, ∀ x ∈ first.getLast?, Linked before y x

variable {front behind first second : List α}

theorem Interlocked.backward (h : Interlocked before P front behind first second) :
    Interlocked (Merge.isBefore before .backward) P behind.reverse front.reverse second.reverse
      first.reverse := by
  refine ⟨?_, ?_, ?_, ?_⟩
  · simpa using isRun_reverse.2 h.runSecond
  · simpa using isRun_reverse.2 h.runFirst
  · intro x hx y hy
    rw [List.head?_reverse] at hx hy
    exact h.ends y hy x hx
  · intro x hx y hy
    rw [List.getLast?_reverse] at hx hy
    exact h.starts y hy x hx

/-- Interlocked runs are merged to one that fits between their neighbours. -/
theorem Interlocked.ends_merge (sense : Sense)
    (h : Interlocked (Merge.isBefore before sense) P front behind first second)
    (hfirst : first ≠ []) (hsecond : second ≠ []) :
    Sorting.Ends (FaultAmong (Merge.isBefore before sense) P)
      (fun out => IsRun (Merge.isBefore before sense) P (front ++ out ++ behind) ∧
        out.Perm (first ++ second))
      (Merge.run before sense ⟨[], first, second⟩) := by
  obtain ⟨x, xs, rfl⟩ := List.exists_cons_of_ne_nil hfirst
  obtain ⟨y, ys, rfl⟩ := List.exists_cons_of_ne_nil hsecond
  have hsound : Merge.Sound (Merge.isBefore before sense) P front behind
      ⟨[], x :: xs, y :: ys⟩ := by
    refine ⟨?_, ?_, h.ends⟩
    · simpa using h.runFirst
    · simpa using h.runSecond
  exact Merge.ends_run hsound rfl rfl (h.starts y rfl x rfl)

theorem Interlocked.ends_merge_backward (h : Interlocked before P front behind first second)
    (hfirst : first ≠ []) (hsecond : second ≠ []) :
    Sorting.Ends (FaultAmong before P)
      (fun out => IsRun before P (front ++ out ++ behind) ∧ out.Perm (first ++ second))
      (List.reverse <$> Merge.run before .backward ⟨[], second.reverse, first.reverse⟩) := by
  have hmerge := Interlocked.ends_merge .backward h.backward (by simpa using hsecond)
    (by simpa using hfirst)
  rw [map_eq_pure_bind]
  refine (hmerge.weaken fun _ he => he.of_isBefore).bind fun out hout => ?_
  refine .pure ⟨?_, ?_⟩
  · have hrun := hout.1
    rw [← isRun_reverse]
    simpa using hrun
  · refine out.reverse_perm.trans (hout.2.trans ?_)
    exact (second.reverse_perm.append first.reverse_perm).trans List.perm_append_comm

/-! ### Neighbouring runs -/

/-- A run of the items of two others. -/
def Joins (before : α → α → Except ε Bool) (P : α → Prop) (a b out : List α) : Prop :=
  IsRun before P out ∧ out.Perm (a ++ b)

/-- Items that are not before `x` are counted from the back up to the first that is linked to it. -/
theorem ends_countBehind {x : α} {items : List α} (hx : P x) (hitems : ∀ z ∈ items, P z) :
    Ends (FaultAmong before P) (SplitsAt (fun z => not <$> before z x) items.reverse)
      (countPassing (fun z => not <$> before z x) .backward items.reverse) := by
  have hrev : ∀ z ∈ items.reverse, P z := fun z hz => hitems z (List.mem_reverse.1 hz)
  have hcount : Ends (FaultAmong (Merge.isBefore before .backward) P)
      (SplitsAt (fun z => not <$> before z x) items.reverse)
      (countPassing (fun z => not <$> before z x) .backward items.reverse) :=
    ends_countNotAfter .backward hx hrev
  exact hcount.weaken fun e he => he.of_isBefore

/-- What goes on after runs that overlap between their neighbours are merged to one. -/
theorem Interlocked.ends_middle (h : Interlocked before P front behind first second)
    (hfirst : first ≠ []) {goOn : List α → Sorting ε (List α)} {Q : List α → Prop}
    (hgoOn : ∀ out, IsRun before P (front ++ out ++ behind) → out.Perm (first ++ second) →
      Sorting.Ends (FaultAmong before P) Q (goOn out)) :
    Sorting.Ends (FaultAmong before P) Q
      (if second.isEmpty then pure first >>= goOn
        else if first.length ≤ second.length then
          Merge.run before .forward ⟨[], first, second⟩ >>= goOn
        else (List.reverse <$> Merge.run before .backward ⟨[], second.reverse, first.reverse⟩) >>=
          goOn) := by
  split
  · rename_i hempty
    rw [List.isEmpty_iff] at hempty
    rw [pure_bind]
    exact hgoOn first (by simpa using h.runFirst) (by simp [hempty])
  · rename_i hsecond
    rw [List.isEmpty_iff] at hsecond
    split
    · have hmerge := Interlocked.ends_merge .forward h hfirst hsecond
      exact hmerge.bind fun out hout => hgoOn out hout.1 hout.2
    · exact (h.ends_merge_backward hfirst hsecond).bind fun out hout => hgoOn out hout.1 hout.2

/-- What is in place at both ends of two runs leaves two parts that are interlocked. -/
theorem interlocked_of_splitsAt {a b : List α} {x y : α} {inFront behind : Nat}
    (ha : IsRun before P a) (hb : IsRun before P b) (hy : b.head? = some y)
    (hx : a.getLast? = some x)
    (hfront : SplitsAt (fun x => not <$> before y x) a inFront)
    (hbehind : SplitsAt (fun z => not <$> before z x) b.reverse behind)
    (hlast : (a.drop inFront).getLast? = some x) :
    Interlocked before P (a.take inFront) (b.drop (b.length - behind)) (a.drop inFront)
      (b.take (b.length - behind)) := by
  refine ⟨?_, ?_, ?_, ?_⟩
  · rw [← List.append_assoc, List.take_append_drop]
    refine ha.append (hb.drop _) fun x' hx' z hz => ?_
    rw [hx, Option.mem_some_iff] at hx'
    rw [← List.getLast?_reverse, ← List.take_reverse] at hz
    exact hx' ▸ .inr (not_map_eq_ok.1 (hbehind.last z hz))
  · rw [List.take_append_drop]
    refine (ha.take _).append hb fun z hz y' hy' => ?_
    rw [hy, Option.mem_some_iff] at hy'
    exact hy' ▸ .inr (not_map_eq_ok.1 (hfront.last z hz))
  · intro y' hy' x' hx'
    have hhead : y = y' := by
      rw [List.head?_take] at hy'
      split at hy'
      · cases hy'
      · rwa [hy, Option.mem_some_iff] at hy'
    exact hhead ▸ .inl (not_map_eq_ok.1 (hfront.next x' hx'))
  · intro w hw x' hx'
    rw [hlast, Option.mem_some_iff] at hx'
    rw [← List.head?_reverse, ← List.drop_reverse] at hw
    exact hx' ▸ .inl (not_map_eq_ok.1 (hbehind.next w hw))

theorem ends_mergeRuns {a b : List α} (ha : IsRun before P a) (hb : IsRun before P b) :
    Sorting.Ends (FaultAmong before P) (Joins before P a b) (mergeRuns before a b) := by
  rcases b with _ | ⟨y, ys⟩
  · exact .pure ⟨ha, by simp⟩
  · have hy : P y := hb.all y (by simp)
    refine (Sorting.Ends.lift (ends_countNotAfter .forward hy ha.all)).bind ?_
    intro inFront hfront
    have hafront : a.take inFront ++ a.drop inFront = a := List.take_append_drop inFront a
    have hstart (z) (hz : z ∈ (a.take inFront).getLast?) : Linked before z y :=
      .inr (not_map_eq_ok.1 (hfront.last z hz))
    dsimp only
    split
    · rename_i hrest
      -- all of the first run is in place
      have hnil : a.drop inFront = [] := List.reverse_eq_nil_iff.1 hrest
      rw [hnil, List.append_nil] at hafront
      refine .pure ⟨ha.append hb ?_, .refl _⟩
      rw [← hafront]
      simpa using hstart
    · rename_i x xs hrest
      have hlast : (a.drop inFront).getLast? = some x := by
        rw [← List.head?_reverse, hrest, List.head?_cons]
      have hx : P x := (ha.drop inFront).all x (List.mem_of_getLast? hlast)
      refine (Sorting.Ends.lift (ends_countBehind hx hb.all)).bind ?_
      intro behind hbehind
      have halast : a.getLast? = some x := by
        rw [← hafront, List.getLast?_append, hlast, Option.some_or]
      have hlocked := interlocked_of_splitsAt ha hb rfl halast hfront hbehind hlast
      have hne : a.drop inFront ≠ [] := by
        intro hnil
        rw [hnil] at hlast
        cases hlast
      refine hlocked.ends_middle hne fun merged hrun hmerged => .pure ⟨hrun, ?_⟩
      have hperm := (hmerged.append_left (a.take inFront)).append_right
        ((y :: ys).drop ((y :: ys).length - behind))
      rwa [← List.append_assoc, hafront, List.append_assoc a, List.take_append_drop] at hperm

/-! ### The stack -/

/-- The runs of a stack hold so many items. -/
structure Holds (before : α → α → Except ε Bool) (P : α → Prop) (items last : List α)
    (below : List (Pending α)) : Prop where
  runLast : IsRun before P last
  runsBelow : ∀ p ∈ below, IsRun before P p.run
  perm : (below.flatMap Pending.run ++ last).Perm items

namespace Holds

variable {items last : List α} {p q : Pending α} {below : List (Pending α)}

/-- The last two runs can be made one. -/
theorem merge (h : Holds before P items last (p :: below)) {out : List α}
    (hout : Joins before P p.run last out) : Holds before P items out below := by
  refine ⟨hout.1, fun r hr => h.runsBelow r (List.mem_cons_of_mem p hr), ?_⟩
  refine (hout.2.append_left _).trans (List.Perm.trans ?_ h.perm)
  rw [List.flatMap_cons, ← List.append_assoc]
  exact List.perm_append_comm.append_right last

/-- Two neighbouring runs below the last can be made one. -/
theorem mergeBelow (h : Holds before P items last (p :: q :: below)) {out : List α} (depth : Nat)
    (hout : Joins before P q.run p.run out) :
    Holds before P items last (⟨out, depth⟩ :: below) := by
  have hbelow := h.runsBelow
  simp only [List.forall_mem_cons] at hbelow
  refine ⟨h.runLast, ?_, ?_⟩
  · simp only [List.forall_mem_cons]
    exact ⟨hout.1, hbelow.2.2⟩
  · refine List.Perm.trans ?_ h.perm
    simp only [List.flatMap_cons, ← List.append_assoc]
    exact ((hout.2.trans List.perm_append_comm).append_right _).append_right _

end Holds

theorem ends_collapse {items last : List α} {below : List (Pending α)} (depth : Nat)
    (h : Holds before P items last below) :
    Sorting.Ends (FaultAmong before P) (fun r => Holds before P items r.1 r.2)
      (Stack.collapse before depth last below) := by
  induction below generalizing last with
  | nil => exact .pure h
  | cons p below ih =>
      unfold Stack.collapse
      split
      · refine (ends_mergeRuns (h.runsBelow p (by simp)) h.runLast).bind fun out hout => ?_
        exact ih (h.merge hout)
      · exact .pure h

theorem ends_push {items run : List α} {s : Stack α} (h : Holds before P items s.last s.below)
    (hrun : IsRun before P run) :
    Sorting.Ends (FaultAmong before P) (fun s => Holds before P (items ++ run) s.last s.below)
      (s.push before run) := by
  refine (ends_collapse _ h).bind ?_
  rintro ⟨last, below⟩ hr
  refine .pure ⟨hrun, ?_, ?_⟩
  · simp only [List.forall_mem_cons]
    exact ⟨hr.runLast, hr.runsBelow⟩
  · refine List.Perm.append_right run (List.Perm.trans ?_ hr.perm)
    exact List.perm_append_comm

theorem ends_gatherRuns {least bound : Nat} {items rest : List α} {s : Stack α}
    (h : Holds before P items s.last s.below) (hrest : ∀ x ∈ rest, P x)
    (hbound : rest.length ≤ bound) :
    Sorting.Ends (FaultAmong before P) (fun s => Holds before P (items ++ rest) s.last s.below)
      (gatherRuns before least bound s rest) := by
  induction bound generalizing items rest s with
  | zero =>
      rw [List.eq_nil_of_length_eq_zero (Nat.le_zero.1 hbound), List.append_nil]
      exact .pure h
  | succ bound ih =>
      rcases rest with _ | ⟨x, xs⟩
      · rw [List.append_nil]
        exact .pure h
      · refine (Sorting.Ends.lift (ends_filledRun hrest)).bind ?_
        rintro ⟨run, rest⟩ hr
        refine (ends_push h hr.run).bind fun s' hs' => ?_
        -- the run that was found is not empty, so fewer items are left than before
        have hlength := hr.perm.length_eq
        have hpos := List.length_pos_iff.2 (hr.nonempty (by simp))
        simp only [List.length_append, List.length_cons] at hlength hbound hpos
        have hrest' : ∀ z ∈ rest, P z := fun z hz => hrest z (hr.perm.subset (by simp [hz]))
        refine (ih hs' hrest' (by omega)).mono fun s'' hs'' => ⟨hs''.runLast, hs''.runsBelow, ?_⟩
        refine hs''.perm.trans ?_
        rw [List.append_assoc]
        exact hr.perm.append_left items

theorem ends_mergeAll {bound : Nat} {items last : List α} {below : List (Pending α)}
    (h : Holds before P items last below) (hbound : below.length ≤ bound) :
    Sorting.Ends (FaultAmong before P) (fun out => IsRun before P out ∧ out.Perm items)
      (Stack.mergeAll before bound last below) := by
  induction bound generalizing last below with
  | zero =>
      rw [List.eq_nil_of_length_eq_zero (Nat.le_zero.1 hbound)] at h ⊢
      exact .pure ⟨by simpa using h.runLast, by simpa using h.perm⟩
  | succ bound ih =>
      rcases below with _ | ⟨p, _ | ⟨q, below⟩⟩
      · exact .pure ⟨h.runLast, by simpa using h.perm⟩
      · refine (ends_mergeRuns (h.runsBelow p (by simp)) h.runLast).bind fun out hout => ?_
        exact ih (h.merge hout) (by simp)
      · simp only [List.length_cons] at hbound
        unfold Stack.mergeAll
        split
        · refine (ends_mergeRuns (h.runsBelow q (by simp)) (h.runsBelow p (by simp))).bind ?_
          intro out hout
          exact ih (h.mergeBelow p.depth hout) (by simp only [List.length_cons]; omega)
        · refine (ends_mergeRuns (h.runsBelow p (by simp)) h.runLast).bind fun out hout => ?_
          exact ih (h.merge hout) (by simp only [List.length_cons]; omega)

/-- The sort by runs gives the items so that all neighbours have been compared, or it fails because
two of the items cannot be compared. -/
theorem ends_sortByRuns (before : α → α → Except ε Bool) (items : List α) :
    Ends (FaultAmong before (· ∈ items))
      (fun out => out.IsChain (Linked before) ∧ out.Perm items) (sortByRuns before items) := by
  refine (ends_filledRun fun x hx => hx).bind ?_
  rintro ⟨run, rest⟩ hr
  have hstart : Holds before (· ∈ items) run run [] := ⟨hr.run, by simp, by simp⟩
  have hle : rest.length ≤ items.length := by
    rw [← hr.perm.length_eq, List.length_append]
    exact Nat.le_add_left _ _
  have hrest : ∀ z ∈ rest, z ∈ items := fun z hz => hr.perm.subset (by simp [hz])
  have hgathered : Sorting.Ends (FaultAmong before (· ∈ items))
      (fun s => Holds before (· ∈ items) (run ++ rest) s.last s.below)
      (gatherRuns before (leastRun items.length) items.length ⟨items.length, 0, run, []⟩ rest) :=
    ends_gatherRuns hstart hrest hle
  have hsorting := hgathered.bind fun s hs => ends_mergeAll hs (Nat.le_refl _)
  refine (hsorting Merge.manyWins).bind fun r hout => .pure ⟨hout.1.chain, ?_⟩
  exact hout.2.trans hr.perm

end Division

end Tabula
