import Tabula.Proofs.Row.Sort
import Tabula.Row.Rank

/-!
Sorting and grouping other names for the same items. Items are looked at through comparisons and
keys only, so that renaming them renames the outcome and changes nothing else, whatever the
comparisons answer.
-/

namespace Tabula

section Search

variable {α β ε : Type}

theorem countByHalves_def (passes : α → Except ε Bool) (sense : Sense) (items : List α) :
    countByHalves passes sense items =
      (match items.drop (sense.middle items.length) with
      | [] => .ok 0
      | x :: after => do
          if ← passes x then
            return sense.middle items.length + 1 + (← countByHalves passes sense after)
          else countByHalves passes sense (items.take (sense.middle items.length))) := by
  rw [countByHalves]
  split <;> rename_i hdrop <;> rw [hdrop]

theorem countByLeaps_def (passes : α → Except ε Bool) (sense : Sense) (gap : Nat)
    (items : List α) :
    countByLeaps passes sense gap items =
      (match items.drop gap with
      | [] => countByHalves passes sense items
      | x :: after => do
          if ← passes x then
            return gap + 1 + (← countByLeaps passes sense (2 * gap + 1) after)
          else countByHalves passes sense (items.take gap)) := by
  rw [countByLeaps]
  split <;> rename_i hdrop <;> rw [hdrop]

variable (f : α → β)

theorem countByHalves_map (passes : β → Except ε Bool) (sense : Sense) (items : List α) :
    countByHalves passes sense (items.map f) =
      countByHalves (fun x => passes (f x)) sense items := by
  fun_induction countByHalves (fun x => passes (f x)) sense items with
  | case1 items half hdrop =>
      rw [countByHalves_def, List.length_map, ← List.map_drop, hdrop]
      rfl
  | case2 items half x after hdrop ihAfter ihBefore =>
      rw [countByHalves_def, List.length_map, ← List.map_drop, hdrop, ← List.map_take, ihBefore]
      simp only [List.map_cons, ihAfter]
      rfl

theorem countByLeaps_map (passes : β → Except ε Bool) (sense : Sense) (gap : Nat)
    (items : List α) :
    countByLeaps passes sense gap (items.map f) =
      countByLeaps (fun x => passes (f x)) sense gap items := by
  fun_induction countByLeaps (fun x => passes (f x)) sense gap items with
  | case1 gap items hdrop =>
      rw [countByLeaps_def, ← List.map_drop, hdrop, List.map_nil, countByHalves_map]
  | case2 gap items x after hdrop ih =>
      rw [countByLeaps_def, ← List.map_drop, hdrop, ← List.map_take]
      simp only [List.map_cons, ih, countByHalves_map]

theorem countPassing_map (passes : β → Except ε Bool) (sense : Sense) (items : List α) :
    countPassing passes sense (items.map f) =
      countPassing (fun x => passes (f x)) sense items := by
  cases items with
  | nil => rfl
  | cons x rest => simp only [List.map_cons, countPassing, countByLeaps_map]

end Search

section Runs

variable {α β ε : Type} (f : α → β) (before : β → β → Except ε Bool)

/-- The comparison of items by their other names. -/
def byName (x y : α) : Except ε Bool := before (f x) (f y)

theorem descendingRun_map (last : α) (run rest : List α) :
    descendingRun before (f last) (run.map f) (rest.map f) =
      Prod.map (List.map f) (List.map f) <$> descendingRun (byName f before) last run rest := by
  induction rest generalizing last run with
  | nil => rfl
  | cons x rest ih =>
      simp only [List.map_cons, descendingRun, byName, map_bind]
      refine bind_congr fun b => ?_
      cases b with
      | true => exact ih x (last :: run)
      | false => rfl

theorem ascendingRun_map (last : α) (run rest : List α) :
    ascendingRun before (f last) (run.map f) (rest.map f) =
      Prod.map (List.map f) (List.map f) <$> ascendingRun (byName f before) last run rest := by
  induction rest generalizing last run with
  | nil => simp [ascendingRun, Functor.map, Except.map]
  | cons x rest ih =>
      simp only [List.map_cons, ascendingRun, byName, map_bind]
      refine bind_congr fun b => ?_
      cases b with
      | true => simp
      | false => exact ih x (last :: run)

theorem leadingRun_map (items : List α) :
    leadingRun before (items.map f) =
      Prod.map (List.map f) (List.map f) <$> leadingRun (byName f before) items := by
  rcases items with _ | ⟨x, _ | ⟨y, rest⟩⟩
  · rfl
  · rfl
  · simp only [List.map_cons, leadingRun, byName, map_bind]
    refine bind_congr fun b => ?_
    cases b with
    | true => exact descendingRun_map f before y [x] rest
    | false => exact ascendingRun_map f before y [x] rest

theorem insertByHalves_map (sorted : List α) (item : α) :
    insertByHalves before (sorted.map f) (f item) =
      List.map f <$> insertByHalves (byName f before) sorted item := by
  simp only [insertByHalves, countByHalves_map, byName, map_bind]
  refine bind_congr fun place => ?_
  simp [← List.map_take, ← List.map_drop]

theorem foldlM_insertByHalves_map (items sorted : List α) :
    (items.map f).foldlM (insertByHalves before) (sorted.map f) =
      List.map f <$> items.foldlM (insertByHalves (byName f before)) sorted := by
  induction items generalizing sorted with
  | nil => rfl
  | cons x rest ih =>
      simp only [List.map_cons, List.foldlM_cons, insertByHalves_map, map_bind, bind_map_left]
      exact bind_congr fun out => ih out

theorem filledRun_map (least : Nat) (items : List α) :
    filledRun before least (items.map f) =
      Prod.map (List.map f) (List.map f) <$> filledRun (byName f before) least items := by
  simp only [filledRun, leadingRun_map, map_bind, bind_map_left]
  refine bind_congr fun r => ?_
  simp only [Prod.map, List.length_map, ← List.map_take, foldlM_insertByHalves_map, bind_map_left]
  refine bind_congr fun out => ?_
  simp

end Runs

theorem Sorting.liftM_map {ε γ δ : Type} (g : γ → δ) (x : Except ε γ) :
    (liftM (g <$> x) : Sorting ε δ) = g <$> (liftM x : Sorting ε γ) := by
  cases x <;> rfl

namespace Merge

variable {α β ε : Type} (f : α → β) (before : β → β → Except ε Bool) (sense : Sense)

/-- The merge of the same items by other names. -/
def map (m : Merge α) : Merge β := ⟨m.merged.map f, m.first.map f, m.second.map f⟩

theorem takeFirst_map (count : Nat) (m : Merge α) :
    (m.map f).takeFirst count = (m.takeFirst count).map f := by
  simp [map, takeFirst]

theorem takeSecond_map (count : Nat) (m : Merge α) :
    (m.map f).takeSecond count = (m.takeSecond count).map f := by
  simp [map, takeSecond]

theorem isOver_map (m : Merge α) : (m.map f).isOver = m.isOver := by
  simp [map, isOver]

theorem result_map (m : Merge α) : (m.map f).result = m.result.map f := by
  simp [map, result]

theorem isBefore_map (x y : α) :
    isBefore before sense (f x) (f y) = isBefore (byName f before) sense x y := by
  cases sense <;> rfl

theorem searchFirst_map (m : Merge α) :
    (m.map f).searchFirst before sense =
      Prod.map id (map f) <$> m.searchFirst (byName f before) sense := by
  obtain ⟨merged, first, second⟩ := m
  unfold searchFirst
  rw [isOver_map]
  cases hover : isOver ⟨merged, first, second⟩ with
  | true => rfl
  | false =>
      cases second with
      | nil => rfl
      | cons y ys =>
          simp only [map, List.map_cons, countPassing_map, isBefore_map, map_bind]
          refine bind_congr fun count => ?_
          have htake : takeFirst count ⟨merged.map f, first.map f, f y :: ys.map f⟩ =
              map f (takeFirst count ⟨merged, first, y :: ys⟩) :=
            takeFirst_map f count ⟨merged, first, y :: ys⟩
          rw [htake, isOver_map]
          split <;> simp [takeSecond_map]

theorem searchSecond_map (m : Merge α) :
    (m.map f).searchSecond before sense =
      Prod.map id (map f) <$> m.searchSecond (byName f before) sense := by
  obtain ⟨merged, first, second⟩ := m
  unfold searchSecond
  rw [isOver_map]
  cases hover : isOver ⟨merged, first, second⟩ with
  | true => rfl
  | false =>
      cases first with
      | nil => rfl
      | cons x xs =>
          simp only [map, List.map_cons, countPassing_map, isBefore_map, map_bind]
          refine bind_congr fun count => ?_
          have htake : takeSecond count ⟨merged.map f, f x :: xs.map f, second.map f⟩ =
              map f (takeSecond count ⟨merged, x :: xs, second⟩) :=
            takeSecond_map f count ⟨merged, x :: xs, second⟩
          rw [htake, isOver_map]
          split <;> simp [takeFirst_map]

theorem searchBoth_map (m : Merge α) :
    (m.map f).searchBoth before sense =
      Prod.map id (map f) <$> m.searchBoth (byName f before) sense := by
  cases sense
  · simp only [searchBoth, searchFirst_map, map_bind, bind_map_left]
    refine bind_congr fun r => ?_
    simp only [Prod.map, searchSecond_map, bind_map_left]
    rfl
  · simp only [searchBoth, searchSecond_map, map_bind, bind_map_left]
    refine bind_congr fun r => ?_
    simp only [Prod.map, searchFirst_map, bind_map_left]
    rfl

theorem finish_map (bound : Nat) (mode : Mode) (m : Merge α) :
    (m.map f).finish before sense bound mode =
      List.map f <$> m.finish (byName f before) sense bound mode := by
  induction bound generalizing mode m with
  | zero => simp [finish, result_map]
  | succ bound ih =>
      obtain ⟨merged, first, second⟩ := m
      have hresult := result_map f ⟨merged, first, second⟩
      unfold finish
      rw [isOver_map]
      cases hover : isOver ⟨merged, first, second⟩ with
      | true => simp [hresult]
      | false =>
          cases mode with
          | searching =>
              simp only [searchBoth_map, Sorting.liftM_map, map_bind, bind_map_left]
              refine bind_congr fun r => ?_
              simp only [Prod.map, isOver_map, result_map, ih, id]
              split
              · simp
              · split <;> simp
          | comparing s =>
              rcases first with _ | ⟨x, xs⟩
              · exact congrArg pure hresult
              rcases second with _ | ⟨y, ys⟩
              · exact congrArg pure hresult
              simp only [map, List.map_cons, isBefore_map, map_bind]
              refine bind_congr fun won => bind_congr fun enough => ?_
              rw [← ih]
              cases won
              · exact congrArg _ (takeFirst_map f 1 ⟨merged, x :: xs, y :: ys⟩)
              · exact congrArg _ (takeSecond_map f 1 ⟨merged, x :: xs, y :: ys⟩)

theorem run_map (m : Merge α) :
    (m.map f).run before sense = List.map f <$> m.run (byName f before) sense := by
  simp only [run, takeSecond_map, finish_map]
  simp [map]

end Merge

section Division

variable {α β ε : Type} (f : α → β) (before : β → β → Except ε Bool)

theorem mergeRuns_map (a b : List α) :
    mergeRuns before (a.map f) (b.map f) = List.map f <$> mergeRuns (byName f before) a b := by
  cases b with
  | nil => simp [mergeRuns]
  | cons y ys =>
      simp only [List.map_cons, mergeRuns, countPassing_map, byName, map_bind]
      refine bind_congr fun inFront => ?_
      rw [← List.map_drop, ← List.map_reverse]
      cases hrest : (a.drop inFront).reverse with
      | nil => simp
      | cons x xs =>
          have hb : f y :: ys.map f = (y :: ys).map f := rfl
          have hx : f x :: xs.map f = (x :: xs).map f := rfl
          have hmerge (first second : List α) : (⟨[], first.map f, second.map f⟩ : Merge β) =
              Merge.map f ⟨[], first, second⟩ := rfl
          simp only [List.map_cons]
          simp only [hb, hx]
          generalize y :: ys = b
          simp only [← List.map_reverse, countPassing_map, List.length_map, ← List.map_take,
            ← List.map_drop, hmerge, Merge.run_map, map_bind]
          refine bind_congr fun behind => ?_
          simp only [List.isEmpty_map]
          split
          · simp
          · split <;> simp

/-- A run that waits, its items by other names. -/
def Pending.map (p : Pending α) : Pending β := ⟨p.run.map f, p.depth⟩

namespace Stack

/-- A stack of runs, the items by other names. -/
def map (s : Stack α) : Stack β := ⟨s.size, s.start, s.last.map f, s.below.map (Pending.map f)⟩

theorem collapse_map (depth : Nat) (last : List α) (below : List (Pending α)) :
    collapse before depth (last.map f) (below.map (Pending.map f)) =
      Prod.map (List.map f) (List.map (Pending.map f)) <$>
        collapse (byName f before) depth last below := by
  induction below generalizing last with
  | nil => simp [collapse]
  | cons p ps ih =>
      simp only [List.map_cons, collapse, Pending.map]
      split
      · simp only [mergeRuns_map, map_bind, bind_map_left]
        exact bind_congr fun merged => ih merged
      · simp [Pending.map]

theorem push_map (s : Stack α) (run : List α) :
    (s.map f).push before (run.map f) = map f <$> s.push (byName f before) run := by
  simp only [push, map, collapse_map, List.length_map, map_bind, bind_map_left]
  rfl

theorem mergeAll_map (bound : Nat) (last : List α) (below : List (Pending α)) :
    mergeAll before bound (last.map f) (below.map (Pending.map f)) =
      List.map f <$> mergeAll (byName f before) bound last below := by
  induction bound generalizing last below with
  | zero =>
      have hruns : (below.map (Pending.map f)).reverse.flatMap Pending.run =
          (below.reverse.flatMap Pending.run).map f := by
        rw [← List.map_reverse, List.flatMap_map, List.map_flatMap]
        rfl
      simp [mergeAll, hruns]
  | succ bound ih =>
      rcases below with _ | ⟨p, _ | ⟨q, ps⟩⟩
      · simp [mergeAll]
      · simp only [List.map_cons, List.map_nil, mergeAll, Pending.map, mergeRuns_map, map_bind,
          bind_map_left]
        exact bind_congr fun merged => ih merged []
      · simp only [List.map_cons, mergeAll, Pending.map, List.length_map, mergeRuns_map]
        split
        · simp only [map_bind, bind_map_left]
          exact bind_congr fun merged => ih last (⟨merged, p.depth⟩ :: ps)
        · simp only [map_bind, bind_map_left]
          exact bind_congr fun merged => ih merged (q :: ps)

end Stack

theorem gatherRuns_map (least bound : Nat) (s : Stack α) (items : List α) :
    gatherRuns before least bound (s.map f) (items.map f) =
      Stack.map f <$> gatherRuns (byName f before) least bound s items := by
  induction bound generalizing s items with
  | zero => simp [gatherRuns]
  | succ bound ih =>
      cases items with
      | nil => simp [gatherRuns]
      | cons x rest =>
          have hfilled : filledRun before least (f x :: rest.map f) =
              Prod.map (List.map f) (List.map f) <$>
                filledRun (byName f before) least (x :: rest) :=
            filledRun_map f before least (x :: rest)
          simp only [List.map_cons, gatherRuns, hfilled, Sorting.liftM_map, map_bind, bind_map_left]
          refine bind_congr fun r => ?_
          simp only [Prod.map, Stack.push_map, bind_map_left]
          exact bind_congr fun s => ih s r.2

/-- Sorting renamed items is sorting them by their names, and then renaming them. -/
theorem sortByRuns_map (items : List α) :
    sortByRuns before (items.map f) = List.map f <$> sortByRuns (byName f before) items := by
  simp only [sortByRuns, List.length_map, filledRun_map, map_bind, bind_map_left]
  refine bind_congr fun r => ?_
  have hstart : (⟨items.length, 0, r.1.map f, []⟩ : Stack β) =
      Stack.map f ⟨items.length, 0, r.1, []⟩ := rfl
  simp only [Prod.map, hstart, gatherRuns_map, bind_map_left]
  simp only [Stack.map, List.length_map, Stack.mergeAll_map, ← map_bind, StateT.run_map,
    bind_map_left]
  simp [map_bind]

end Division

/-! ### Sorting by keys -/

section Keys

variable {α β : Type} (f : α → β)

theorem sortKeyed_map (nullsFirst : Bool) (items : List (Value × α)) :
    sortKeyed nullsFirst (items.map (Prod.map id f)) =
      List.map (Prod.map id f) <$> sortKeyed nullsFirst items := by
  have hkeys : (items.map (Prod.map id f)).map Prod.fst = items.map Prod.fst := by
    rw [List.map_map]
    rfl
  unfold sortKeyed
  rw [hkeys]
  split
  · refine congrArg Except.ok (Eq.symm ?_)
    exact List.map_mergeSort fun _ _ _ _ => rfl
  · exact sortByRuns_map (Prod.map id f) _ items

theorem sortDirected_map (descending : Bool) (items : List (Value × α)) :
    sortDirected descending (items.map (Prod.map id f)) =
      List.map (Prod.map id f) <$> sortDirected descending items := by
  unfold sortDirected
  cases descending with
  | false => exact sortKeyed_map f false items
  | true =>
      rw [if_pos rfl, if_pos rfl, ← List.map_reverse, sortKeyed_map]
      simp only [map_bind, bind_map_left]
      refine bind_congr fun out => ?_
      simp

/-- What is computed for renamed items, where the names make no difference but in the results. -/
theorem mapM_map {γ γ' δ ε : Type} {k : β → Except ε γ} {k' : α → Except ε γ'} {g : γ → δ}
    {g' : γ' → δ} (h : ∀ a, g <$> k (f a) = g' <$> k' a) (items : List α) :
    List.map g <$> (items.map f).mapM k = List.map g' <$> items.mapM k' := by
  induction items with
  | nil => rfl
  | cons a rest ih =>
      have hhead : List.map g <$> (k (f a) >>= fun b => (rest.map f).mapM k >>= fun bs =>
          pure (b :: bs)) = g <$> k (f a) >>= fun c => List.map g <$> (rest.map f).mapM k >>=
            fun cs => pure (c :: cs) := by
        simp only [map_bind, bind_map_left, map_pure, List.map_cons]
      rw [List.map_cons, List.mapM_cons, List.mapM_cons, hhead, h, ih]
      simp only [map_bind, bind_map_left, map_pure, List.map_cons]

theorem mapM_congr_left {ε γ : Type} {k k' : α → Except ε γ} {items : List α}
    (h : ∀ a ∈ items, k a = k' a) : items.mapM k = items.mapM k' := by
  induction items with
  | nil => rfl
  | cons a rest ih =>
      rw [List.forall_mem_cons] at h
      rw [List.mapM_cons, List.mapM_cons, h.1, ih h.2]

/-- What a map can be taken back from is found again. -/
theorem map_of_mapM_eq_ok {ε : Type} {k : α → Except ε β} {back : β → α}
    (h : ∀ a b, k a = .ok b → back b = a) {items : List α} {out : List β}
    (hout : items.mapM k = .ok out) : out.map back = items := by
  induction items generalizing out with
  | nil =>
      cases hout
      rfl
  | cons a rest ih =>
      obtain ⟨b, bs, hb, hbs, rfl⟩ := mapM_cons_eq_ok.1 hout
      rw [List.map_cons, h a b hb, ih hbs]

theorem mapError_map {ε ε' γ δ : Type} (g : γ → δ) (e : ε → ε') (x : Except ε γ) :
    (g <$> x).mapError e = g <$> x.mapError e := by
  cases x <;> rfl

theorem sortItems_map (rowOf : β → Row) (terms : List OrderTerm) (items : List α) :
    sortItems rowOf terms (items.map f) =
      List.map f <$> sortItems (fun a => rowOf (f a)) terms items := by
  induction terms with
  | nil => rfl
  | cons t terms ih =>
      have hkey (a : α) : id <$> withKey rowOf t.column (f a) =
          Prod.map id f <$> withKey (fun a => rowOf (f a)) t.column a := by
        rw [withKey, withKey]
        cases (rowOf (f a)).get? t.column <;> rfl
      have hkeyed (items : List α) : (items.map f).mapM (withKey rowOf t.column) =
          List.map (Prod.map id f) <$> items.mapM (withKey (fun a => rowOf (f a)) t.column) := by
        rw [← mapM_map f hkey, List.map_id_fun, id_map]
      rw [sortItems_cons, sortItems_cons, ih]
      simp only [map_bind, bind_map_left, hkeyed, sortDirected_map, mapError_map]
      refine bind_congr fun _ => bind_congr fun _ => bind_congr fun sorted => ?_
      rw [List.map_map, map_pure, List.map_map]
      rfl

/-- Only the columns of the terms matter for a sort. -/
theorem sortItems_congr {rowOf rowOf' : α → Row} {terms : List OrderTerm} (items : List α)
    (h : ∀ t ∈ terms, ∀ a, (rowOf a).get? t.column = (rowOf' a).get? t.column) :
    sortItems rowOf terms items = sortItems rowOf' terms items := by
  induction terms with
  | nil => rfl
  | cons t terms ih =>
      rw [List.forall_mem_cons] at h
      have hkey : withKey rowOf t.column = withKey rowOf' t.column := by
        funext a
        rw [withKey, withKey, h.1 a]
      rw [sortItems_cons, sortItems_cons, ih h.2, hkey]

end Keys

theorem groupsOf_map {α β : Type} (f : α → β) (items : List (List Value × α)) :
    groupsOf (items.map (Prod.map id f)) = (groupsOf items).map (List.map f) := by
  induction items using groupsOf.induct with
  | case1 => simp [groupsOf]
  | case2 key a rest ih =>
      simp only [List.unattach_filter, List.unattach_attach] at ih
      rw [List.map_cons, Prod.map, groupsOf, groupsOf, List.filter_map, List.filter_map,
        List.map_cons, List.map_cons, List.map_map, List.map_map]
      exact congrArg _ ih

/-- Grouping loses no item and takes none twice, whatever the keys are. -/
theorem perm_flatten_groups {α : Type} (items : List (List Value × α)) :
    (groupsOf items).flatten.Perm (items.map Prod.snd) := by
  induction items using groupsOf.induct with
  | case1 => simp [groupsOf]
  | case2 key a rest ih =>
      simp only [List.unattach_filter, List.unattach_attach] at ih
      rw [groupsOf, List.flatten_cons, List.map_cons, List.cons_append]
      refine List.Perm.cons a ((List.Perm.append_left _ ih).trans ?_)
      rw [← List.map_append]
      exact (List.filter_append_perm _ rest).map Prod.snd

/-! ### What sorting keeps -/

section Perm

variable {α : Type} {items out : List (Value × α)}

theorem perm_of_sortKeyed {nullsFirst : Bool} (h : sortKeyed nullsFirst items = .ok out) :
    out.Perm items := by
  unfold sortKeyed at h
  dsimp only at h
  split at h
  · cases h
    exact List.mergeSort_perm _ _
  · exact ((ends_sortByRuns _ items).of_eq_ok h).2

theorem perm_of_sortDirected {descending : Bool} (h : sortDirected descending items = .ok out) :
    out.Perm items := by
  rw [sortDirected_eq_ok] at h
  split at h
  · exact (List.reverse_perm out).symm.trans ((perm_of_sortKeyed h).trans (List.reverse_perm _))
  · exact perm_of_sortKeyed h

/-- Sorting loses no item and takes none twice, whatever the keys are. -/
theorem perm_of_sortItems {rowOf : α → Row} {terms : List OrderTerm} {items out : List α}
    (h : sortItems rowOf terms items = .ok out) : out.Perm items := by
  induction terms generalizing out with
  | nil =>
      cases h
      exact .refl _
  | cons t terms ih =>
      simp only [sortItems_cons, bind_eq_ok, mapError_eq_ok, pure_eq_ok] at h
      obtain ⟨items', hitems, keyed, hkeyed, sorted, hsorted, rfl⟩ := h
      have hback : keyed.map Prod.snd = items' := by
        refine map_of_mapM_eq_ok (fun a b hb => ?_) hkeyed
        rw [withKey] at hb
        split at hb
        · cases hb
          rfl
        · cases hb
      have hperm := (perm_of_sortDirected hsorted).map Prod.snd
      rw [hback] at hperm
      exact hperm.trans (ih hitems)

end Perm

end Tabula
