import Tabula.Proofs.Row.Counting
import Tabula.Proofs.Row.Groups

/-!
Rankings over windows. Where every row has the columns of the window and values in them that are
equal to themselves, a ranking succeeds if and only if each partition can be ordered. Then it gives
every row the number that is found by counting, and loses no row: in the order of the input, or
partition by partition as these are met, each in the order of the window.
-/

namespace Tabula

section Distinct

variable {α κ : Type} [DecidableEq κ] {r : α → α → Bool} {f : α → κ} {items : List α}

/-- Things told apart by what they stand for are as many as these. -/
theorem length_eraseDupsBy (h : ∀ a ∈ items, ∀ b ∈ items, r a b = decide (f a = f b)) :
    (items.eraseDupsBy r).length = (items.map f).toFinset.card := by
  induction items using groups_induction f with
  | nil => rfl
  | cons a items ih =>
      have hrest : (items.filter fun b => r b a = false) = items.filter fun b => f b ≠ f a :=
        List.filter_congr fun b hb => by simp [h b (by simp [hb]) a (by simp)]
      have hsub {b : α} (hb : b ∈ items.filter fun b => f b ≠ f a) : b ∈ a :: items :=
        List.mem_cons_of_mem a (List.mem_of_mem_filter hb)
      -- what is left without the duplicates of `a` lacks just what `a` stands for
      have hset : ((a :: items).map f).toFinset =
          insert (f a) ((items.filter fun b => f b ≠ f a).map f).toFinset := by
        ext x
        simp only [List.map_cons, List.toFinset_cons, Finset.mem_insert, List.mem_toFinset,
          List.mem_map, List.mem_filter, ne_eq, decide_not, Bool.not_eq_true',
          decide_eq_false_iff_not]
        constructor
        · rintro (rfl | ⟨b, hb, rfl⟩)
          · exact .inl rfl
          · by_cases hba : f b = f a
            · exact .inl hba
            · exact .inr ⟨b, ⟨hb, hba⟩, rfl⟩
        · rintro (rfl | ⟨b, hb, rfl⟩)
          · exact .inl rfl
          · exact .inr ⟨b, hb.1, rfl⟩
      rw [List.eraseDupsBy_cons, List.length_cons, hrest, hset, Finset.card_insert_of_notMem,
        ih fun b hb c hc => h b (hsub hb) c (hsub hc)]
      simp

end Distinct

namespace Window

/-- Where the values of a row in the partition columns stand. -/
def standing (w : Window) (r : Row) : List (Option Standing) :=
  (r.values w.partitionBy).map Value.standing?

/-- Where the values of a row in the order columns stand. -/
def orderStanding (w : Window) (r : Row) : List (Option Standing) :=
  (r.values (w.orderBy.map OrderTerm.column)).map Value.standing?

/-- Every row has the columns of the window, and in them values that are equal to themselves. -/
def Readable (w : Window) (rows : List Row) : Prop :=
  ∀ r ∈ rows, ∀ c ∈ w.columns, r.Has Value.Plain c

/-- The values of each order column can be ordered together in every partition. -/
def Orderable (w : Window) (rows : List Row) : Prop :=
  ∀ r ∈ rows, ∀ s ∈ rows, w.together r s = true →
    ∀ t ∈ w.orderBy, (r.getD t.column).Comparable (s.getD t.column)

instance (w : Window) (rows : List Row) : Decidable (w.Readable rows) :=
  inferInstanceAs (Decidable (∀ r ∈ rows, ∀ c ∈ w.columns, r.Has Value.Plain c))

instance (w : Window) (rows : List Row) : Decidable (w.Orderable rows) :=
  inferInstanceAs (Decidable (∀ r ∈ rows, ∀ s ∈ rows, w.together r s = true →
    ∀ t ∈ w.orderBy, (r.getD t.column).Comparable (s.getD t.column)))

variable {w : Window} {rows : List Row}

theorem Readable.partition (h : w.Readable rows) {r : Row} (hr : r ∈ rows) :
    ∀ c ∈ w.partitionBy, r.Has Value.Plain c :=
  fun c hc => h r hr c (List.mem_append_left _ hc)

theorem Readable.supported (h : w.Readable rows) :
    ∀ r ∈ rows, ∀ c ∈ w.partitionBy, r.Has Value.Supported c :=
  fun _ hr c hc => (h.partition hr c hc).mono fun _ hv => hv.supported

theorem Readable.order (h : w.Readable rows) {r : Row} (hr : r ∈ rows) :
    ∀ t ∈ w.orderBy, r.Has Value.Plain t.column :=
  fun t ht => h r hr t.column (List.mem_append_right _ (List.mem_map_of_mem ht))

theorem Readable.sameItems_eq {columns : List String} {r s : Row}
    (hr : ∀ c ∈ columns, r.Has Value.Plain c) (hs : ∀ c ∈ columns, s.Has Value.Plain c) :
    Value.sameItems (r.values columns) (s.values columns) =
      decide ((r.values columns).map Value.standing? =
        (s.values columns).map Value.standing?) := by
  rw [Bool.eq_iff_iff, decide_eq_true_eq]
  refine Value.sameItems_iff ?_ ?_
  · exact List.forall_mem_map.2 fun c hc => (hr c hc).getD
  · exact List.forall_mem_map.2 fun c hc => (hs c hc).getD

theorem Readable.together_eq (h : w.Readable rows) {r s : Row} (hr : r ∈ rows) (hs : s ∈ rows) :
    w.together r s = decide (w.standing r = w.standing s) :=
  sameItems_eq (h.partition hr) (h.partition hs)

theorem Readable.precedes_eq (h : w.Readable rows) (ho : w.Orderable rows) {r s : Row}
    (hr : r ∈ rows) (hs : s ∈ rows) (heq : w.standing r = w.standing s) :
    precedes w.orderBy r s = Row.isAhead w.orderBy r s := by
  refine precedes_eq_isAhead ?_ ?_ (ho r hr s hs ?_)
  · exact fun t ht => (h.order hr t ht).getD
  · exact fun t ht => (h.order hs t ht).getD
  · rw [h.together_eq hr hs]
    exact decide_eq_true heq

end Window

/-- Whether a row is before another one under the terms of a window, each with its place. -/
def Window.ahead (w : Window) (m n : Row × Nat) : Bool := Row.isAhead w.orderBy m.1 n.1

/-- Whether a row stands further up than another one. -/
def further (m n : Row × Nat) : Bool := m.2 < n.2

theorem further_asymm (m n : Row × Nat) (h : further m n = true) : further n m = false := by
  simp only [further, decide_eq_true_eq, decide_eq_false_iff_not] at h ⊢
  omega

theorem Window.strictWeak_ahead (w : Window) : StrictWeak w.ahead :=
  (Row.strictWeak_isAhead w.orderBy).comap Prod.fst

theorem Window.placesPeers (w : Window) :
    PlacesPeers w.ahead fun m => w.orderStanding m.1 := by
  intro m n
  simp only [orderStanding, Row.values, List.map_map, List.map_inj_left, Function.comp_apply]
  constructor
  · intro h
    have hirrefl := (Row.strictWeak_isAhead w.orderBy).irrefl n.1
    have hmn := Row.isAhead_congr (s := n.1) h fun t _ => rfl
    have hnm := Row.isAhead_congr (r := n.1) (fun t _ => rfl) h
    exact ⟨hmn.trans hirrefl, hnm.trans hirrefl⟩
  · intro h t ht
    exact Row.standing?_eq_of_not_isAhead h.1 h.2 t ht

theorem mem_of_mem_zipIdx {rows : List Row} {m : Row × Nat} (h : m ∈ rows.zipIdx) :
    m.1 ∈ rows := by
  have hmap := List.mem_map_of_mem (f := Prod.fst) h
  rwa [List.zipIdx_map_fst] at hmap

theorem exists_mem_zipIdx {rows : List Row} {r : Row} (h : r ∈ rows) :
    ∃ m ∈ rows.zipIdx, m.1 = r := by
  rw [← List.zipIdx_map_fst 0 rows] at h
  exact List.mem_map.1 h

theorem map_zipIdx_row {β : Type} (rows : List Row) (f : Row → β) :
    (rows.zipIdx.map fun m => f m.1) = rows.map f := by
  have hfst : rows.zipIdx.map Prod.fst = rows := List.zipIdx_map_fst 0 rows
  conv_rhs => rw [← hfst, List.map_map]
  rfl

/-- The rows of the partition that stands at `p`, with their places. -/
def Window.partitionAt (w : Window) (rows : List Row) (p : List (Option Standing)) :
    List (Row × Nat) :=
  rows.zipIdx.filter fun m => w.standing m.1 = p

namespace Window

/-- The rows of the partition of a row that precede it. -/
def aheadOf (w : Window) (rows : List Row) (r : Row) : List Row :=
  (rows.filter (w.together r)).filter fun s => precedes w.orderBy s r

theorem map_fst_ahead (w : Window) (rows : List Row) (r : Row) :
    ((rows.zipIdx.filter fun m => w.together r m.1).filter
      fun m => precedes w.orderBy m.1 r).map Prod.fst = w.aheadOf rows r := by
  have hfst : rows.zipIdx.map Prod.fst = rows := List.zipIdx_map_fst 0 rows
  rw [aheadOf, ← hfst, List.filter_map, List.filter_map, hfst]
  rfl

theorem rankOf_rank (w : Window) (rows : List Row) (place : Nat) (r : Row) :
    w.rankOf .rank rows place r = 1 + (w.aheadOf rows r).length := by
  rw [← map_fst_ahead, List.length_map]
  rfl

/-- A dense rank counts where order keys stand. -/
theorem rankOf_denseRank {w : Window} (h : w.Readable rows) (place : Nat) (r : Row) :
    w.rankOf .denseRank rows place r =
      1 + ((w.aheadOf rows r).map w.orderStanding).toFinset.card := by
  have hkeys : (((w.aheadOf rows r).map fun s =>
      s.values (w.orderBy.map OrderTerm.column)).eraseDupsBy Value.sameItems).length =
      ((w.aheadOf rows r).map w.orderStanding).toFinset.card := by
    rw [length_eraseDupsBy (f := fun vs : List Value => vs.map Value.standing?), List.map_map]
    · rfl
    · simp only [List.forall_mem_map]
      have hmem {s : Row} (hs : s ∈ w.aheadOf rows r) : s ∈ rows :=
        List.mem_of_mem_filter (List.mem_of_mem_filter hs)
      intro s hs s' hs'
      exact Readable.sameItems_eq (List.forall_mem_map.2 (h.order (hmem hs)))
        (List.forall_mem_map.2 (h.order (hmem hs')))
  rw [← hkeys, ← map_fst_ahead, List.map_map]
  rfl

end Window

/-- The rank in the words of the specification counts along the places where values stand. -/
theorem Window.rankOf_eq_among {w : Window} {rows : List Row} (h : w.Readable rows)
    (ho : w.Orderable rows) (f : Ranking) {m : Row × Nat} (hm : m ∈ rows.zipIdx) :
    w.rankOf f rows m.2 m.1 =
      f.among w.ahead further (fun n => w.orderStanding n.1)
        (w.partitionAt rows (w.standing m.1)) m := by
  have hrow := mem_of_mem_zipIdx hm
  have hpartition : (rows.zipIdx.filter fun n => w.together m.1 n.1) =
      w.partitionAt rows (w.standing m.1) := by
    refine List.filter_congr fun n hn => ?_
    rw [h.together_eq hrow (mem_of_mem_zipIdx hn)]
    exact decide_eq_decide.2 eq_comm
  have hahead {n : Row × Nat} (hn : n ∈ w.partitionAt rows (w.standing m.1)) :
      precedes w.orderBy n.1 m.1 = w.ahead n m ∧ precedes w.orderBy m.1 n.1 = w.ahead m n := by
    obtain ⟨hmem, heq⟩ := List.mem_filter.1 hn
    rw [decide_eq_true_eq] at heq
    have hn' := mem_of_mem_zipIdx hmem
    exact ⟨h.precedes_eq ho hn' hrow heq, h.precedes_eq ho hrow hn' heq.symm⟩
  have hrows : ((w.partitionAt rows (w.standing m.1)).filter fun n => w.ahead n m).map Prod.fst =
      w.aheadOf rows m.1 := by
    rw [← map_fst_ahead, hpartition]
    exact congrArg (List.map Prod.fst) (List.filter_congr fun n hn => (hahead hn).1.symm)
  cases f with
  | rank => rw [rankOf_rank, ← hrows, List.length_map, Ranking.among]
  | denseRank => rw [rankOf_denseRank h, ← hrows, List.map_map, Ranking.among]; rfl
  | rowNumber =>
      simp only [rankOf, Ranking.among, hpartition]
      refine congrArg (1 + ·) (List.countP_congr fun n hn => ?_)
      rw [(hahead hn).1, (hahead hn).2]
      rfl

/-- Whether a row comes before another one when the rows come out partition by partition: further up
in the order of the window, or in a partition that was met first. -/
def Window.Precedes (w : Window) (rows : List Row) (m n : Row × Nat) : Prop :=
  if w.together m.1 n.1 then
    precedes w.orderBy m.1 n.1 = true ∨ (precedes w.orderBy n.1 m.1 = false ∧ m.2 < n.2)
  else rows.findIdx (w.together m.1) < rows.findIdx (w.together n.1)

/-! ### Groups of a ranking -/

namespace RankedWindow

variable {w : RankedWindow} {rows : List Row}

/-- A row with its number. -/
def numbered (w : RankedWindow) (rows : List Row) (m : Row × Nat) : Row :=
  m.1.set w.name (.int (w.window.rankOf w.ranking rows m.2 m.1))

/-- The items that go through a ranking, in the groups that it makes of them. -/
def groups (w : RankedWindow) (rows : List Row) : List (List (Row × Nat)) :=
  groupsOf (keyed (fun m => m.1.values w.window.partitionBy) rows.zipIdx)

theorem keysStand (h : w.window.Readable rows) :
    KeysStand (fun m => m.1.values w.window.partitionBy) (fun m => w.window.standing m.1)
      rows.zipIdx :=
  fun _ hm _ hn => Window.Readable.sameItems_eq (h.partition (mem_of_mem_zipIdx hm))
    (h.partition (mem_of_mem_zipIdx hn))

/-- The value in a column that the row should have. -/
def readColumn (r : Row) (c : String) : Result Value :=
  match r.get? c with
  | some v => .ok v
  | none => .error (.lookup (.bare c))

theorem partitionKey_def (columns : List String) (r : Row) :
    partitionKey columns r = (do
      let key ← columns.mapM (readColumn r)
      if key.any (·.kind = .list) then throw (.operand .notHashable)
      return key) := rfl

theorem partitionKey_eq {columns : List String} {r : Row}
    (h : ∀ c ∈ columns, r.Has Value.Supported c) :
    partitionKey columns r = .ok (r.values columns) := by
  have hmap : columns.mapM (readColumn r) = .ok (r.values columns) :=
    mapM_eq_ok_map fun c hc => by rw [readColumn, (h c hc).get?]
  have hlist : ((r.values columns).any (·.kind = .list)) = false := by
    rw [List.any_eq_false]
    simp only [Row.values, List.forall_mem_map, decide_eq_true_eq]
    exact fun c hc => (h c hc).getD
  rw [partitionKey_def, hmap]
  simp [bind, Except.bind, hlist, pure, Except.pure]

theorem mapM_partitionKey (h : ∀ r ∈ rows, ∀ c ∈ w.window.partitionBy, r.Has Value.Supported c) :
    (rows.zipIdx.mapM fun m => do
      return (← partitionKey w.window.partitionBy m.1, m)) =
      Except.ok (keyed (fun m => m.1.values w.window.partitionBy) rows.zipIdx) :=
  mapM_eq_ok_map fun m hm => by
    rw [partitionKey_eq (h m.1 (mem_of_mem_zipIdx hm))]
    rfl

/-- A group is one whole partition. -/
theorem eq_partitionAt (h : w.window.Readable rows) {g : List (Row × Nat)}
    (hg : g ∈ w.groups rows) {m : Row × Nat} (hm : m ∈ g) :
    g = w.window.partitionAt rows (w.window.standing m.1) :=
  eq_filter_of_mem_groupsOf (keysStand h) g hg m hm

theorem mem_of_mem_group (h : w.window.Readable rows) {g : List (Row × Nat)}
    (hg : g ∈ w.groups rows) {m : Row × Nat} (hm : m ∈ g) : m ∈ rows.zipIdx :=
  (perm_flatten_groupsOf (keysStand h)).subset (List.mem_flatten.2 ⟨g, hg, hm⟩)

theorem row_mem_of_mem_group (h : w.window.Readable rows) {g : List (Row × Nat)}
    (hg : g ∈ w.groups rows) {m : Row × Nat} (hm : m ∈ g) : m.1 ∈ rows :=
  mem_of_mem_zipIdx (mem_of_mem_group h hg hm)

theorem standing_eq_of_mem_group (h : w.window.Readable rows) {g : List (Row × Nat)}
    (hg : g ∈ w.groups rows) {m n : Row × Nat} (hm : m ∈ g) (hn : n ∈ g) :
    w.window.standing m.1 = w.window.standing n.1 := by
  rw [eq_partitionAt h hg hm] at hn
  exact (of_decide_eq_true (List.mem_filter.1 hn).2).symm

/-- One sorted group. -/
def inWindowOrder (w : RankedWindow) (g : List (Row × Nat)) : List (Row × Nat) :=
  stableSort w.window.ahead g

theorem comparableIn_group (h : w.window.Readable rows) (ho : w.window.Orderable rows)
    {g : List (Row × Nat)} (hg : g ∈ w.groups rows) :
    ∀ t ∈ w.window.orderBy, ComparableIn (g.map Prod.fst) t.column := by
  intro t ht
  simp only [ComparableIn, List.forall_mem_map]
  intro m hm n hn
  have hm' := row_mem_of_mem_group h hg hm
  have hn' := row_mem_of_mem_group h hg hn
  refine ho m.1 hm' n.1 hn' ?_ t ht
  rw [h.together_eq hm' hn']
  exact decide_eq_true (standing_eq_of_mem_group h hg hm hn)

theorem sorted_inWindowOrder (h : w.window.Readable rows) {g : List (Row × Nat)}
    (hg : g ∈ w.groups rows) : Sorted w.window.ahead further (w.inWindowOrder g) := by
  have hplaces : g.Pairwise fun m n => further m n = true := by
    cases g with
    | nil => exact .nil
    | cons m g =>
        rw [eq_partitionAt h hg List.mem_cons_self]
        refine ((pairwise_zipIdx rows).imp fun hlt => ?_).filter _
        simpa [further] using hlt
  exact w.window.strictWeak_ahead.pairwise_stableSort hplaces

theorem rankGroup_eq (h : w.window.Readable rows) (ho : w.window.Orderable rows)
    {g : List (Row × Nat)} (hg : g ∈ w.groups rows) :
    w.rankGroup g = .ok ((w.inWindowOrder g).map fun m => (w.numbered rows m, m.2)) := by
  have hmem {m : Row × Nat} (hm : m ∈ w.inWindowOrder g) : m ∈ rows.zipIdx :=
    mem_of_mem_group h hg ((stableSort_perm _ g).subset hm)
  have hsort : sortItems Prod.fst w.window.orderBy g = .ok (w.inWindowOrder g) :=
    sortItems_eq (fun t ht m hm =>
      h.order (row_mem_of_mem_group h hg hm) t ht) (comparableIn_group h ho hg)
  have hnumbers := w.ranking.numbers_eq w.window.strictWeak_ahead w.window.placesPeers
    further_asymm (fun m => m.1.values (w.window.orderBy.map OrderTerm.column))
    (sorted_inWindowOrder h hg) ?_
  · have hrank (m : Row × Nat) (hm : m ∈ w.inWindowOrder g) :
        w.ranking.among w.window.ahead further (fun n => w.window.orderStanding n.1)
          (w.inWindowOrder g) m = w.window.rankOf w.ranking rows m.2 m.1 := by
      rw [w.window.rankOf_eq_among h ho w.ranking (hmem hm)]
      have hm' := (stableSort_perm _ g).subset hm
      rw [← eq_partitionAt h hg hm']
      exact w.ranking.among_perm (stableSort_perm _ g) m
    have hkeys : ((w.inWindowOrder g).map fun m => w.window.orderBy.map fun t =>
        m.1.getD t.column) =
        (w.inWindowOrder g).map fun m => m.1.values (w.window.orderBy.map OrderTerm.column) := by
      simp [Row.values]
    -- the numbers that run along the sorted group are those counted in the whole partition
    rw [rankGroup, hsort]
    refine congrArg Except.ok ?_
    rw [hkeys, hnumbers, List.map_congr_left hrank, ← List.map_prod_left_eq_zip, List.map_map]
    rfl
  · intro m hm n hn
    refine Window.Readable.sameItems_eq ?_ ?_
    · exact List.forall_mem_map.2 (h.order (mem_of_mem_zipIdx (hmem hm)))
    · exact List.forall_mem_map.2 (h.order (mem_of_mem_zipIdx (hmem hn)))

/-- The rows of all groups, each in the order of the window. -/
def inGroups (w : RankedWindow) (rows : List Row) : List (Row × Nat) :=
  (w.groups rows).flatMap w.inWindowOrder

theorem inGroups_perm (h : w.window.Readable rows) : (w.inGroups rows).Perm rows.zipIdx := by
  refine List.Perm.trans ?_ (perm_flatten_groupsOf (keysStand h))
  rw [inGroups, ← List.flatMap_id]
  exact List.Perm.flatMap_left _ fun g _ => stableSort_perm _ g

/-- What a partition is known by is met before what another one is known by. -/
theorem findIdx_lt {p q : Row → Bool} {m n : Row × Nat} (hm : m ∈ rows.zipIdx) (hp : p m.1 = true)
    (hn : n ∈ rows.zipIdx) (hq : q n.1 = true)
    (hall : ∀ n ∈ rows.zipIdx, q n.1 = true → m.2 < n.2) : rows.findIdx p < rows.findIdx q := by
  have hlt : rows.findIdx q < rows.length :=
    List.findIdx_lt_length_of_exists ⟨n.1, mem_of_mem_zipIdx hn, hq⟩
  have hfirst := hall (rows[rows.findIdx q], rows.findIdx q)
    (List.mk_mem_zipIdx_iff_getElem?.2 (List.getElem?_eq_getElem hlt)) List.findIdx_getElem
  have hle : rows.findIdx p ≤ m.2 := by
    by_contra hgt
    have hmem : rows[m.2]? = some m.1 := List.mk_mem_zipIdx_iff_getElem?.1 hm
    obtain ⟨hlength, hget⟩ := List.getElem?_eq_some_iff.1 hmem
    have hnot := List.not_of_lt_findIdx (Nat.lt_of_not_le hgt)
    rw [hget, hp] at hnot
    cases hnot
  exact hle.trans_lt hfirst

/-- Rows come out partition by partition. -/
theorem pairwise_inGroups (h : w.window.Readable rows) (ho : w.window.Orderable rows) :
    (w.inGroups rows).Pairwise (w.window.Precedes rows) := by
  rw [inGroups, List.pairwise_flatMap]
  constructor
  · -- two rows of one group
    intro g hg
    refine (sorted_inWindowOrder h hg).imp_of_mem fun {m n} hm hn hmn => ?_
    have hm := (stableSort_perm _ g).subset hm
    have hn := (stableSort_perm _ g).subset hn
    have hm' := row_mem_of_mem_group h hg hm
    have hn' := row_mem_of_mem_group h hg hn
    have heq := standing_eq_of_mem_group h hg hm hn
    rw [Window.Precedes, h.together_eq hm' hn', if_pos (decide_eq_true heq),
      h.precedes_eq ho hm' hn' heq, h.precedes_eq ho hn' hm' heq.symm]
    cases hahead : w.window.ahead m n with
    | true => exact .inl hahead
    | false => exact .inr ⟨hmn.1, of_decide_eq_true (hmn.2 hahead)⟩
  · -- rows of two groups: the first was met at `m'`, before all rows of the second
    refine (pairwise_groupsOf (keysStand h) (pairwise_zipIdx rows)).imp_of_mem ?_
    intro g g' hg hg' hpair m hm n hn
    have hm := (stableSort_perm _ g).subset hm
    have hn := (stableSort_perm _ g').subset hn
    have hmz := mem_of_mem_group h hg hm
    have hnz := mem_of_mem_group h hg' hn
    obtain ⟨hne, m', hm', heq, hall⟩ := hpair m hm n hn
    have htogether {a b : Row × Nat} (ha : a ∈ rows.zipIdx) (hb : b ∈ rows.zipIdx) :=
      h.together_eq (mem_of_mem_zipIdx ha) (mem_of_mem_zipIdx hb)
    rw [Window.Precedes, htogether hmz hnz, if_neg (by simpa using hne)]
    refine findIdx_lt hm' ?_ hnz ?_ fun n' hn' hsame => hall n' hn' ?_
    · rw [htogether hmz hm']
      exact decide_eq_true heq.symm
    · rw [htogether hnz hnz]
      exact decide_eq_true rfl
    · rw [htogether hnz hn'] at hsame
      exact (of_decide_eq_true hsame).symm

/-- Sorting by place brings rows back to where they came from. -/
theorem mergeSort_places {f : Row × Nat → Row} {ms : List (Row × Nat)}
    (hperm : ms.Perm rows.zipIdx) :
    ((ms.map fun m => (f m, m.2)).mergeSort fun a b => decide (a.2 ≤ b.2)).map Prod.fst =
      rows.zipIdx.map f := by
  have htagged : (ms.map fun m => (f m, m.2)).mergeSort (fun a b => decide (a.2 ≤ b.2)) =
      rows.zipIdx.map fun m => (f m, m.2) := by
    have hplaces : (rows.zipIdx.map fun m => (f m, m.2)).Pairwise fun a b => a.2 < b.2 :=
      List.pairwise_map.2 (pairwise_zipIdx rows)
    have hnodup : ((rows.zipIdx.map fun m => (f m, m.2)).map Prod.snd).Nodup := by
      rw [List.nodup_iff_pairwise_ne, List.pairwise_map]
      exact hplaces.imp Nat.ne_of_lt
    have hall := (List.mergeSort_perm (ms.map fun m => (f m, m.2))
      (fun a b => decide (a.2 ≤ b.2))).trans (hperm.map _)
    have hle : (rows.zipIdx.map fun m => (f m, m.2)).Pairwise fun a b => a.2 ≤ b.2 :=
      hplaces.imp Nat.le_of_lt
    refine hall.eq_of_pairwise ?_ ?_ hle
    · intro a b ha hb hab hba
      exact List.inj_on_of_nodup_map hnodup (hall.subset ha) hb (Nat.le_antisymm hab hba)
    · refine (List.pairwise_mergeSort ?_ ?_ _).imp of_decide_eq_true
      · intro a b c hab hbc
        exact decide_eq_true (Nat.le_trans (of_decide_eq_true hab) (of_decide_eq_true hbc))
      · intro a b
        simpa using Nat.le_total a.2 b.2
  rw [htagged, List.map_map]
  rfl

theorem rows_def (h : ∀ r ∈ rows, ∀ c ∈ w.window.partitionBy, r.Has Value.Supported c)
    (order : RowOrder) :
    w.rows order rows = (do
      let groups ← (w.groups rows).mapM w.rankGroup
      match order with
      | .partition => return groups.flatten.map Prod.fst
      | .input =>
          return (groups.flatten.mergeSort fun a b => decide (a.2 ≤ b.2)).map Prod.fst) := by
  rw [RankedWindow.rows, mapM_partitionKey h]
  rfl

theorem rows_eq (h : w.window.Readable rows) (ho : w.window.Orderable rows) (order : RowOrder) :
    w.rows order rows = .ok (match order with
      | .partition => (w.inGroups rows).map (w.numbered rows)
      | .input => rows.zipIdx.map (w.numbered rows)) := by
  have hgroups : (w.groups rows).mapM w.rankGroup =
      .ok ((w.groups rows).map fun g =>
        (w.inWindowOrder g).map fun m => (w.numbered rows m, m.2)) :=
    mapM_eq_ok_map fun g hg => rankGroup_eq h ho hg
  have hranked : ((w.groups rows).map fun g =>
      (w.inWindowOrder g).map fun m => (w.numbered rows m, m.2)).flatten =
      (w.inGroups rows).map fun m => (w.numbered rows m, m.2) := by
    rw [inGroups, List.map_flatMap, List.flatMap_def]
  rw [rows_def h.supported, hgroups]
  cases order with
  | partition =>
      refine congrArg Except.ok ?_
      rw [hranked, List.map_map]
      rfl
  | input =>
      refine congrArg Except.ok ?_
      rw [hranked, mergeSort_places (inGroups_perm h)]

/-- A ranking that succeeds has found an order in every partition. -/
theorem orderable_of_rows_eq_ok (h : w.window.Readable rows) {order : RowOrder} {out : List Row}
    (hout : w.rows order rows = .ok out) : w.window.Orderable rows := by
  have hranked : ∃ ranked, (w.groups rows).mapM w.rankGroup = .ok ranked := by
    rw [rows_def h.supported] at hout
    cases hgroups : (w.groups rows).mapM w.rankGroup with
    | ok ranked => exact ⟨ranked, rfl⟩
    | error e =>
        rw [hgroups] at hout
        cases hout
  obtain ⟨ranked, hranked⟩ := hranked
  intro r hr s hs htogether t ht
  -- both rows are in one group, and that group was sorted
  obtain ⟨m, hm, rfl⟩ := exists_mem_zipIdx hr
  obtain ⟨n, hn, rfl⟩ := exists_mem_zipIdx hs
  obtain ⟨g, hg, hmg⟩ := List.mem_flatten.1
    ((perm_flatten_groupsOf (keysStand h)).symm.subset hm)
  have hng : n ∈ g := by
    rw [eq_partitionAt h hg hmg, Window.partitionAt, List.mem_filter]
    rw [h.together_eq hr hs] at htogether
    exact ⟨hn, decide_eq_true (of_decide_eq_true htogether).symm⟩
  obtain ⟨_, _, hgroup⟩ := exists_of_mapM_eq_ok hranked g hg
  obtain ⟨sorted, hsorted⟩ : ∃ sorted, sortItems Prod.fst w.window.orderBy g = .ok sorted := by
    cases hsort : sortItems Prod.fst w.window.orderBy g with
    | ok sorted => exact ⟨sorted, rfl⟩
    | error e =>
        rw [rankGroup, hsort] at hgroup
        cases hgroup
  have hcomparable := (sortItems_perm (fun t ht m hm =>
    (h.order (row_mem_of_mem_group h hg hm) t ht).mono fun v hv => hv.supported)
    hsorted).2 t ht
  simp only [ComparableIn, List.forall_mem_map] at hcomparable
  exact hcomparable m hmg n hng

/-- Every row is ranked as in the words of the specification: by the rows of its partition that come
before it, with all else as it was. The rows keep their order, or come out partition by
partition. -/
theorem rows_eq_numbered (w : RankedWindow) (rows : List Row) (h : w.window.Readable rows)
    (ho : w.window.Orderable rows) :
    w.rows .input rows = .ok (rows.zipIdx.map (w.numbered rows)) ∧
      ∃ ms : List (Row × Nat), ms.Perm rows.zipIdx ∧ ms.Pairwise (w.window.Precedes rows) ∧
        w.rows .partition rows = .ok (ms.map (w.numbered rows)) :=
  ⟨rows_eq h ho .input, w.inGroups rows, inGroups_perm h, pairwise_inGroups h ho,
    rows_eq h ho .partition⟩

/-- A table with two partitions, one of them with peers. -/
def scores : List Row :=
  [⟨[("team", .str "a"), ("points", .int 2)]⟩, ⟨[("team", .str "b"), ("points", .null)]⟩,
    ⟨[("team", .str "a"), ("points", .float 1.5)]⟩, ⟨[("team", .str "a"), ("points", .int 2)]⟩]

/-- The teams ranked by points, the most points first. -/
def standings : RankedWindow :=
  ⟨"place", .denseRank, ⟨["team"], [⟨"points", true⟩]⟩, 1⟩

theorem rows_eq_numbered_scores :
    standings.window.Readable scores ∧ standings.window.Orderable scores ∧
      standings.rows .input scores = .ok (scores.zipIdx.map (standings.numbered scores)) := by
  have hreadable : standings.window.Readable scores := by decide +kernel
  have horderable : standings.window.Orderable scores := by decide +kernel
  exact ⟨hreadable, horderable, (rows_eq_numbered standings scores hreadable horderable).1⟩

end RankedWindow

end Tabula
