import Tabula.Proofs.Row.Window

/-!
Leading terms. A sort goes by the first of its terms last, so whatever the other terms have done, the
terms in front decide by a stable sort, as long as the values of their columns are equal to
themselves: the keys come out in one order then, whatever order the rows were in. The next term
decides among rows that those in front do not tell apart, and puts nulls last among them even if its
column holds doubles that are no numbers.
-/

namespace Tabula

/-! ### Nulls -/

section Keyed

variable {α : Type} {items out : List (Value × α)}

/-- After an item without a key, none has a key. -/
def NullsLast (items : List (Value × α)) : Prop :=
  items.Pairwise fun x y => x.1.isNull = true → y.1.isNull = true

theorem inOneOrder_reverse (keys : List Value) : inOneOrder keys.reverse = inOneOrder keys := by
  simp [inOneOrder, List.filter_reverse]

/-- A number that has a place is equal to itself. -/
theorem Value.isNaN_eq_false {v : Value} (h : v.place?.isSome = true) : v.isNaN = false := by
  cases v with
  | float x =>
      rw [isNaN, Bool.eq_false_iff, ne_eq, ← Number.Parts.of_eq_nan_iff]
      intro hnan
      rw [Value.place?.eq_def] at h
      dsimp only at h
      rw [hnan] at h
      cases h
  | _ => rfl

/-- Keys that are all texts, or all numbers with a place, are equal to themselves. -/
theorem plain_of_inOneOrder (hs : ∀ x ∈ items, x.1.Supported)
    (h : inOneOrder (items.map Prod.fst) = true) : ∀ x ∈ items, x.1.Plain := by
  intro x hx
  refine ⟨hs x hx, ?_⟩
  by_cases hnull : x.1.isNull = true
  · rw [Value.isNull_eq_true.1 hnull]
    rfl
  have hpresent : x.1 ∈ (items.map Prod.fst).filter fun v => !v.isNull :=
    List.mem_filter.2 ⟨List.mem_map_of_mem hx, by rw [(Bool.not_eq_true _).mp hnull]; rfl⟩
  simp only [inOneOrder, Bool.or_eq_true, List.all_eq_true, decide_eq_true_eq] at h
  rcases h with htext | hplace
  · have hkind := htext _ hpresent
    cases hkey : x.1 <;> simp_all [Value.kind, Value.isNaN]
  · exact Value.isNaN_eq_false (hplace _ hpresent)

theorem nullsLast_stableSort (t : OrderTerm) (hplain : ∀ x ∈ items, x.1.Plain) :
    NullsLast (stableSort (fun x y => t.isAhead x.1.standing? y.1.standing?) items) := by
  have hsorted := (t.strictWeak_isAhead.comap fun x : Value × α => x.1.standing?).sorted_stableSort
    items
  have hmem {x : Value × α}
      (hx : x ∈ stableSort (fun x y => t.isAhead x.1.standing? y.1.standing?) items) :
      x.1.Plain := hplain x ((stableSort_perm _ items).subset hx)
  refine hsorted.imp_of_mem fun {x y} hx hy hxy hnull => ?_
  -- a value that is not null would be ahead of the null
  rw [(hmem hx).standing?_eq_none.2 (Value.isNull_eq_true.1 hnull)] at hxy
  rw [Value.isNull_eq_true, ← (hmem hy).standing?_eq_none]
  cases hstanding : y.1.standing? with
  | none => rfl
  | some p =>
      rw [hstanding] at hxy
      cases hxy

theorem nullsLast_of_follows (h : out.Pairwise fun x y => Follows false x.1 y.1) :
    NullsLast out := h.imp fun hxy => hxy.nulls

theorem nullsLast_of_follows_reverse
    (h : out.reverse.Pairwise fun x y => Follows true x.1 y.1) : NullsLast out := by
  refine (List.pairwise_reverse.1 h).imp fun {x y} hyx hx => ?_
  by_contra hy
  have hx' := hyx.nulls ((Bool.not_eq_true _).mp hy)
  rw [hx] at hx'
  cases hx'

/-- Nulls are last in either direction, also among values that have no order. -/
theorem nullsLast_sortDirected {descending : Bool} (hs : ∀ x ∈ items, x.1.Supported)
    (h : sortDirected descending items = .ok out) : NullsLast out := by
  by_cases hone : inOneOrder (items.map Prod.fst) = true
  · have hsorted : sortDirected descending items = _ := sortDirected_eq ⟨"", descending⟩
      (plain_of_inOneOrder hs hone) (keysComparable_of_inOneOrder hs hone)
    obtain rfl := Except.ok.inj (h.symm.trans hsorted)
    exact nullsLast_stableSort _ (plain_of_inOneOrder hs hone)
  rw [sortDirected_eq_ok] at h
  split at h
  · have hone' : ¬ inOneOrder (items.reverse.map Prod.fst) = true := by
      rwa [List.map_reverse, inOneOrder_reverse]
    rw [sortKeyed, if_neg hone'] at h
    have hends := ends_sortByRuns_keys true items.reverse
      fun x hx => hs x (List.mem_reverse.1 hx)
    exact nullsLast_of_follows_reverse (hends.of_eq_ok h).1
  · rw [sortKeyed, if_neg hone] at h
    exact nullsLast_of_follows ((ends_sortByRuns_keys false items hs).of_eq_ok h).1

end Keyed

/-! ### Terms in front of others -/

section Rows

variable {firsts rest : List OrderTerm} {t : OrderTerm} {rows rows' out out' : List Row}

theorem sortRows_append_eq_ok : sortRows (firsts ++ rest) rows = .ok out ↔
    ∃ between, sortRows rest rows = .ok between ∧ sortRows firsts between = .ok out := by
  induction firsts generalizing out with
  | nil => simp [sortRows, sortItems]
  | cons t firsts ih =>
      simp only [sortRows] at ih
      simp only [sortRows, List.cons_append, sortItems_cons, bind_eq_ok, ih]
      constructor
      · rintro ⟨sorted, ⟨between, hbetween, hsorted⟩, hrest⟩
        exact ⟨between, hbetween, sorted, hsorted, hrest⟩
      · rintro ⟨between, hbetween, sorted, hsorted, hrest⟩
        exact ⟨sorted, ⟨between, hbetween, hsorted⟩, hrest⟩

/-- Whether two rows are equal in the columns of the terms. -/
def Row.sameKeys (terms : List OrderTerm) (r s : Row) : Bool :=
  Value.sameItems (r.values (terms.map (·.column))) (s.values (terms.map (·.column)))

/-- Where the values of a row stand in the columns of the terms. -/
def Row.standings (terms : List OrderTerm) (r : Row) : List (Option Standing) :=
  terms.map fun t => (r.getD t.column).standing?

theorem Row.standings_eq_iff {terms : List OrderTerm} {r s : Row} :
    r.standings terms = s.standings terms ↔
      ∀ t ∈ terms, (r.getD t.column).standing? = (s.getD t.column).standing? := List.map_inj_left

theorem Row.sameKeys_iff {terms : List OrderTerm} {r s : Row}
    (hr : ∀ t ∈ terms, r.Has Value.Plain t.column)
    (hs : ∀ t ∈ terms, s.Has Value.Plain t.column) :
    r.sameKeys terms s = true ↔ r.standings terms = s.standings terms := by
  have hsame := Window.Readable.sameItems_eq (List.forall_mem_map.2 hr) (List.forall_mem_map.2 hs)
  rw [sameKeys, hsame, decide_eq_true_eq]
  simp only [values, standings, List.map_map, Function.comp_def]

/-- What the terms in front decide is decided by a stable sort, whatever the others have done. -/
theorem sortRows_leading (hs : ∀ t ∈ firsts ++ rest, ∀ r ∈ rows, r.Has Value.Supported t.column)
    (hplain : ∀ t ∈ firsts, ∀ r ∈ rows, r.Has Value.Plain t.column)
    (h : sortRows (firsts ++ rest) rows = .ok out) :
    ∃ between, sortRows rest rows = .ok between ∧ between.Perm rows ∧
      out = stableSort (Row.isAhead firsts) between := by
  obtain ⟨between, hbetween, hout⟩ := sortRows_append_eq_ok.1 h
  have hperm : between.Perm rows :=
    (sortItems_perm (fun t ht => hs t (List.mem_append_right _ ht)) hbetween).1
  have hplain' : ∀ t ∈ firsts, ∀ r ∈ between, r.Has Value.Plain t.column :=
    fun t ht r hr => hplain t ht r (hperm.subset hr)
  have hsupported : ∀ t ∈ firsts, ∀ r ∈ between, r.Has Value.Supported t.column :=
    fun t ht r hr => (hplain' t ht r hr).mono fun _ hv => hv.supported
  have hsorted : sortRows firsts between = .ok (stableSort (Row.isAhead firsts) between) :=
    sortItems_eq hplain' (sortItems_perm hsupported hout).2
  exact ⟨between, hbetween, hperm, Except.ok.inj (hout.symm.trans hsorted)⟩

/-- The keys in front come out the same, in whatever order the rows were. -/
theorem sameKeys_of_perm (hs : ∀ t ∈ firsts ++ rest, ∀ r ∈ rows, r.Has Value.Supported t.column)
    (hplain : ∀ t ∈ firsts, ∀ r ∈ rows, r.Has Value.Plain t.column) (hperm : rows.Perm rows')
    (h : sortRows (firsts ++ rest) rows = .ok out)
    (h' : sortRows (firsts ++ rest) rows' = .ok out') :
    List.Forall₂ (fun r s => r.sameKeys firsts s = true) out out' := by
  obtain ⟨between, -, hbetween, rfl⟩ := sortRows_leading hs hplain h
  obtain ⟨between', -, hbetween', rfl⟩ := sortRows_leading
    (fun t ht r hr => hs t ht r (hperm.symm.subset hr))
    (fun t ht r hr => hplain t ht r (hperm.symm.subset hr)) h'
  have hstandings := (Row.strictWeak_isAhead firsts).map_stableSort_of_perm
    (Row.standings firsts)
    (fun hab hba => Row.standings_eq_iff.2 (Row.standing?_eq_of_not_isAhead hab hba))
    (fun ha hb => Row.isAhead_congr (Row.standings_eq_iff.1 ha) (Row.standings_eq_iff.1 hb))
    (hbetween.trans (hperm.trans hbetween'.symm))
  rw [← List.forall₂_eq_eq_eq, List.forall₂_map_left_iff, List.forall₂_map_right_iff,
    List.forall₂_iff_zip] at hstandings
  refine List.forall₂_iff_zip.2 ⟨hstandings.1, fun {r s} hrs => ?_⟩
  have hr := hbetween.subset ((stableSort_perm _ _).subset (List.of_mem_zip hrs).1)
  have hs := (hbetween'.trans hperm.symm).subset
    ((stableSort_perm _ _).subset (List.of_mem_zip hrs).2)
  exact (Row.sameKeys_iff (fun t ht => hplain t ht r hr) fun t ht => hplain t ht s hs).2
    (hstandings.2 hrs)

/-- Nulls are last under the first term. -/
theorem nullsLast_of_sortRows_cons
    (hs : ∀ term ∈ t :: rest, ∀ r ∈ rows, r.Has Value.Supported term.column)
    (h : sortRows (t :: rest) rows = .ok out) :
    out.Pairwise fun r s => (r.getD t.column).isNull = true → (s.getD t.column).isNull = true := by
  rw [List.forall_mem_cons] at hs
  have hhas (rows' : List Row) (h' : sortItems id rest rows = .ok rows') :
      ∀ r ∈ rows', r.Has Value.Supported t.column :=
    fun r hr => hs.1 r ((sortItems_perm hs.2 h').1.subset hr)
  obtain ⟨rows', sorted, h', hsorted, rfl⟩ := (sortItems_cons_eq_ok hhas).1 h
  have hkeys : ∀ x ∈ rows'.map fun r => (r.getD t.column, r), x.1.Supported :=
    List.forall_mem_map.2 fun r hr => (hhas rows' h' r hr).getD
  -- every key is the value of its row
  have hkey : ∀ x ∈ sorted, x.1 = x.2.getD t.column := by
    intro x hx
    obtain ⟨r, -, rfl⟩ := List.mem_map.1 ((sortDirected_perm hsorted hkeys).2.subset hx)
    rfl
  refine List.pairwise_map.2 ((nullsLast_sortDirected hkeys hsorted).imp_of_mem ?_)
  intro x y hx hy hxy
  rwa [hkey x hx, hkey y hy] at hxy

/-- Among rows that the terms in front do not tell apart, nulls are last under the next term. -/
theorem nullsLast_sortRows
    (hs : ∀ term ∈ firsts ++ t :: rest, ∀ r ∈ rows, r.Has Value.Supported term.column)
    (hplain : ∀ term ∈ firsts, ∀ r ∈ rows, r.Has Value.Plain term.column)
    (h : sortRows (firsts ++ t :: rest) rows = .ok out) :
    out.Pairwise fun r s => r.sameKeys firsts s = true →
      (r.getD t.column).isNull = true → (s.getD t.column).isNull = true := by
  obtain ⟨between, hbetween, hperm, rfl⟩ := sortRows_leading hs hplain h
  have hlast := nullsLast_of_sortRows_cons
    (fun term hterm => hs term (List.mem_append_right _ hterm)) hbetween
  -- the stable sort by the terms in front keeps what stands in order otherwise
  have hplaced := (Row.strictWeak_isAhead firsts).pairwise_stableSort hlast
  refine hplaced.imp_of_mem fun {r s} hr hs hrs hsame => hrs.2 ?_
  have hmem {r : Row} (hr : r ∈ stableSort (Row.isAhead firsts) between) : r ∈ rows :=
    hperm.subset ((stableSort_perm _ _).subset hr)
  have hstandings := (Row.sameKeys_iff (fun t ht => hplain t ht r (hmem hr))
    fun t ht => hplain t ht s (hmem hs)).1 hsame
  calc Row.isAhead firsts r s = Row.isAhead firsts s s :=
        Row.isAhead_congr (Row.standings_eq_iff.1 hstandings) fun _ _ => rfl
    _ = false := (Row.strictWeak_isAhead firsts).irrefl s

end Rows

end Tabula
