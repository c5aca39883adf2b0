import Tabula.Proofs.Row.Window

/-!
Rows in another order. Ranks and dense ranks count rows and order keys, whatever the places of the
rows, so a ranking over rearranged rows gives every row the same number as before, and gives the
rows in some order whenever it does for the rows as they were.
-/

namespace Tabula

variable {rows rows' : List Row}

theorem Window.Readable.of_perm {w : Window} (h : w.Readable rows) (hperm : rows.Perm rows') :
    w.Readable rows' :=
  fun r hr => h r (hperm.symm.subset hr)

theorem Window.Orderable.of_perm {w : Window} (h : w.Orderable rows) (hperm : rows.Perm rows') :
    w.Orderable rows' :=
  fun r hr s hs => h r (hperm.symm.subset hr) s (hperm.symm.subset hs)

theorem ComparableIn.of_perm {c : String} (h : ComparableIn rows c) (hperm : rows.Perm rows') :
    ComparableIn rows' c :=
  h.of_subset fun _ hr => hperm.symm.subset hr

/-- A sort of rearranged rows succeeds if the sort of the rows does. -/
theorem sortRows_perm {terms : List OrderTerm} {out : List Row}
    (hs : ∀ t ∈ terms, ∀ r ∈ rows, r.Has Value.Supported t.column) (hperm : rows.Perm rows')
    (h : sortRows terms rows = .ok out) :
    ∃ out', sortRows terms rows' = .ok out' ∧ out.Perm out' := by
  have hsorted : out.Perm rows ∧ ∀ t ∈ terms, ComparableIn (rows.map id) t.column :=
    sortItems_perm hs h
  rw [List.map_id] at hsorted
  have hs' : ∀ t ∈ terms, ∀ r ∈ rows', r.Has Value.Supported t.column :=
    fun t ht r hr => hs t ht r (hperm.symm.subset hr)
  have hcomparable : ∀ t ∈ terms, ComparableIn (rows'.map id) t.column := by
    rw [List.map_id]
    exact fun t ht => (hsorted.2 t ht).of_perm hperm
  obtain ⟨out', h'⟩ : ∃ out', sortRows terms rows' = .ok out' := sortItems_ok hs' hcomparable
  have hperm' : out'.Perm rows' := (sortItems_perm hs' h').1
  exact ⟨out', h', hsorted.1.trans (hperm.trans hperm'.symm)⟩

namespace Window

theorem aheadOf_perm (w : Window) (hperm : rows.Perm rows') (r : Row) :
    (w.aheadOf rows r).Perm (w.aheadOf rows' r) :=
  (hperm.filter _).filter _

theorem rankOf_perm {w : Window} {f : Ranking} (hf : f ≠ .rowNumber) (h : w.Readable rows)
    (hperm : rows.Perm rows') (place place' : Nat) (r : Row) :
    w.rankOf f rows place r = w.rankOf f rows' place' r := by
  have hahead := w.aheadOf_perm hperm r
  cases f with
  | rank => rw [rankOf_rank, rankOf_rank, hahead.length_eq]
  | denseRank =>
      rw [rankOf_denseRank h, rankOf_denseRank (h.of_perm hperm),
        List.toFinset_eq_of_perm _ _ (hahead.map _)]
  | rowNumber => exact absurd rfl hf

end Window

namespace RankedWindow

/-- The rows with their ranks, where these do not depend on places. -/
theorem numbered_zipIdx {w : RankedWindow} (hf : w.ranking ≠ .rowNumber)
    (h : w.window.Readable rows) (hperm : rows.Perm rows') :
    (rows.zipIdx.map (w.numbered rows)).Perm (rows'.zipIdx.map (w.numbered rows')) := by
  have hnumbered {rows'' : List Row} (hperm' : rows.Perm rows'') :
      rows''.zipIdx.map (w.numbered rows'') = rows''.map fun r =>
        r.set w.name (.int (w.window.rankOf w.ranking rows 0 r)) := by
    rw [← map_zipIdx_row]
    refine List.map_congr_left fun m _ => ?_
    rw [numbered, Window.rankOf_perm hf h hperm' 0 m.2]
  rw [hnumbered (.refl rows), hnumbered hperm]
  exact hperm.map _

theorem rows_perm {w : RankedWindow} (hf : w.ranking ≠ .rowNumber)
    (h : w.window.Readable rows) (hperm : rows.Perm rows') {order order' : RowOrder}
    {out : List Row} (hout : w.rows order rows = .ok out) :
    ∃ out', w.rows order' rows' = .ok out' ∧ out.Perm out' := by
  have ho := orderable_of_rows_eq_ok h hout
  have hinput {rs out : List Row} (h : w.window.Readable rs) (ho : w.window.Orderable rs)
      {order : RowOrder} (hout : w.rows order rs = .ok out) :
      out.Perm (rs.zipIdx.map (w.numbered rs)) := by
    rw [rows_eq h ho] at hout
    cases order with
    | input =>
        cases hout
        exact .refl _
    | partition =>
        cases hout
        exact (inGroups_perm h).map _
  have h' := h.of_perm hperm
  have ho' := ho.of_perm hperm
  refine ⟨_, rows_eq h' ho' order', ?_⟩
  have hout' := hinput h' ho' (rows_eq h' ho' order')
  exact (hinput h ho hout).trans ((numbered_zipIdx hf h hperm).trans hout'.symm)

end RankedWindow

end Tabula
