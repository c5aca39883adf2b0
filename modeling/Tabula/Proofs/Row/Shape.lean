import Tabula.Proofs.Result
import Tabula.Proofs.Row.Sort

/-!
The shape of rows. A row over some columns has just these, in their order, with values that plans
compute with. Computed columns and projections lead from rows of one shape to rows of another, and
where no column stands twice a row is what its columns read.
-/

namespace Tabula

/-- Things under names that are found by their names. -/
theorem Entries.lookup_of_mem {α : Type} {name : String} {entries : List (String × α)}
    (h : name ∈ entries.map Prod.fst) :
    ∃ a, entries.lookup name = some a ∧ (name, a) ∈ entries := by
  induction entries with
  | nil => cases h
  | cons e rest ih =>
      obtain ⟨n, a⟩ := e
      by_cases hn : name = n
      · subst hn
        exact ⟨a, by simp, by simp⟩
      · have hrest : name ∈ rest.map Prod.fst := by simpa [hn] using h
        obtain ⟨b, hb, hmem⟩ := ih hrest
        refine ⟨b, ?_, List.mem_cons_of_mem _ hmem⟩
        rw [List.lookup_cons, beq_false_of_ne hn]
        exact hb

theorem Entries.mem_set {α : Type} {name : String} {a : α} {e : String × α}
    {entries : List (String × α)} (h : e ∈ set name a entries) : e = (name, a) ∨ e ∈ entries := by
  induction entries with
  | nil => exact .inl (by simpa [set] using h)
  | cons f rest ih =>
      rw [set] at h
      split at h
      · rename_i hname
        rcases List.mem_cons.1 h with rfl | h
        · exact .inl (by rw [hname])
        · exact .inr (List.mem_cons_of_mem _ h)
      · rcases List.mem_cons.1 h with rfl | h
        · exact .inr List.mem_cons_self
        · exact (ih h).imp id (List.mem_cons_of_mem _)

/-- Where no name stands twice, the entries are what is found under their names. -/
theorem Entries.map_lookup {entries : List (String × Value)}
    (h : (entries.map Prod.fst).Nodup) :
    (entries.map Prod.fst).map (fun n => (n, (entries.lookup n).getD .null)) = entries := by
  induction entries with
  | nil => rfl
  | cons e rest ih =>
      obtain ⟨n, v⟩ := e
      rw [List.map_cons, List.nodup_cons] at h
      rw [List.map_cons, List.map_cons]
      have hrest : (rest.map Prod.fst).map (fun m => (m, (((n, v) :: rest).lookup m).getD .null)) =
          rest := by
        refine Eq.trans (List.map_congr_left fun m hm => ?_) (ih h.2)
        have hne : m ≠ n := fun heq => h.1 (heq ▸ hm)
        rw [List.lookup_cons, beq_false_of_ne hne]
      rw [hrest]
      simp

namespace Row

/-- The row has just these columns, and values that plans compute with. -/
structure Over (columns : List String) (r : Row) : Prop where
  columns_eq : r.columns = columns
  supported : ∀ e ∈ r.cells, e.2.Supported

variable {r : Row} {columns names : List String}

theorem has_of_mem (hs : ∀ e ∈ r.cells, e.2.Supported) {c : String} (h : c ∈ r.columns) :
    r.Has Value.Supported c := by
  obtain ⟨v, hv, hmem⟩ := Entries.lookup_of_mem h
  exact ⟨v, hv, hs _ hmem⟩

theorem Over.has (h : r.Over columns) {c : String} (hc : c ∈ columns) :
    r.Has Value.Supported c :=
  has_of_mem h.supported (h.columns_eq ▸ hc)

theorem Over.set (h : r.Over columns) (name : String) {v : Value} (hv : v.Supported) :
    (r.set name v).Over (if columns.contains name then columns else columns ++ [name]) := by
  constructor
  · simp only [columns_set, h.columns_eq, List.contains_iff_mem]
  · intro e he
    rcases Entries.mem_set he with rfl | he
    · exact hv
    · exact h.supported e he

/-- The entry of a column that the row should have. -/
def entry (r : Row) (c : String) : Except String (String × Value) :=
  match r.get? c with
  | some v => .ok (c, v)
  | none => .error c

theorem project_def (r : Row) (names : List String) :
    r.project names = (do return ⟨← names.mapM r.entry⟩) := rfl

theorem project_eq_fill (h : ∀ c ∈ names, c ∈ r.columns) :
    r.project names = .ok (r.fill names) := by
  have hcells : names.mapM r.entry = .ok (names.map fun n => (n, r.getD n)) := by
    refine mapM_eq_ok_map fun n hn => ?_
    obtain ⟨v, hv, _⟩ := Entries.lookup_of_mem (h n hn)
    have hget : r.get? n = some v := hv
    rw [entry, getD, hget, Option.getD_some]
  rw [project_def, hcells]
  rfl

/-- What a projection gives is what its columns read, all of which the row has. -/
theorem eq_fill_of_project {s : Row} (h : r.project names = .ok s) :
    s = r.fill names ∧ ∀ c ∈ names, ∃ v, r.get? c = some v := by
  have hhas : ∀ c ∈ names, ∃ v, r.get? c = some v := by
    rw [project_def] at h
    cases hcells : names.mapM r.entry with
    | error e =>
        rw [hcells] at h
        cases h
    | ok cells =>
        intro c hc
        obtain ⟨e, _, he⟩ := exists_of_mapM_eq_ok hcells c hc
        rw [entry] at he
        split at he
        · exact ⟨_, ‹_›⟩
        · cases he
  refine ⟨?_, hhas⟩
  have hcells : names.mapM r.entry = .ok (names.map fun n => (n, r.getD n)) := by
    refine mapM_eq_ok_map fun n hn => ?_
    obtain ⟨v, hv⟩ := hhas n hn
    rw [entry, getD, hv, Option.getD_some]
  rw [project_def, hcells] at h
  cases h
  rfl

theorem supported_of_get? (hs : ∀ e ∈ r.cells, e.2.Supported) {c : String} {v : Value}
    (h : r.get? c = some v) : v.Supported := by
  obtain ⟨l, l', hcells, _⟩ := List.lookup_eq_some_iff.1 h
  exact hs (c, v) (by rw [hcells]; simp)

theorem over_of_project {s : Row} (hs : ∀ e ∈ r.cells, e.2.Supported)
    (h : r.project names = .ok s) : s.Over names := by
  obtain ⟨rfl, hhas⟩ := eq_fill_of_project h
  refine ⟨columns_fill r names, ?_⟩
  intro e he
  obtain ⟨c, hc, rfl⟩ := List.mem_map.1 he
  obtain ⟨v, hv⟩ := hhas c hc
  rw [getD, hv]
  exact supported_of_get? hs hv

theorem Over.fill (h : r.Over columns) (hsub : ∀ c ∈ names, c ∈ columns) :
    (r.fill names).Over names := by
  refine ⟨columns_fill r names, ?_⟩
  intro e he
  obtain ⟨c, hc, rfl⟩ := List.mem_map.1 he
  exact (h.has (hsub c hc)).getD

/-- A row without repeated columns is what its columns read. -/
theorem fill_columns (h : r.columns.Nodup) : r.fill r.columns = r := by
  obtain ⟨cells⟩ := r
  exact congrArg Row.mk (Entries.map_lookup h)

/-- A row with a computed column, read column by column. -/
theorem set_eq (h : r.Over columns) (hnodup : columns.Nodup) (name : String) (v : Value) :
    r.set name v = ⟨(if columns.contains name then columns else columns ++ [name]).map fun c =>
      (c, if c = name then v else r.getD c)⟩ := by
  have hcolumns : (r.set name v).columns =
      if columns.contains name then columns else columns ++ [name] := by
    simp only [columns_set, h.columns_eq, List.contains_iff_mem]
  have hnodup' : (r.set name v).columns.Nodup := by
    rw [hcolumns]
    split
    · exact hnodup
    · rename_i hnot
      rw [List.contains_iff_mem] at hnot
      rw [List.nodup_append]
      refine ⟨hnodup, List.nodup_singleton name, ?_⟩
      intro c hc d hd heq
      exact hnot (List.mem_singleton.1 hd ▸ heq ▸ hc)
  -- both sides are read column by column
  rw [← fill_columns hnodup', hcolumns, Row.fill]
  refine congrArg Row.mk (List.map_congr_left fun c _ => ?_)
  by_cases hc : c = name
  · rw [hc, if_pos rfl, getD, get?_set_self, Option.getD_some]
  · rw [if_neg hc, getD, get?_set_of_ne r v hc, getD]

end Row

end Tabula
