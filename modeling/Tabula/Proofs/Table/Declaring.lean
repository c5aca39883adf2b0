import Tabula.Proofs.Plan.Validity
import Tabula.Provider

/-!
Declaring tables. The columns of a table were checked when it was made, so that a reference to it can
be built unless it is given no name or has no columns.
-/

namespace Tabula

/-- The columns of the table passed the checks of a table that is made. -/
def Table.Made (t : Table) : Prop := ∃ columns, uniqueColumns columns none = .ok t.columns

/-- A table that was made, or rows alone. -/
def Source.Made : Source → Prop
  | table t => t.Made
  | records _ => True

/-- The table can be declared under the name. -/
def Table.Declarable (t : Table) (name : String) : Prop := name ≠ "" ∧ t.columns ≠ []

instance (t : Table) (name : String) : Decidable (t.Declarable name) :=
  inferInstanceAs (Decidable (name ≠ "" ∧ t.columns ≠ []))

variable {t : Table} {name : String}

theorem Table.made_of_make {columns : List Value} {rows : List Row}
    (h : Table.make columns rows = .ok t) : t.Made := by
  obtain ⟨names, hnames, ht⟩ := bind_eq_ok.1 h
  cases ht
  exact ⟨columns, hnames⟩

theorem Table.made_of_ofRecords {records : List Row} {columns : Option (List Value)}
    (h : Table.ofRecords records columns = .ok t) : t.Made := by
  unfold ofRecords at h
  extract_lets ofColumns at h
  -- wherever the columns come from, they are checked when the table is made
  have hmade (columns : List Value) (h : ofColumns columns = .ok t) : t.Made := by
    dsimp only [ofColumns] at h
    split at h
    · cases h
    · obtain ⟨rows, -, h⟩ := bind_eq_ok.1 h
      exact made_of_make h
  split at h <;>
    obtain ⟨columns, -, h⟩ := bind_eq_ok.1 h <;>
    exact hmade columns h

/-- What a source is registered as was made. -/
theorem Source.Made.tableOf {source : Source} (hsource : source.Made)
    (h : Provider.tableOf source = .ok t) : t.Made := by
  cases source with
  | table t' =>
      cases h
      exact hsource
  | records rows => exact Table.made_of_ofRecords h

theorem Table.Made.describe_eq_ok (ht : t.Made) (h : t.Declarable name) (temporary : Bool) :
    t.describe name temporary = .ok ⟨name, t.columns, temporary⟩ := by
  obtain ⟨columns, hcolumns⟩ := ht
  exact (isHeading_of_uniqueColumns hcolumns h.2).make_eq_ok h.1 temporary

theorem Table.describe_eq_error (h : ¬ t.Declarable name) (temporary : Bool) :
    ∃ e, t.describe name temporary = .error e := by
  cases hdescribe : t.describe name temporary with
  | error e => exact ⟨e, rfl⟩
  | ok ref =>
      refine absurd ⟨?_, ?_⟩ h
      · rintro rfl
        cases hdescribe
      · intro hempty
        rw [describe, hempty, TableRef.make] at hdescribe
        split at hdescribe <;> cases hdescribe

/-- A table that was made cannot be declared just where the name or the columns are missing. -/
theorem Table.Made.describe_fails_iff (ht : t.Made) (temporary : Bool) :
    (∃ e, t.describe name temporary = .error e) ↔ ¬ t.Declarable name := by
  refine ⟨?_, fun h => describe_eq_error h temporary⟩
  rintro ⟨e, he⟩ h
  rw [ht.describe_eq_ok h] at he
  cases he

end Tabula
