import Tabula.Entries
import Tabula.Value

/-!
Rows: values under column names, in an order. A name that is written twice keeps its first place
and its last value.
-/

namespace Tabula

structure Row where
  cells : List (String × Value)
  deriving Inhabited

namespace Row

def empty : Row := ⟨[]⟩

def columns (r : Row) : List String := r.cells.map Prod.fst

def get? (r : Row) (name : String) : Option Value := r.cells.lookup name

/-- The value under a name, null if the row lacks it. -/
def getD (r : Row) (name : String) : Value := (r.get? name).getD .null

/-- Replaces the value under a name or adds it at the end. -/
def set (r : Row) (name : String) (v : Value) : Row := ⟨Entries.set name v r.cells⟩

def ofList (cells : List (String × Value)) : Row := ⟨Entries.ofList cells⟩

/-- The named columns in the given order, or the first that the row lacks. -/
def project (r : Row) (names : List String) : Except String Row := do
  let cells ← names.mapM fun n =>
    match r.get? n with
    | some v => .ok (n, v)
    | none => .error n
  return ⟨cells⟩

/-- The named columns in the given order, null where the row lacks one. -/
def fill (r : Row) (names : List String) : Row := ⟨names.map fun n => (n, r.getD n)⟩

theorem get?_set_self (r : Row) (name : String) (v : Value) : (r.set name v).get? name = some v :=
  Entries.lookup_set_self name v r.cells

theorem get?_set_of_ne (r : Row) {name other : String} (v : Value) (h : other ≠ name) :
    (r.set name v).get? other = r.get? other :=
  Entries.lookup_set_of_ne v r.cells h

theorem columns_set (r : Row) (name : String) (v : Value) :
    (r.set name v).columns = if name ∈ r.columns then r.columns else r.columns ++ [name] :=
  Entries.map_fst_set name v r.cells

theorem columns_project {r s : Row} {names : List String} (h : r.project names = .ok s) :
    s.columns = names := by
  suffices ∀ cells, (names.mapM fun n =>
      match r.get? n with
      | some v => Except.ok (n, v)
      | none => Except.error n) = .ok cells → cells.map Prod.fst = names by
    simp only [project, bind, Except.bind, pure, Except.pure] at h
    split at h
    · cases h
    · rename_i cells hc
      cases h
      exact this cells hc
  clear h
  induction names with
  | nil =>
    intro cells h
    cases h
    rfl
  | cons n rest ih =>
    intro cells h
    simp only [List.mapM_cons, bind, Except.bind, pure, Except.pure] at h
    cases hg : r.get? n with
    | none => simp [hg] at h
    | some v =>
      simp only [hg] at h
      split at h
      · cases h
      · rename_i others ho
        cases h
        simp [ih others ho]

theorem columns_fill (r : Row) (names : List String) : (r.fill names).columns = names := by
  simp [fill, columns, Function.comp_def]

end Row

end Tabula
