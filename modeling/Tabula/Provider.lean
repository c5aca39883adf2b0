import Tabula.Table

/-!
Tables under names. Registering a table under a name that is taken replaces the one before;
reading a table gives the columns that are asked for, in the order asked.
-/

namespace Tabula

structure Provider where
  tables : List (String × Table)
  deriving Inhabited

/-- The declared columns that a table lacks, in declared order. -/
def TableRef.missing (ref : TableRef) (stored : List String) : List String :=
  ref.columns.filter fun c => !stored.contains c

namespace Provider

def empty : Provider := ⟨[]⟩

def find? (p : Provider) (name : String) : Option Table := p.tables.lookup name

def contains (p : Provider) (name : String) : Bool := (p.find? name).isSome

def erase (p : Provider) (name : String) : Provider := ⟨p.tables.filter fun t => t.1 != name⟩

def insert (p : Provider) (name : String) (t : Table) : Provider :=
  ⟨(name, t) :: (p.erase name).tables⟩

def size (p : Provider) : Nat := p.tables.length

def names (p : Provider) : List String := sortedNames (p.tables.map Prod.fst)

def ofList (tables : List (String × Table)) : Provider :=
  tables.foldl (fun p t => p.insert t.1 t.2) empty

/-- The table that a source is registered as: rows alone take their columns from the first one. -/
def tableOf : Source → Result Table
  | .table t => .ok t
  | .records rows => Table.ofRecords rows none

/-- Registers a source and describes it. The table stays registered even if its description
fails. -/
def register (p : Provider) (name : String) (source : Source) (temporary : Bool) :
    Result TableRef × Provider :=
  match tableOf source with
  | .error e => (.error e, p)
  | .ok t => (t.describe name temporary, p.insert name t)

def unregister (p : Provider) (name : String) : Result Provider :=
  if p.contains name then .ok (p.erase name) else .error (.lookup (.bare name))

/-- The rows of a registered table in the declared columns, null where a row lacks one. -/
def read (p : Provider) (ref : TableRef) : Result Table :=
  match p.find? ref.name with
  | none => .error (.lookup (.table ref.name))
  | some t =>
      match ref.missing t.columns with
      | [] =>
          if t.columns = ref.columns then .ok t
          else Table.make (ref.columns.map .str) (t.rows.map (·.fill ref.columns))
      | missing => .error (.eval (.lacksColumns ref.name missing) (some 0))

theorem find?_insert_self (p : Provider) (name : String) (t : Table) :
    (p.insert name t).find? name = some t := by
  simp [find?, insert]

theorem find?_erase_self (p : Provider) (name : String) : (p.erase name).find? name = none := by
  simpa [find?, erase, List.lookup_eq_none_iff] using fun _ _ _ h => Ne.symm h

end Provider

end Tabula
