import Tabula.Datum.Notation
import Tabula.Text.Casing

/-!
Settings in the environment, where everything is text and names are the same in any case. A
variable may hold a whole group, written as data, or one setting, under the name of the group and
its own with two underscores between them. Single settings win over those of the whole group.
-/

namespace Tabula

/-- Variables under names in small letters, each once. -/
structure Environment where
  entries : List (String × String)

namespace Environment

def ofList (entries : List (String × String)) : Environment :=
  ⟨Entries.ofList (entries.map fun v => (Text.lower v.1, v.2))⟩

/-- What all names of variables begin with. -/
def mark : String := "plan_engine_"

/-- What stands before two underscores, and whether there are any. -/
def beforeBreak : List Char → List Char × Bool
  | [] => ([], false)
  | '_' :: '_' :: _ => ([], true)
  | c :: cs =>
      let (front, broken) := beforeBreak cs
      (c :: front, broken)

/-- Adds a setting. One whose name goes on after two underscores is a group, unless there is a
single setting under the name. -/
def addSetting (settings : List (String × Datum)) (name : List Char) (value : String) :
    List (String × Datum) :=
  let (front, broken) := beforeBreak name
  let key := String.ofList front
  if broken then
    if (settings.lookup key).isSome then settings else Entries.set key (.group []) settings
  else Entries.set key (.text value) settings

/-- The single settings of a group. -/
def settings (e : Environment) (group : String) : List (String × Datum) :=
  e.entries.foldl
    (fun settings v =>
      match Datum.after? (mark ++ group ++ "__").toList v.1.toList with
      | some name => addSetting settings name v.2
      | none => settings)
    []

/-- Settings under the names that they go by, which are compared in any case. -/
def renamed (known : List String) (settings : List (String × Datum)) : List (String × Datum) :=
  Entries.ofList <| settings.map fun s =>
    ((known.find? fun n => Text.lower n == Text.lower s.1).getD s.1, s.2)

/-- What the environment says of a group with known settings, if anything; nothing if what it says
of the whole group cannot be read. -/
def group? (e : Environment) (group : String) (known : List String) : Option (Option Datum) :=
  let single := e.settings group
  match e.entries.lookup (mark ++ group) with
  | none => some (if single.isEmpty then none else some (.group (renamed known single)))
  | some text =>
      match Datum.ofText? text with
      | none => none
      | some .null => some none
      | some (.group fields) => some (some (.group (renamed known (Entries.update fields single))))
      | some d => some (some d)

end Environment

end Tabula
