import Tabula.Sql.Name
import Tabula.Table

/-!
The statements by which tables are stored in a database and read from it, and the types of their
columns. Names are always quoted; values never stand in a statement.
-/

namespace Tabula

inductive ColumnType
  | boolean
  | integer
  | double
  | text
  deriving DecidableEq, Repr

def ColumnType.name : ColumnType → String
  | boolean => "BOOLEAN"
  | integer => "BIGINT"
  | double => "DOUBLE"
  | text => "VARCHAR"

/-- The type that stores all values. Nulls fit any type; integers and doubles together are stored as
doubles. -/
def ColumnType.ofValues (values : List Value) : Result ColumnType :=
  let forms := sortedNames ((values.filter fun v => !v.isNull).map Value.formName)
  match forms with
  | [] => .ok text
  | ["bool"] => .ok boolean
  | ["int"] => .ok integer
  | ["float"] => .ok double
  | ["float", "int"] => .ok double
  | ["str"] => .ok text
  | forms => .error (.argument (.mixedForms forms))

namespace Backend

open Sql (quotedName)

def commaList (parts : List String) : String := ", ".intercalate parts

/-- Creates a table, in the place of any other of that name. -/
def createText (name : String) (temporary : Bool) (columns : List (String × ColumnType)) : String :=
  "CREATE OR REPLACE " ++ (if temporary then "TEMPORARY TABLE " else "TABLE ") ++ quotedName name ++
    " (" ++ commaList (columns.map fun c => quotedName c.1 ++ " " ++ c.2.name) ++ ")"

/-- Inserts rows of `width` values, which are sent beside the statement. -/
def insertText (name : String) (width : Nat) : String :=
  "INSERT INTO " ++ quotedName name ++ " VALUES (" ++ commaList (List.replicate width "?") ++ ")"

/-- Asks for the columns of a table, but for no row. -/
def probeText (name : String) : String := "SELECT * FROM " ++ quotedName name ++ " LIMIT 0"

def selectText (ref : TableRef) : String :=
  "SELECT " ++ commaList (ref.columns.map quotedName) ++ " FROM " ++ quotedName ref.name

/-- Sets the number of threads that statements may use. -/
def threadsText (threads : Int) : String := "PRAGMA threads=" ++ toString threads ++ ";"

end Backend

end Tabula
