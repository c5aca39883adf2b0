import Tabula.Backend.Statement
import Tabula.Provider

/-!
A database over a connection. What is asked of the connection, and what it answers, is a
conversation: the calls made so far, and the replies that are still to come, one for every statement
that is executed. A statement for many rows is answered apart from the others, with nothing but
whether it failed. A failure ends what is being done, and no further call is made.
-/

namespace Tabula

/-- What is asked of a connection. -/
inductive Call
  | connect (database : String)
  | execute (sql : String)
  /-- One statement for every row of values. -/
  | executeMany (sql : String) (rows : List (List Value))
  | close

/-- What a connection answers to a statement. -/
inductive Reply
  | nothing
  | rows (columns : List String) (rows : List (List Value))
  | failure (text : String)

/-- What a connection is going to answer: to statements, and to statements for many rows, where only
the text of a failure is an answer. Statements that are left over go well and return nothing. -/
structure Script where
  replies : List Reply
  batches : List (Option String)

structure Conversation where
  calls : List Call
  replies : List Reply
  batches : List (Option String)

/-- What is done over a connection; a failure keeps the conversation that led to it. -/
abbrev Talk (α : Type) := ExceptT Failure (StateM Conversation) α

namespace Talk

def ofResult {α : Type} (r : Result α) : Talk α := ExceptT.mk (pure r)

/-- Holds a conversation by a script: its outcome, and the calls made. -/
def follow {α : Type} (talk : Talk α) (script : Script) : Result α × List Call :=
  let (r, c) := talk.run.run ⟨[], script.replies, script.batches⟩
  (r, c.calls)

/-- Holds a conversation in which the replies come, and no statement for many rows fails. -/
def hold {α : Type} (talk : Talk α) (replies : List Reply) : Result α × List Call :=
  talk.follow ⟨replies, []⟩

def say (call : Call) : Talk Unit := modify fun c => { c with calls := c.calls ++ [call] }

/-- Executes a statement: columns and rows, or nothing if the statement has no result. -/
def execute (sql : String) : Talk (Option (List String × List (List Value))) := do
  say (.execute sql)
  let c ← get
  match c.replies with
  | [] => return none
  | reply :: replies =>
      set { c with replies }
      match reply with
      | .nothing => return none
      | .rows columns rows => return some (columns, rows)
      | .failure text => throw (.connection text)

/-- Executes a statement once for every row of values. -/
def executeMany (sql : String) (rows : List (List Value)) : Talk Unit := do
  say (.executeMany sql rows)
  let c ← get
  match c.batches with
  | [] => return
  | batch :: batches =>
      set { c with batches }
      match batch with
      | none => return
      | some text => throw (.connection text)

end Talk

/-- A connection to a database that was opened, and perhaps closed since. -/
structure Backend where
  database : String
  closed : Bool
  deriving DecidableEq, Repr

namespace Backend

def text (b : Backend) : String := "DuckDBBackend(database=" ++ Text.quoted b.database ++ ")"

/-- The database that lives in memory only. -/
def inMemory : String := ":memory:"

def connect (database : String) (threads : Int) : Talk Backend := do
  Talk.say (.connect database)
  let _ ← Talk.execute (threadsText threads)
  return ⟨database, false⟩

/-- Executes a statement; the rows of its result under the names of the columns. -/
def send (sql : String) : Talk (List Row) := do
  match ← Talk.execute sql with
  | none => return []
  | some (columns, rows) => return rows.map fun r => Row.ofList (columns.zip r)

/-- The columns of a table with the types that hold their values. -/
def typedColumns (t : Table) : Result (List (String × ColumnType)) :=
  t.columns.mapM fun c => do
    return (c, ← ColumnType.ofValues (← t.column c))

/-- Stores a table under a name. Nothing is sent before every column has a type. -/
def load (name : String) (t : Table) (temporary : Bool) : Talk TableRef := do
  let columns ← Talk.ofResult (typedColumns t)
  let _ ← Talk.execute (createText name temporary columns)
  if !t.rows.isEmpty then
    Talk.executeMany (insertText name t.columns.length) (t.rows.map fun r => t.columns.map r.getD)
  Talk.ofResult (t.describe name temporary)

/-- The column names of a stored table. -/
def tableColumns (name : String) : Talk (List String) := do
  match ← Talk.execute (probeText name) with
  | none => throw (.operand (.noItems "NoneType"))
  | some (columns, _) => return columns

/-- The declared columns of a stored table. -/
def read (ref : TableRef) : Talk Table := do
  let stored ← tableColumns ref.name
  match ref.missing stored with
  | [] => Talk.ofResult (Table.make (ref.columns.map .str) (← send (selectText ref)))
  | missing => throw (.eval (.lacksColumns ref.name missing) (some 0))

/-- Closes the connection, unless it is closed already. -/
def close (b : Backend) : Talk Backend := do
  if b.closed then return b
  Talk.say .close
  return { b with closed := true }

end Backend

end Tabula
