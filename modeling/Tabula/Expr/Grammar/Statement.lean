import Tabula.Expr.Grammar.Operand

/-!
Statements that begin with a word of their own. No expression is one; they are read as far as it
takes to name them. What is not understood of some statements makes them commands, which may go on
in any way.
-/

namespace Tabula

open Reader

/-- A statement that is not read further. -/
def command : Reader Phrase := do
  swallow
  return .form "Command"

/-- Words that begin commands. -/
def commandWords : List String :=
  ["CALL", "EXECUTE", "EXPLAIN", "FETCH", "OPTIMIZE", "PREPARE", "RENAME", "RESET", "VACUUM"]

/-- A statement, or a command if something is left over. -/
def orCommand (name : String) : Reader Phrase := do
  if (← get).isEmpty then return .form name else command

/-- Passes over parentheses and what is inside, given how many are open. -/
def passParens : Nat → List Lexeme → List Lexeme
  | _, [] => []
  | depth, l :: ls =>
      if l.token = .mark "(" then passParens (depth + 1) ls
      else if l.token = .mark ")" then if depth ≤ 1 then ls else passParens (depth - 1) ls
      else passParens depth ls

/-- A name of a table, with the names of columns or their definitions in parentheses. -/
def schemaOf : Reader Unit := do
  let _ ← need (tableName (return none))
  if ← atMark "(" then modify (passParens 0)

def ifExists : Reader Unit := do
  if !(← words ["IF", "NOT", "EXISTS"]) then
    let _ ← words ["IF", "EXISTS"]

/-- A condition, what is returned, an order and a limit, at the end of a change. -/
def changeClauses (g : Grammar) : Reader Unit := do
  if ← word "WHERE" then
    let _ ← need (g .disjunction)
  if ← word "RETURNING" then
    let _ ← separated (g .expression)
  let _ ← ordering g
  let _ ← limit g

/-- Takes words without any other use, and NOT, with commas between them. -/
def passModes : Nat → Reader Unit
  | 0 => return ()
  | bound + 1 => do
      match ← peek with
      | some l =>
          if l.key = "NOT" || l.token.isFree || l.token = .mark "," then
            skip
            passModes bound
      | none => return ()

def beginOf : Reader Phrase := do
  let _ ← oneOf ["DEFERRED", "IMMEDIATE", "EXCLUSIVE"]
  let _ ← oneOf ["TRANSACTION", "WORK"]
  passModes (← get).length
  return .form "Transaction"

def endOf (name : String) : Reader Phrase := do
  let _ ← oneOf ["TRANSACTION", "WORK"]
  if ← word "TO" then
    let _ ← word "SAVEPOINT"
    let _ ← nameOf true
  if ← word "AND" then
    let _ ← word "NO"
    let _ ← word "CHAIN"
  return .form name

/-- A value given to a setting, unless the words do not give one. -/
def settingOf (g : Grammar) : Reader (Option Phrase) := do
  let _ ← oneOf ["GLOBAL", "LOCAL", "SESSION"]
  let start ← get
  match ← g .column with
  | none =>
      set start
      return none
  | some p =>
      if ← anyOf [mark "=", mark ":=", word "TO"] then
        let _ ← need (either (g .statement) (nameOf true))
        return some p
      else
        set start
        return none

def setOf (g : Grammar) : Reader Phrase := do
  let _ ← separated (settingOf g)
  orCommand "Set"

def createOf (g : Grammar) : Reader Phrase := do
  let _ ← words ["OR", "REPLACE"]
  let _ ← oneOf ["TEMP", "TEMPORARY"]
  let _ ← word "UNIQUE"
  if ← oneOf creatableWords then
    ifExists
    schemaOf
    if ← word "AS" then
      match ← either (g (.select true)) (g .expression) with
      | some _ => orCommand "Create"
      | none => command
    else orCommand "Create"
  else command

def dropOf : Reader Phrase := do
  let _ ← oneOf ["TEMP", "TEMPORARY"]
  let _ ← word "MATERIALIZED"
  if ← oneOf creatableWords then
    ifExists
    schemaOf
    let _ ← oneOf ["CASCADE", "RESTRICT"]
    return .form "Drop"
  else command

def deleteOf (g : Grammar) : Reader Phrase := do
  if !((← key) = "FROM") then
    let names ← separated (g .table)
    if names.isEmpty then failure
  if ← word "FROM" then
    let _ ← need (g .table)
  if ← word "USING" then
    let _ ← separated (g .table)
  changeClauses g
  return .form "Delete"

def insertOf (g : Grammar) : Reader Phrase := do
  if ← word "OR" then
    let _ ← oneOf ["REPLACE", "IGNORE"]
  let _ ← word "INTO"
  let _ ← word "TABLE"
  if ← atMark "(" then
    let _ ← need (g .table)
  else schemaOf
  if !(← words ["BY", "NAME"]) then
    let _ ← words ["DEFAULT", "VALUES"]
  match ← values g with
  | some _ => pure ()
  | none =>
      let _ ← g (.select true)
  if ← word "RETURNING" then
    let _ ← separated (g .expression)
  return .form "Insert"

def updateOf (g : Grammar) : Reader Phrase := do
  let _ ← need (g .table)
  if ← word "SET" then
    let _ ← separated (g .condition)
  let _ ← tables g
  changeClauses g
  return .form "Update"

def truncateOf (g : Grammar) : Reader Phrase := do
  let _ ← word "DATABASE"
  let _ ← word "TABLE"
  let _ ← words ["IF", "EXISTS"]
  let _ ← separated do
    let p ← need (g .table)
    return some p
  orCommand "TruncateTable"

def analyzeOf (g : Grammar) : Reader Phrase := do
  if (← get).isEmpty then return .form "Analyze"
  else
    let _ ← word "TABLE"
    let _ ← need (tableName (return none))
    if ← mark "(" then
      let _ ← separated (g .expression)
      expect (mark ")")
    return .form "Analyze"

/-- A statement about one table. -/
def onTable (g : Grammar) (name : String) : Reader Phrase := do
  let _ ← need (g .table)
  return .form name

def mergeOf (g : Grammar) : Reader Phrase := do
  let _ ← word "INTO"
  let _ ← need (g .table)
  expect (word "USING")
  let _ ← need (g .table)
  swallow
  return .form "Merge"

def pivotOf (g : Grammar) : Reader Phrase := do
  let _ ← need (g .table)
  if ← word "ON" then
    let _ ← separated (g .expression)
  if ← word "USING" then
    let _ ← separated (g .expression)
  if ← word "GROUP BY" then
    let _ ← separated (g .disjunction)
  return .form "Pivot"

def attachOf (g : Grammar) (name : String) : Reader Phrase := do
  let _ ← word "DATABASE"
  ifExists
  let _ ← need (either (primary g) (nameIf Token.mustName))
  if ← word "AS" then
    let _ ← need (nameOf true)
  if ← atMark "(" then modify (passParens 0)
  return .form name

def installOf : Reader Phrase := do
  let _ ← need (nameOf true)
  if ← word "FROM" then skip
  return .form "Install"

def grantOf (name : String) : Reader Phrase := do
  let ls ← get
  set ((ls.dropWhile fun l => l.key ≠ "ON").drop 1)
  let _ ← oneOf creatableWords
  match ← tableName (return none) with
  | none => command
  | some _ =>
      if ← oneOf ["TO", "FROM"] then
        let _ ← separated (nameOf true)
        orCommand name
      else command

def copyOf (g : Grammar) : Reader Phrase := do
  let _ ← word "INTO"
  match ← g (.select true) with
  | some _ => pure ()
  | none => schemaOf
  if !(← word "FROM") then
    let _ ← word "TO"
  let _ ← separated (g .column)
  orCommand "Copy"

/-- A remark on something that can be created. -/
def commentOf : Reader Phrase := do
  let _ ← words ["IF", "EXISTS"]
  let _ ← word "ON"
  let _ ← word "MATERIALIZED"
  if ← oneOf creatableWords then
    let _ ← need (tableName (return none))
    let _ ← word "IS"
    match ← peek with
    | some ⟨.string _, _⟩ =>
        skip
        return .form "Comment"
    | _ => failure
  else command

/-- What a column is given: a type, and what holds of its values. -/
def columnProperties (g : Grammar) : Nat → Reader Unit
  | 0 => return ()
  | bound + 1 => do
      if ← anyOf [words ["NOT", "NULL"], word "NULL", word "UNIQUE", word "PRIMARY KEY"] then
        columnProperties g bound
      else if ← word "DEFAULT" then
        let _ ← need (g .bits)
        columnProperties g bound

/-- One change to a table. -/
def alteration (g : Grammar) : Reader Bool := do
  if ← word "ADD" then
    let _ ← word "COLUMN"
    ifExists
    let _ ← need (nameOf true)
    match ← g (.type false) with
    | some _ =>
        columnProperties g (← get).length
        return true
    | none => return false
  else if ← word "DROP" then
    let _ ← word "COLUMN"
    ifExists
    let _ ← need (g .column)
    let _ ← oneOf ["CASCADE", "RESTRICT"]
    return true
  else if ← word "RENAME" then
    if ← word "TO" then
      let _ ← need (tableName (return none))
      return true
    else
      let _ ← word "COLUMN"
      let _ ← need (g .column)
      if ← word "TO" then
        let _ ← need (g .column)
        return true
      else return false
  else if ← word "ALTER" then
    let _ ← word "COLUMN"
    let _ ← need (g .column)
    if ← anyOf [words ["DROP", "DEFAULT"], words ["DROP", "NOT", "NULL"],
        words ["SET", "NOT", "NULL"]] then
      return true
    else if ← words ["SET", "DEFAULT"] then
      let _ ← need (g .disjunction)
      return true
    else
      let _ ← words ["SET", "DATA"]
      let _ ← word "TYPE"
      return (← g (.type false)).isSome
  else return false

def alterOf (g : Grammar) : Reader Phrase := do
  if ← oneOf ["TABLE", "VIEW"] then
    ifExists
    let _ ← need (tableName (return none))
    if ← alteration g then orCommand "Alter" else command
  else command

/-- The rest of a statement that begins with a word for it. -/
def statementOf (g : Grammar) (key : String) : Option (Reader Phrase) :=
  match key with
  | "ALTER" => some (alterOf g)
  | "ANALYZE" => some (analyzeOf g)
  | "ATTACH" => some (attachOf g "Attach")
  | "BEGIN" => some beginOf
  | "CACHE" => some do
      let _ ← word "LAZY"
      let _ ← word "TABLE"
      onTable g "Cache"
  | "COMMENT" => some commentOf
  | "COMMIT" => some (endOf "Commit")
  | "COPY" => some (copyOf g)
  | "CREATE" => some (createOf g)
  | "DELETE" => some (deleteOf g)
  | "DESC" | "DESCRIBE" => some (describeOf g)
  | "DETACH" => some (attachOf g "Detach")
  | "DROP" => some dropOf
  | "FORCE" => some do if ← word "INSTALL" then installOf else command
  | "GRANT" => some (grantOf "Grant")
  | "INSERT" => some (insertOf g)
  | "INSTALL" => some installOf
  | "KILL" => some do
      let _ ← oneOf ["CONNECTION", "QUERY"]
      let _ ← need (primary g)
      return .form "Kill"
  | "LOAD" => some command
  | "MERGE" => some (mergeOf g)
  | "PIVOT" | "PIVOT_WIDER" | "UNPIVOT" => some (pivotOf g)
  | "PRAGMA" => some do
      let _ ← need (g .expression)
      return .form "Pragma"
  | "REVOKE" => some (grantOf "Revoke")
  | "ROLLBACK" => some (endOf "Rollback")
  | "SET" => some (setOf g)
  | "SHOW" => some do
      if ← anyOf [word "TABLES", words ["ALL", "TABLES"]] then return .form "Show" else command
  | "TRUNCATE" => some (truncateOf g)
  | "UNCACHE" => some do
      expect (word "TABLE")
      onTable g "Uncache"
  | "UPDATE" => some (updateOf g)
  | "USE" => some do
      let _ ← oneOf ["CATALOG", "DATABASE", "ROLE", "SCHEMA", "WAREHOUSE"]
      onTable g "Use"
  | key => if commandWords.contains key then some command else none

/-- A statement: one that begins with a word of its own, an expression, or a query. -/
def statementRule (g : Grammar) : Reader (Option Phrase) := do
  match ← peek with
  | none => return none
  | some l =>
      let isCalled ← secondAtMark "("
      if l.token = .mark ";" then
        skip
        return some (.form "Semicolon")
      else if l.key = "IF" && !isCalled then return some (← command)
      else if l.key = "TRUNCATE" && isCalled then g .column
      else
        match statementOf g l.key with
        | some r =>
            skip
            return some (← r)
        | none =>
            let isTable := ((← peekSecond).map fun l => l.token.mayName).getD false
            if l.key = "TABLE" && isTable then
              skip
              let _ ← need (g .table)
              return some (← withClauses g (← setOperations g (.form "Select")))
            else
              match ← g .expression with
              | some p => return some (← withClauses g (← setOperations g p))
              | none =>
                  match ← g (.select false) with
                  | some p => return some (← withClauses g p)
                  | none => return none

end Tabula
