import Tabula.Expr.Grammar.Call

/-!
Queries, which no expression is. They are read so that a text which is a query is told from a text
that is not in the grammar.
-/

namespace Tabula

open Reader

def queryForms : List String := ["Select", "Union", "Except", "Intersect", "Subquery", "Values"]

/-- Whether clauses of a query may follow. -/
def Phrase.isQuery : Phrase → Bool
  | form name => queryForms.contains name
  | _ => false

def Phrase.isSubquery : Phrase → Bool
  | form name => name = "Subquery"
  | _ => false

def Phrase.isValues : Phrase → Bool
  | form name => name = "Values"
  | _ => false

/-- Words that begin a join and are no aliases of a table. -/
def joinWords : List String :=
  ["ANTI", "ASOF", "FULL", "LEFT", "LOCK", "NATURAL", "POSITIONAL", "RIGHT", "SEMI", "WINDOW"]

/-- An alias of a table, perhaps with names of its columns. -/
def tableAlias (g : Grammar) : Reader (Option Phrase) := do
  if ← beginsLimit g then return none
  let must ← word "AS"
  let name ← nameIf fun t =>
    t.mayName && !joinWords.contains t.key || must && t.mustName
  let isCalled := name.isSome
  if ← provided isCalled (mark "(") then
    let _ ← separated (nameOf true)
    expect (mark ")")
  return name

/-- The names of a table with points between them, or a call. -/
def tableName (call : Reader (Option Phrase)) : Reader (Option Phrase) := do
  match ← either call (nameOf false) with
  | some _ =>
      let rec parts : Nat → Reader Unit
        | 0 => return ()
        | bound + 1 => do
            if ← mark "." then
              if !(← mark "*") then
                let _ ← need (either call (nameOf true))
              parts bound
      parts (← get).length
      return some (.form "Table")
  | none =>
      match ← peek with
      | some ⟨.string _, _⟩ =>
          skip
          return some (.form "Table")
      | _ => return none

/-- Rows written out. -/
def values (g : Grammar) : Reader (Option Phrase) := do
  if ← word "VALUES" then
    let rows ← separated do
      if ← mark "(" then
        let items ← separated (g .expression)
        expect (mark ")")
        return some items
      else return (← g .expression).map fun p => [p]
    if rows.isEmpty then failure
    let _ ← tableAlias g
    return some (.form "Values")
  else return none

/-- A join and its table, or a comma and a table. -/
def join (g : Grammar) : Reader (Option Unit) := do
  let start ← get
  if ← mark "," then
    let _ ← need (g .table)
    return some ()
  else
    let _ ← word "NATURAL"
    let _ ← oneOf ["ASOF", "POSITIONAL"]
    let _ ← oneOf ["LEFT", "RIGHT", "FULL"]
    let _ ← oneOf ["INNER", "OUTER", "CROSS", "SEMI", "ANTI"]
    if ← word "JOIN" then
      let _ ← need (g .table)
      if ← word "ON" then
        let _ ← need (g .disjunction)
      else if ← word "USING" then
        let _ ← inParens (separated (nameOf true))
      return some ()
    else
      set start
      return none

/-- A table of a query, or rows, or a query in its place. -/
def tableRule (g : Grammar) (call : Reader (Option Phrase)) : Reader (Option Phrase) := do
  let aliased ← secondAtMark ":"
  if aliased then
    let _ ← need (nameOf true)
    expect (mark ":")
  let _ ← word "LATERAL"
  let _ ← word "ONLY"
  match ← values g with
  | some p => return some p
  | none =>
      if ← mark "(" then
        let _ ← need (either (g (.select true)) (g .table))
        let _ ← goOn (fun p => do return (← join g).map fun _ => p) (.form "Table")
        expect (mark ")")
      else
        let _ ← need (tableName call)
      let _ ← tableAlias g
      if ← word "TABLESAMPLE" then
        let _ ← inParens (g .sum)
      return some (.form "Table")

/-- The tables of a query, if it names any. -/
def tables (g : Grammar) : Reader Bool := do
  if ← word "FROM" then
    let _ ← need (g .table)
    let _ ← goOn (fun p => do return (← join g).map fun _ => p) (.form "Table")
    return true
  else return false

/-- A clause that may follow a query. -/
def clause (g : Grammar) : Reader (Option Unit) := do
  if ← oneOf ["WHERE", "HAVING", "QUALIFY"] then
    let _ ← need (g .disjunction)
    return some ()
  else if ← word "GROUP BY" then
    let _ ← separated (g .disjunction)
    return some ()
  else if ← word "WINDOW" then
    let _ ← separated do
      match ← nameOf false with
      | none => return none
      | some p =>
          expect (word "AS")
          inParens (windowClause g)
          return some p
    return some ()
  else if ← ordering g then return some ()
  else if ← limit g then return some ()
  else if ← word "OFFSET" then
    let _ ← need (g .sum)
    let _ ← oneOf ["ROW", "ROWS"]
    return some ()
  else join g

/-- A query with its clauses; other phrases have none. -/
def withClauses (g : Grammar) (p : Phrase) : Reader Phrase := do
  if p.isQuery then goOn (fun p => do return (← clause g).map fun _ => p) p
  else return p

/-- The word that joins two queries, by the name of the form. -/
def setWord : Reader (Option String) := do
  if ← word "UNION" then return some "Union"
  else if ← word "EXCEPT" then return some "Except"
  else if ← word "INTERSECT" then return some "Intersect"
  else return none

/-- Two queries as one. -/
def setOperation (g : Grammar) (_ : Phrase) : Reader (Option Phrase) := do
  match ← setWord with
  | none => return none
  | some name =>
      if !(← word "ALL") then
        let _ ← word "DISTINCT"
      let _ ← words ["BY", "NAME"]
      let _ ← need (g (.select true))
      return some (.form name)

def setOperations (g : Grammar) (p : Phrase) : Reader Phrase := goOn (setOperation g) p

/-- A query with a name, before the query that uses it. -/
def namedQuery (g : Grammar) : Reader (Option Phrase) := do
  let name ← need (nameOf false)
  if ← mark "(" then
    let _ ← separated (nameOf true)
    expect (mark ")")
  expect (word "AS")
  if !(← words ["NOT", "MATERIALIZED"]) then
    let _ ← word "MATERIALIZED"
  let _ ← inParens (need (g .statement))
  return some name

/-- Statements that queries with names may come before. -/
def namingForms : List String :=
  ["Select", "Union", "Except", "Intersect", "Subquery", "Insert", "Update", "Delete", "Merge",
    "Create"]

/-- The part of a query from its word on. -/
def selection (g : Grammar) : Reader Phrase := do
  if (← secondAtMark ".") then pure ()
  else if ← word "ALL" then pure ()
  else if ← word "DISTINCT" then
    if ← word "ON" then
      let _ ← inParens (separated (g .expression))
  let _ ← separated (g .expression)
  if ← word "INTO" then
    let _ ← oneOf ["TEMPORARY", "TEMP", "UNLOGGED"]
    let _ ← word "TABLE"
    let _ ← need (g .table)
  let _ ← tables g
  withClauses g (.form "Select")

/-- Kinds of things that can be created. -/
def creatableWords : List String :=
  ["COLUMN", "CONSTRAINT", "DATABASE", "FOREIGN KEY", "FUNCTION", "INDEX", "MACRO", "NAMESPACE",
    "PROCEDURE", "SCHEMA", "SEQUENCE", "TABLE", "VIEW"]

/-- What a description is asked of, after the word for it. -/
def describeOf (g : Grammar) : Reader Phrase := do
  let _ ← oneOf creatableWords
  let _ ← need (either (g (.select false)) (g .table))
  return .form "Describe"

/-- A query; `nested` allows one in parentheses. -/
def selectRule (g : Grammar) (nested : Bool) : Reader (Option Phrase) := do
  if ← word "WITH" then
    let _ ← word "RECURSIVE"
    let _ ← separated (namedQuery g)
    match ← g .statement with
    | some (.form name) =>
        if namingForms.contains name then return some (.form name) else failure
    | _ => failure
  else
    let isFromFirst ← tables g
    if ← word "SELECT" then return some (← setOperations g (← selection g))
    else if isFromFirst then
      return some (← setOperations g (← withClauses g (.form "Select")))
    else if ← provided nested (mark "(") then
      let p ← need (g (.select true))
      let _ ← withClauses g (← setOperations g p)
      expect (mark ")")
      return some (.form "Subquery")
    else if (← key) = "VALUES" then
      match ← values g with
      | some p => return some (← setOperations g p)
      | none => return none
    else if ← word "SUMMARIZE" then
      let _ ← word "TABLE"
      let _ ← need (either (g (.select false)) (g .table))
      return some (.form "Summarize")
    else if ← word "DESCRIBE" then return some (← describeOf g)
    else return none

end Tabula
