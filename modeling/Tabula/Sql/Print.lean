import Tabula.Sql.Lower
import Tabula.Sql.Name

/-!
The text of SQL statements, on one line or laid out. Every keyword is written in capitals, every
ordering with its direction, and a test for inequality as `<>`.
-/

namespace Tabula.Sql

open Text (Doc)

/-- How statements are written. -/
structure Style where
  dialect : Dialect
  quoteNames : Bool
  laidOut : Bool
  deriving DecidableEq, Repr

/-- A negated double is written as the decimal of its magnitude: positional from five zeros after
the point. -/
def magnitudeLayout : Number.Layout := ⟨-5, 16, true, "E", 1⟩

/-- A whole number of more digits than are written positionally otherwise keeps them all. -/
def magnitudeText (d : Number.Decimal) : String :=
  if d.exponent = 0 ∧ magnitudeLayout.greatest < d.point then toString d.digits
  else magnitudeLayout.text d

def doubleText (x : Float) : String :=
  match Number.Parts.of x with
  | .finite true m e => "-" ++ magnitudeText (Number.shortest m e)
  | _ => Value.floatText x

def compareSymbol : CompareOp → String
  | .ne => "<>"
  | op => op.symbol

def functionName (name : String) : String := name.map Char.toUpper

def callDoc (name : String) (args : List Doc) : Doc :=
  .word (name ++ "(") ++ .fitted "," args ++ .word ")"

mutual
def Scalar.doc (quoteNames : Bool) : Scalar → Doc
  | .column name => nameDoc quoteNames name
  | .null => .word "NULL"
  | .bool b => .word (if b then "TRUE" else "FALSE")
  | .integer n => .word (toString n)
  | .double x => .word ("CAST(" ++ doubleText x ++ " AS DOUBLE)")
  | .string s => .held (quoteString s)
  | .paren e => .word "(" ++ (e.doc quoteNames).block ++ .word ")"
  | .compare op l r =>
      l.doc quoteNames ++ .word (" " ++ compareSymbol op ++ " ") ++ r.doc quoteNames
  | .arith op l r => l.doc quoteNames ++ .word (" " ++ op.symbol ++ " ") ++ r.doc quoteNames
  | .nullIf e zero => callDoc "NULLIF" [e.doc quoteNames, zero.doc quoteNames]
  | .junction op l r =>
      .chain ((l.doc quoteNames).links ++ [.word (op.symbol ++ " ") ++ r.doc quoteNames])
  | .not e => .word "NOT " ++ e.doc quoteNames
  | .isNull e => e.doc quoteNames ++ .word " IS NULL"
  | .call f args => callDoc (functionName f.name) (Scalar.docs quoteNames args)
def Scalar.docs (quoteNames : Bool) : List Scalar → List Doc
  | [] => []
  | e :: es => e.doc quoteNames :: Scalar.docs quoteNames es
end

def orderDoc (quoteNames : Bool) (t : OrderTerm) : Doc :=
  nameDoc quoteNames t.column ++ .word (" " ++ t.direction)

def commaSeparated : List Doc → Doc
  | [] => .word ""
  | [d] => d
  | d :: ds => d ++ .word ", " ++ commaSeparated ds

def windowDoc (quoteNames : Bool) (w : Window) : Doc :=
  let partitions :=
    if w.partitionBy.isEmpty then []
    else [.word "PARTITION BY " ++ commaSeparated (w.partitionBy.map (nameDoc quoteNames))]
  let orders :=
    if w.orderBy.isEmpty then []
    else [.word "ORDER BY " ++ commaSeparated (w.orderBy.map (orderDoc quoteNames))]
  .word "(" ++ .fitted "" (partitions ++ orders) ++ .word ")"

def Selected.doc (quoteNames : Bool) : Selected → Doc
  | .scalar e => e.doc quoteNames
  | .ranking f w => .word (functionName f.name ++ "() OVER ") ++ windowDoc quoteNames w

def Item.doc (quoteNames : Bool) : Item → Doc
  | .column name => nameDoc quoteNames name
  | .named value name => value.doc quoteNames ++ .word " AS " ++ nameDoc quoteNames name

/-- A clause on a line of its own, with its body under it. -/
def clauseDoc (keyword : String) (body : Doc) : Doc := .space ++ .word keyword ++ body.under

def Query.doc (quoteNames : Bool) : Query → Doc
  | .table columns name =>
      .word "SELECT" ++ (Doc.listed (columns.map (nameDoc quoteNames))).under ++ .space ++
        .word "FROM " ++ nameDoc quoteNames name
  | .nested items inner name condition order =>
      .word "SELECT" ++ (Doc.listed (items.map (Item.doc quoteNames))).under ++ .space ++
        .word "FROM (" ++ (inner.doc quoteNames).block ++
        .word ") AS " ++ nameDoc quoteNames name ++
        (match condition with
          | none => .word ""
          | some c => clauseDoc "WHERE" (c.doc quoteNames)) ++
        (if order.isEmpty then .word ""
          else clauseDoc "ORDER BY" (.listed (order.map (orderDoc quoteNames))))

def Statement.doc (quoteNames : Bool) : Statement → Doc
  | .select q => q.doc quoteNames
  | .createTable name temporary q =>
      .word (if temporary then "CREATE TEMPORARY TABLE " else "CREATE TABLE ") ++
        nameDoc quoteNames name ++ .word " AS" ++ .space ++ q.doc quoteNames

def Scalar.text (s : Style) (e : Scalar) : String := (e.doc s.quoteNames).render s.laidOut

def Statement.text (s : Style) (t : Statement) : String := (t.doc s.quoteNames).render s.laidOut

end Tabula.Sql

namespace Tabula

/-- The text of an expression in the style, for the node at `position`. -/
def Expr.compile (e : Expr) (s : Sql.Style) (position : Option Int) : Result String :=
  match Sql.Scalar.ofExpr s.dialect e with
  | .ok scalar => .ok (scalar.text s)
  | .error cause => .error (.compile cause position)

/-- The statement text of a plan in the style. -/
def Plan.compile (p : Plan) (s : Sql.Style) : Result String := do
  return (← p.statement s.dialect).text s

end Tabula
