import Tabula.Expr

/-!
The canonical text of an expression. Comparisons, arithmetic, connectives and null tests are put
between parentheses where they are operands, so the text shows the tree; arguments of functions
stand bare between commas.
-/

namespace Tabula

/-- A text between single quotes, every single quote inside written twice. -/
def quoteString (s : String) : String :=
  let body := s.toList.flatMap fun c => if c = '\'' then ['\'', '\''] else [c]
  String.ofList ('\'' :: body ++ ['\''])

def Literal.text : Literal → String
  | null => "NULL"
  | bool b => if b then "TRUE" else "FALSE"
  | int n => toString n
  | float x _ => Value.floatText x
  | str s => quoteString s

namespace Expr

/-- Whether the expression needs parentheses as an operand. -/
def isCompound : Expr → Bool
  | compare .. | arith .. | not _ | junction .. | isNull .. => true
  | _ => false

def enclose (compound : Bool) (text : String) : String :=
  if compound then "(" ++ text ++ ")" else text

mutual
def text : Expr → String
  | column name => name
  | literal l => l.text
  | ranking f => f.name ++ "()"
  | compare op l r => enclose l.isCompound l.text ++ " " ++ op.symbol ++ " " ++
      enclose r.isCompound r.text
  | arith op l r => enclose l.isCompound l.text ++ " " ++ op.symbol ++ " " ++
      enclose r.isCompound r.text
  | not e => "NOT " ++ enclose e.isCompound e.text
  | junction op a b rest => enclose a.isCompound a.text ++ " " ++ op.symbol ++ " " ++
      enclose b.isCompound b.text ++ joinedText op rest
  | isNull e negated =>
      enclose e.isCompound e.text ++ (if negated then " IS NOT NULL" else " IS NULL")
  | unary f e => f.name ++ "(" ++ e.text ++ ")"
  | round e => "round(" ++ e.text ++ ")"
  | roundTo e p => "round(" ++ e.text ++ ", " ++ p.text ++ ")"
  | coalesce a rest => "coalesce(" ++ a.text ++ listedText rest ++ ")"
/-- Further operands of a connective, each after the connective. -/
def joinedText (op : Junction) : List Expr → String
  | [] => ""
  | e :: es => " " ++ op.symbol ++ " " ++ enclose e.isCompound e.text ++ joinedText op es
/-- Further arguments, each after a comma. -/
def listedText : List Expr → String
  | [] => ""
  | e :: es => ", " ++ e.text ++ listedText es
end

end Expr

end Tabula
