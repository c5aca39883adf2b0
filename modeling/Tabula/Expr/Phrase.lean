import Tabula.Expr.Build
import Tabula.Expr.Function
import Tabula.Number.Reading
import Tabula.Text.Blank
import Tabula.Text.Digit

/-!
Phrases: what expression text says before it is known to be an expression. Parentheses are kept,
names may be qualified, calls name any function, and forms that no expression has stand by their
name. A phrase becomes an expression from left to right, and the first part that cannot be one is
the fault of the whole.
-/

namespace Tabula

/-- A part of a qualified name: what it names, and how it is written. -/
structure WrittenName where
  text : String
  written : String
  deriving DecidableEq, Repr

namespace WrittenName

/-- A name between double quotes, every double quote inside written twice. -/
def inQuotes (s : String) : String :=
  String.ofList ('"' :: s.toList.flatMap (fun c => if c = '"' then ['"', '"'] else [c]) ++ ['"'])

/-- A bare name is written in quotes only if it begins with a digit, of any script. -/
def bare (s : String) : WrittenName :=
  ⟨s, if (s.toList.head?.map Text.isDigit).getD false then inQuotes s else s⟩

def quoted (s : String) : WrittenName := ⟨s, inQuotes s⟩

end WrittenName

/-- A comment as it is written: one blank on each side at least, no comment inside. -/
def writtenComment (text : String) : String :=
  let padded (cs : List Char) : List Char :=
    if (cs.head?.map Text.isBlank).getD true then cs else ' ' :: cs
  let inner := (padded (padded text.toList).reverse).reverse
  "/*" ++ ((String.ofList inner).replace "*/" "* /").replace "/*" "/ *" ++ "*/"

inductive Phrase
  /-- A column, the qualifiers before it and the comments on it. -/
  | path (qualifiers : List WrittenName) (name : WrittenName) (comments : List String)
  | number (text : String)
  | string (text : String)
  | bool (b : Bool)
  | null
  | paren (inner : Phrase)
  | minus (operand : Phrase)
  | not (operand : Phrase)
  | compare (op : CompareOp) (left right : Phrase)
  | arith (op : ArithOp) (left right : Phrase)
  | junction (op : Junction) (left right : Phrase)
  | isNull (operand : Phrase)
  /-- A test by `IS` for something else than a null. -/
  | otherTest
  | call (name : String) (args : List Phrase)
  /-- A conversion, which is a call. -/
  | cast (toDate : Bool)
  /-- A call with a window clause. -/
  | windowed
  /-- A type, with or without parameters. -/
  | type (name : String) (hasParameters : Bool)
  /-- A place for a value, with or without a name. -/
  | placeholder (name : String)
  /-- A form that no expression has. -/
  | form (name : String)

namespace Phrase

/-- A finite double as a literal. -/
def floatLiteral (text : String) (x : Float) : Except SyntaxFault Literal :=
  if h : x.isFinite = true then .ok (.float x h) else .error (.notFinite x text)

/-- The value of a numeral: an integer if it reads as one, else a finite double. -/
def numeral (text : String) (digits : String) : Except SyntaxFault Literal :=
  match Number.readNat? digits.toList with
  | some n => .ok (.int n)
  | none =>
      match Number.readUnsigned? false digits.toList with
      | none => .error (.notANumber digits text)
      | some x => floatLiteral text x

/-- A literal number with its sign changed; any other operand is taken from zero. -/
def negative (text : String) : Expr → Except SyntaxFault Expr
  | .literal (.int n) => .ok (.literal (.int (-n)))
  | .literal (.float x _) => do return .literal (← floatLiteral text (-x))
  | e => .ok (.arith .sub (.literal (.int 0)) e)

/-- A column, unless it is qualified by a name that is not empty. -/
def column (text : String) (qualifiers : List WrittenName) (name : WrittenName)
    (comments : List String) : Except SyntaxFault Expr :=
  match qualifiers.getLast? with
  | none => .ok (.column name.text)
  | some q =>
      if q.text = "" then .ok (.column name.text)
      else
        let path := ".".intercalate ((qualifiers ++ [name]).map (·.written))
        let remarks := (comments.filter (· ≠ "")).map writtenComment
        .error (.qualified (" ".intercalate (path :: remarks)) text)

/-- The function called by a name in capitals. -/
inductive Callee
  | ranking (f : Ranking)
  | scalar (f : ScalarFn)
  | unknown (name : String)

/-- Names are compared in capitals; an unknown one is reported in lower case. -/
def callee (name : String) : Callee :=
  let key := Text.lower (Text.upper name)
  match Ranking.named? key with
  | some f => .ranking f
  | none =>
      match ScalarFn.named? key with
      | some f => .scalar f
      | none => .unknown key

mutual
/-- The expression that a phrase says; `text` is what it was read from. -/
def toExpr (text : String) : Phrase → Except SyntaxFault Expr
  | path qualifiers name comments => column text qualifiers name comments
  | number t => do return .literal (← numeral text t)
  | string s => .ok (.literal (.str s))
  | bool b => .ok (.literal (.bool b))
  | null => .ok (.literal .null)
  | paren p => p.toExpr text
  | minus p => do negative text (← p.toExpr text)
  | not (isNull p) => do return .isNull (← p.toExpr text) true
  | not p => do return .not (← p.toExpr text)
  | compare op l r => do return .compare op (← l.toExpr text) (← r.toExpr text)
  | arith op l r => do return .arith op (← l.toExpr text) (← r.toExpr text)
  | junction op l r => do return .junction op (← l.toExpr text) (← r.toExpr text) []
  | isNull p => do return .isNull (← p.toExpr text) false
  | otherTest => .error (.notNullTest text)
  | cast _ => .error (.unknownFunction "cast" text)
  | windowed => .error (.windowClause text)
  | type _ _ => .error (.form "DataType" text)
  | placeholder _ => .error (.form "Placeholder" text)
  | form name => .error (.form name text)
  | call name args =>
      match callee name with
      | .ranking f => if args.isEmpty then .ok (.ranking f) else .error (.rankingArguments f)
      | .unknown name => .error (.unknownFunction name text)
      | .scalar f => do
          let es ← toExprs text args
          match Expr.call? f es with
          | some e => return e
          | none => throw (.argumentCount f es.length)
def toExprs (text : String) : List Phrase → Except SyntaxFault (List Expr)
  | [] => .ok []
  | p :: ps => do
      let e ← p.toExpr text
      let es ← toExprs text ps
      return e :: es
end

end Phrase

end Tabula
