import Tabula.Text.Casing
import Tabula.Text.Doc
import Tabula.Text.Word

/-!
Names in SQL. A quoted name stands between double quotes, with every double quote inside written
twice. A name may stand bare if it is a plain word and not reserved.
-/

namespace Tabula.Sql

open Text (Doc)

def reservedWords : List String := [
  "all", "analyse", "analyze", "and", "anti", "any", "array", "as", "asc", "asof", "asymmetric",
  "at", "authorization", "binary", "both", "by", "case", "cast", "check", "collate", "collation",
  "column", "columns", "concurrently", "constraint", "create", "cross", "current_catalog",
  "current_date", "current_role", "current_time", "current_timestamp", "current_user", "default",
  "deferrable", "desc", "describe", "distinct", "do", "else", "end", "except", "false", "fetch",
  "for", "foreign", "freeze", "from", "full", "generated", "glob", "grant", "group", "having",
  "ilike", "in", "initially", "inner", "intersect", "into", "is", "isnull", "join", "lambda",
  "lateral", "leading", "left", "like", "limit", "localtime", "localtimestamp", "map", "natural",
  "not", "notnull", "null", "offset", "on", "only", "or", "order", "outer", "overlaps", "pivot",
  "pivot_longer", "pivot_wider", "placing", "positional", "primary", "qualify", "references",
  "returning", "right", "select", "semi", "session_user", "show", "similar", "some", "struct",
  "summarize", "symmetric", "table", "tablesample", "then", "to", "trailing", "true", "try_cast",
  "tuple", "union", "unique", "unpack", "unpivot", "user", "using", "variadic", "verbose", "when",
  "where", "window", "with"]

/-- Word characters to the end, or to a line break that is the end. -/
def allWordChars : List Char → Bool
  | [] => true
  | ['\n'] => true
  | c :: cs => Text.isWord c && allWordChars cs

/-- A letter of the basic alphabet or an underscore, then word characters. -/
def isPlainWord : List Char → Bool
  | [] => false
  | c :: cs => (c.isAlpha || c == '_') && allWordChars cs

/-- Whether a name may stand without quotes. -/
def isBare (name : String) : Bool :=
  isPlainWord name.toList && !reservedWords.contains (Text.lower name)

def quotedName (name : String) : String :=
  String.ofList ('"' :: name.toList.flatMap (fun c => if c = '"' then ['"', '"'] else [c]) ++ ['"'])

/-- A name, quoted always or only where it must be. -/
def nameDoc (quoteAll : Bool) (name : String) : Doc :=
  if quoteAll || !isBare name then .held (quotedName name) else .word name

end Tabula.Sql
