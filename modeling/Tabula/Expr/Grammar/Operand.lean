import Tabula.Expr.Grammar.Query
import Tabula.Expr.Grammar.Type

/-!
Operands: literals, names, calls, parentheses, lists and rows in brackets, intervals, and values of
types; and what may follow an operand: points, conversions, look-ups and brackets.
-/

namespace Tabula

open Reader

/-- Texts that follow a text, at most `bound`. -/
def moreStrings : Nat → Reader Nat
  | 0 => return 0
  | bound + 1 => do
      match ← peek with
      | some ⟨.string _, _⟩ =>
          skip
          return (← moreStrings bound) + 1
      | _ => return 0

/-- What a star leaves out or changes. -/
def starPart (g : Grammar) (ks : List String) : Reader Unit := do
  if ← oneOf ks then
    if ← atMark "(" then
      let _ ← inParens (separated (g .expression))
    else
      let _ ← aliasOf g true (← g .assignment)

/-- Something in parentheses: a query, a tuple, or one expression. -/
def parenthesized (g : Grammar) : Reader Phrase := do
  let (items, afterComma) ←
    match ← g (.select false) with
    | some p => pure ([p], false)
    | none => listed (g .expression)
  match items with
  | [p] =>
      if p.isSubquery || p.isValues then
        let _ ← withClauses g (← setOperations g p)
      expect (mark ")")
      if p.isQuery then return .form "Subquery"
      else if afterComma then return .form "Tuple"
      else if p.isGroupCall then afterCall g (.paren p)
      else return .paren p
  | _ =>
      expect (mark ")")
      return .form "Tuple"

/-- A literal, a column by its number, a star, or something in parentheses. -/
def primary (g : Grammar) : Reader (Option Phrase) := do
  match ← peek with
  | some ⟨.string s, _⟩ =>
      skip
      let more ← moreStrings (← get).length
      return some (if more = 0 then .string s else .call "concat" [])
  | some ⟨.number n, _⟩ => skip; return some (.number n)
  | some ⟨.literal form, _⟩ => skip; return some (.form form)
  | some ⟨.mark ".", _⟩ =>
      match ← peekSecond with
      | some ⟨.number n, _⟩ =>
          skip
          skip
          return some (.number ("0." ++ n))
      | _ => return none
  | some ⟨.mark "#", _⟩ =>
      match ← peekSecond with
      | some ⟨.number _, _⟩ =>
          skip
          skip
          return some (.form "PositionalColumn")
      | _ => return none
  | some ⟨.mark "*", _⟩ =>
      skip
      if (← key) = "COLUMNS" && (← secondAtMark "(") then call g false
      else
        starPart g ["EXCEPT", "EXCLUDE"]
        starPart g ["REPLACE"]
        starPart g ["RENAME"]
        return some (.form "Star")
  | some ⟨.mark "(", _⟩ =>
      skip
      return some (← parenthesized g)
  | some ⟨.word _, _⟩ =>
      if ← word "NULL" then return some .null
      else if ← word "TRUE" then return some (.bool true)
      else if ← word "FALSE" then return some (.bool false)
      else return none
  | _ => return none

/-- What stands after a point. -/
def member (g : Grammar) : Reader (Option Phrase) :=
  either (call g true) (either (primary g) (nameOf true))

/-- A literal, a call or a name. -/
def field (g : Grammar) : Reader (Option Phrase) :=
  either (primary g) (either (call g false) (nameOf false))

/-- The word for rows written out is a name if no parenthesis follows. -/
def reference (g : Grammar) : Reader (Option Phrase) := do
  match ← field g with
  | some p => return some p
  | none =>
      if (← key) = "VALUES" && !(← secondAtMark "(") then nameOf true else return none

/-- A range of places, in brackets. -/
def slice (g : Grammar) : Reader Bool := do
  if ← mark ":" then
    if (← atMark "-") && (← secondAtMark ":") then skip
    else
      let _ ← g .assignment
    if ← mark ":" then
      let _ ← g .signed
    return true
  else return false

/-- An item in brackets: an expression, a range, or a key with a value. -/
def bracketItem (g : Grammar) (keyed : Bool) : Reader (Option Phrase) := do
  let p ← aliasOf g true (← g .assignment)
  if keyed then
    if ← mark ":" then
      let _ ← need (g .assignment)
      return some (.form "Slice")
    else return p
  else if ← slice g then return some (.form "Slice")
  else return p

/-- The name that says what brackets after a phrase make, in capitals. -/
def Phrase.constructorName : Phrase → String
  | path _ n _ => Text.upper n.text
  | string s => Text.upper s
  | _ => ""

/-- Letters that mark a time in braces, with what they make. -/
def timeMarks : List (String × String) := [("D", "date"), ("T", "time"), ("TS", "timestamp")]

/-- A row, or a time, after an opening brace. -/
def braced (g : Grammar) : Reader Phrase := do
  match timeMarks.lookup (← key) with
  | some name =>
      skip
      match ← peek with
      | some ⟨.string _, _⟩ => skip
      | _ => pure ()
      expect (mark "\x7d")
      return .call name []
  | none =>
      let _ ← separated (bracketItem g true)
      expect (mark "\x7d")
      return .call "struct" []

/-- Brackets after `left`, or brackets that make a list; braces make a row. -/
def bracketed (g : Grammar) (left : Option Phrase) : Reader (Option Phrase) := do
  if ← mark "\x7b" then return some (← braced g)
  else if ← mark "[" then
    let items ← separated (bracketItem g false)
    expect (mark "]")
    match left with
    | none => return some (.call "array" [])
    | some p =>
        match p.constructorName with
        | "ARRAY" => return some (.call "array" [])
        | "LIST" => return some (.call "list" [])
        | _ => if items.isEmpty then failure else return some (.form "Bracket")
  else return none

/-- Brackets after brackets. -/
def brackets (g : Grammar) (p : Phrase) : Reader Phrase := goOn (fun p => bracketed g (some p)) p

/-- A part of a qualified name, as it is written. -/
def Phrase.written : Phrase → WrittenName
  | path _ n _ => n
  | number t => ⟨t, t⟩
  | string s =>
      ⟨s, String.ofList ('\'' :: s.toList.flatMap (fun c => if c = '\'' then [c, c] else [c]) ++
        ['\''])⟩
  | null => ⟨"NULL", "NULL"⟩
  | bool b => ⟨"", if b then "TRUE" else "FALSE"⟩
  | paren p => ⟨"", "(" ++ p.written.written ++ ")"⟩
  | form "Star" => ⟨"*", "*"⟩
  | placeholder "" => ⟨"", "?"⟩
  | placeholder name => ⟨"", ":" ++ name⟩
  | _ => ⟨"", ""⟩

/-- A member of what stands before a point. A column takes up to three qualifiers. -/
def Phrase.dotted (left member : Phrase) (comments : List String) : Phrase :=
  match left, member with
  | _, windowed => windowed
  | _, call .. | _, cast _ => form "Dot"
  | path qualifiers name before, member =>
      if qualifiers.length < 3 then path (qualifiers ++ [name]) member.written (before ++ comments)
      else form "Dot"
  | _, _ => form "Dot"

/-- Look-ups by a path or a key. -/
def lookUps : List (String × String) :=
  [("->", "json_extract"), ("->>", "json_extract_scalar"), ("#>", "jsonb_extract"),
    ("#>>", "jsonb_extract_scalar"), ("?", "j_s_o_n_b_contains_top_key")]

/-- A point, a conversion or a look-up after an operand. -/
def suffixStep (g : Grammar) (left : Phrase) : Reader (Option Phrase) := do
  match ← peek with
  | some ⟨.mark m, _⟩ =>
      if m = "." then
        skip
        let comments := ((← peek).map Lexeme.comments).getD []
        let p ← need (member g)
        return some (← brackets g (left.dotted p comments))
      else if m = "::" then
        skip
        let p ← need (g (.type false))
        let name := match p with
          | .type name _ => name
          | _ => ""
        return some (← brackets g (.cast (name = "DATE")))
      else
        match lookUps.lookup m with
        | some name =>
            skip
            match ← reference g with
            | some p =>
                if ← atMark "." then
                  let _ ← need (member g)
                return some (← brackets g (.call name [left, p]))
            | none =>
                let p ← need (g .bits)
                return some (← brackets g (.call name [left, p]))
        | none => return none
  | _ => return none

/-- What may follow an operand. -/
def suffixes (g : Grammar) (p : Phrase) : Reader Phrase := do
  goOn (suffixStep g) (← brackets g p)

def columnRule (g : Grammar) : Reader (Option Phrase) := do
  match ← reference g with
  | some p => return some (← suffixes g p)
  | none =>
      match ← bracketed g none with
      | some p => return some (← brackets g p)
      | none => return none

/-- A column or brackets, and what may follow them. -/
def operand (g : Grammar) : Reader (Option Phrase) := do
  match ← columnRule g with
  | some p => return some (← suffixes g p)
  | none => return none

/-- Words for spans of time. -/
def timeUnits : List String :=
  ["Y", "YY", "YYY", "YYYY", "YR", "YEARS", "YRS", "YEAR", "MM", "MON", "MONS", "MONTHS",
    "MONTH", "D", "DD", "DAYS", "DAYOFMONTH", "DAY", "DAYOFWEEK", "WEEKDAY", "DOW", "DW",
    "WEEKDAY_ISO", "DOW_ISO", "DW_ISO", "DAYOFWEEKISO", "DAYOFWEEK_ISO", "DOY", "DY",
    "DAYOFYEAR", "W", "WK", "WEEKOFYEAR", "WOY", "WY", "WEEK", "WEEK_ISO", "WEEKOFYEARISO",
    "WEEKOFYEAR_ISO", "WEEKISO", "Q", "QTR", "QTRS", "QUARTERS", "QUARTER", "H", "HH", "HR",
    "HOURS", "HRS", "HOUR", "M", "MI", "MIN", "MINUTES", "MINS", "MINUTE", "S", "SEC", "SECONDS",
    "SECS", "SECOND", "MS", "MSEC", "MSECS", "MSECOND", "MSECONDS", "MILLISEC", "MILLISECS",
    "MILLISECON", "MILLISECONDS", "MILLISECOND", "US", "USEC", "USECS", "MICROSEC", "MICROSECS",
    "USECOND", "USECONDS", "MICROSECONDS", "MICROSECOND", "NS", "NSEC", "NANOSEC", "NSECOND",
    "NSECONDS", "NANOSECS", "NANOSECOND", "EPOCH", "EPOCH_SECOND", "EPOCH_SECONDS",
    "EPOCH_MILLISECOND", "EPOCH_MILLISECONDS", "EPOCH_MICROSECOND", "EPOCH_MICROSECONDS",
    "EPOCH_NANOSECOND", "EPOCH_NANOSECONDS", "TZH", "TIMEZONE_HOUR", "TZM", "TIMEZONE_MINUTE",
    "DEC", "DECS", "DECADES", "DECADE", "MIL", "MILS", "MILLENIA", "MILLENNIUM", "C", "CENT",
    "CENTS", "CENTURIES", "CENTURY"]

/-- Whether a text holds a number with a unit after it. -/
def namesUnit : List Char → Bool
  | [] => false
  | c :: cs =>
      c.isDigit && ((cs.dropWhile Text.isBlank).head?.map Char.isAlpha).getD false || namesUnit cs

/-- The amount and the unit of a span of time. A name is an amount only if a unit follows. -/
def span (g : Grammar) : Reader Bool := do
  let start ← get
  let isText := ((← peek).map fun l =>
    match l.token with
    | .string _ => true
    | _ => false).getD false
  let amount ← if isText then primary g else g .sum
  let next ← peek
  let isName := match amount with
    | none => true
    | some (.path [] n _) =>
        n.text = n.written && (next.map fun (l : Lexeme) => !timeUnits.contains l.key).getD false
    | some _ => false
  if isName then
    set start
    return false
  else
    let hasUnit := match amount with
      | some (.string s) => namesUnit s.toList
      | _ => false
    if !hasUnit && (← key) ≠ "AS" then
      match ← call g false with
      | some _ => pure ()
      | none =>
          if ((← peek).map fun (l : Lexeme) => l.token.mustName).getD false then skip
    if ← word "TO" then skip
    return true

/-- Spans of time in a row, with or without a plus between them; a number or a text begins the next
one. -/
def spans (g : Grammar) : Nat → Reader Bool
  | 0 => return false
  | bound + 1 => do
      if ← span g then
        let after ← get
        let _ ← mark "+"
        match (← peek).map Lexeme.token with
        | some (.string _) | some (.number _) =>
            if ← spans g bound then return true else failure
        | _ =>
            set after
            return true
      else return false

/-- A span of time; the word for it is a name if no amount follows. -/
def interval (g : Grammar) : Reader (Option Phrase) := do
  let start ← get
  if ← word "INTERVAL" then
    if ← spans g (← get).length then return some (.form "Interval")
    else
      set start
      return none
  else return none

/-- A value of a type, or a column. -/
def typed (g : Grammar) : Reader (Option Phrase) := do
  match ← interval g with
  | some p => return some (← suffixes g p)
  | none =>
      let start ← get
      match ← g (.type true) with
      | some (.type name hasParameters) =>
          let after ← get
          match ← primary g with
          | some (.number n) =>
              let _ ← suffixes g (.number n)
              return some (if name = "JSON" then .call "parse_json" [] else .cast (name = "DATE"))
          | some (.string s) =>
              let _ ← suffixes g (.string s)
              return some (if name = "JSON" then .call "parse_json" [] else .cast (name = "DATE"))
          | _ =>
              if hasParameters then
                set after
                return some (← suffixes g (.type name hasParameters))
              else
                set start
                operand g
      | some p => return some (← suffixes g p)
      | none => operand g

end Tabula
