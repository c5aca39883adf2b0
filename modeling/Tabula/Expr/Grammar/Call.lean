import Tabula.Expr.Grammar.Name

/-!
Calls: functions with arguments in parentheses, functions that are called without any, functions
whose arguments are not divided by commas, and what may follow a call: filters and windows.
-/

namespace Tabula

open Reader

namespace Phrase

/-- Whether the phrase says which nulls count. -/
def choosesNulls : Phrase → Bool
  | form name => name = "IgnoreNulls" || name = "RespectNulls"
  | _ => false

/-- A call of a function of groups. -/
def isGroupCall : Phrase → Bool
  | call name _ => groupFunctions.contains (Text.upper name)
  | _ => false

/-- A call of a group function, which takes over what an argument says about nulls. -/
def hoistNulls : Phrase → Phrase
  | call name args =>
      if (call name args).isGroupCall then ((args.find? choosesNulls).getD (call name args))
      else call name args
  | p => p

/-- Whether a phrase converts to a date. -/
def isDate : Phrase → Bool
  | cast toDate => toDate
  | _ => false

/-- Whether a phrase is written in hexadecimal. -/
def isHex : Phrase → Bool
  | call name _ => name = "HEX"
  | _ => false

end Phrase

/-- The words that say which nulls count, by the name of the form. -/
def nullWords : Reader (Option String) := do
  if ← words ["IGNORE", "NULLS"] then return some "IgnoreNulls"
  else if ← words ["RESPECT", "NULLS"] then return some "RespectNulls"
  else return none

/-- Which nulls count, after an argument or a call. -/
def nullChoice (p : Option Phrase) : Reader (Option Phrase) := do
  match ← nullWords, p with
  | none, p => return p
  | some name, some _ => return some (.form name)
  | some _, none => failure

/-- A term of an ordering. -/
def orderTerm (g : Grammar) : Reader (Option Phrase) := do
  match ← g .disjunction with
  | none => return none
  | some p =>
      let _ ← oneOf ["ASC", "DESC"]
      if !(← words ["NULLS", "FIRST"]) then
        let _ ← words ["NULLS", "LAST"]
      return some p

/-- An ordering, if one comes next. -/
def ordering (g : Grammar) : Reader Bool := do
  if ← word "ORDER BY" then
    let terms ← separated (orderTerm g)
    if terms.isEmpty then failure else return true
  else return false

/-- A limit on the number of rows, if one comes next, by the name of its form. -/
def limitForm (g : Grammar) : Reader (Option String) := do
  if ← word "LIMIT" then
    let _ ← need (g .sum)
    if ← mark "," then
      let _ ← need (g .sum)
    return some "Limit"
  else if ← word "FETCH" then
    let _ ← oneOf ["FIRST", "NEXT"]
    let _ ← g .sum
    let _ ← word "PERCENT"
    let _ ← oneOf ["ROW", "ROWS"]
    let _ ← word "ONLY"
    let _ ← words ["WITH", "TIES"]
    return some "Fetch"
  else return none

def limit (g : Grammar) : Reader Bool := do return (← limitForm g).isSome

/-- Parameters of a function that is given as an argument. -/
def parameters : Reader (List Phrase) := do
  let start ← get
  if ← mark "(" then
    let names ← separated (nameOf true)
    if ← mark ")" then return names
    else
      set start
      return []
  else return (← nameOf true).toList

/-- An argument given by its name, or a function. -/
def abstraction (g : Grammar) : Reader (Option Phrase) := do
  let start ← get
  let _ ← parameters
  if ← mark "->" then
    let _ ← need (g .assignment)
    return some (.form "Lambda")
  else if ← mark "=>" then
    let _ ← need (g .assignment)
    return some (.form "Kwarg")
  else
    set start
    return none

/-- A function that begins with the word for one. -/
def lambda (g : Grammar) : Reader (Option Phrase) := do
  let start ← get
  if ← word "LAMBDA" then
    let _ ← separated (nameOf true)
    if ← mark ":" then
      let _ ← need (g .assignment)
      return some (.form "Lambda")
    else
      set start
      return none
  else return none

/-- An argument without a name: a query, distinct values, or an expression. -/
def plainArgument (g : Grammar) (named : Bool) : Reader (Option Phrase) := do
  if ← word "DISTINCT" then
    let _ ← separated (g .disjunction)
    return some (.form "Distinct")
  else
    match ← g (.select false) with
    | some p => return some p
    | none =>
        let p ← g .assignment
        if named then aliasOf g true p else return p

/-- An argument of a call, with what may follow it. -/
def argumentRule (g : Grammar) (named : Bool) : Reader (Option Phrase) := do
  if (← key) = "LAMBDA" then
    match ← lambda g with
    | some p => return some p
    | none => return none
  else
    match ← abstraction g with
    | some p => return some p
    | none =>
        let p ← nullChoice (← plainArgument g named)
        let p ←
          if ← word "HAVING" then
            let _ ← oneOf ["MAX", "MIN"]
            let _ ← need (g .column)
            pure (some (.form "HavingMax"))
          else pure p
        let p ← nullChoice p
        let p := if ← ordering g then some (.form "Order") else p
        match ← limitForm g with
        | some name => return some (.form name)
        | none => return p

/-- A bound of a window's frame. -/
def frameBound (g : Grammar) : Reader Unit := do
  let _ ← word "BETWEEN"
  if ← word "UNBOUNDED" then pure ()
  else if ← words ["CURRENT", "ROW"] then pure ()
  else
    let _ ← g .bits
  let _ ← oneOf ["FOLLOWING", "PRECEDING"]

/-- The inside of a window clause. -/
def windowClause (g : Grammar) : Reader Unit := do
  let k ← key
  if k ≠ "RANGE" && k ≠ "ROWS" then
    let _ ← nameOf false
  let _ ← oneOf ["FIRST", "LAST"]
  if ← word "PARTITION BY" then
    let _ ← separated (g .disjunction)
  let _ ← ordering g
  if ← oneOf ["ROWS", "RANGE"] then
    let _ ← word "BETWEEN"
    frameBound g
    if ← word "AND" then frameBound g

/-- A window after a call. -/
def windowed (g : Grammar) (_ : Phrase) : Reader (Option Phrase) := do
  if ← word "OVER" then
    if ← mark "(" then
      windowClause g
      expect (mark ")")
    else
      let _ ← nameOf false
    return some .windowed
  else return none

/-- What may follow a call. -/
def afterCall (g : Grammar) (p : Phrase) : Reader Phrase := do
  let p ←
    if ← words ["WITHIN", "GROUP"] then
      inParens (expect (ordering g))
      pure (.form "WithinGroup")
    else pure p
  let p ←
    if (← key) = "FILTER" && (← secondAtMark "(") then
      skip
      inParens do
        let _ ← word "WHERE"
        let _ ← need (g .disjunction)
      pure (.form "Filter")
    else pure p.hoistNulls
  match ← nullChoice (some p) with
  | some p => goOn (windowed g) p
  | none => return p

/-- The branches of a case expression, at most `bound`. -/
def caseBranches (g : Grammar) : Nat → Reader Nat
  | 0 => return 0
  | bound + 1 => do
      if ← word "WHEN" then
        let _ ← need (g .disjunction)
        let _ ← word "THEN"
        let _ ← need (g .disjunction)
        return (← caseBranches g bound) + 1
      else return 0

/-- What holds in no branch, and the end. The word for a span of time before the end is a name. -/
def caseEnd (g : Grammar) : Reader Unit := do
  if ← word "ELSE" then
    let start ← get
    let _ ← need (g .disjunction)
    let rest ← get
    if !(← word "END") then
      let taken := (start.take (start.length - rest.length)).map Lexeme.key
      if taken ≠ ["INTERVAL", "END"] then failure
  else expect (word "END")

/-- A case expression after its first word, unless that is a name with a point after it. -/
def caseOf (g : Grammar) : Reader (Option Phrase) := do
  if ← atMark "." then return none
  else
    let _ ← g .disjunction
    let branches ← caseBranches g (← get).length
    caseEnd g
    if branches = 0 then failure else return some (.call "case" [])

/-- A call of a known function with arguments. -/
def Phrase.called? (key : String) (args : List Phrase) : Option Phrase :=
  let second := (args.drop 1).head?
  match key with
  | "ANY_VALUE" => some (.form "IgnoreNulls")
  | "MOD" => second.map fun _ => .form "Mod"
  | "XOR" => second.map fun _ => .form "BitwiseXor"
  | "MAKE_TIMESTAMP" =>
      some (.call (if args.length = 1 then "UNIX_TO_TIME" else "TIMESTAMP_FROM_PARTS") args)
  | "LIKE" => second.map fun _ => .form (if args.length = 2 then "Like" else "Escape")
  | key =>
      let admitted := (functionArity? key).all (·.admits args.length)
      let converted := (args.head?.map Phrase.isHex).getD false
      if !admitted then none
      else if (key = "DATE_TRUNC" || key = "DATETRUNC") && (second.map isDate).getD false then
        some (.call "DATE_TRUNC" args)
      else if key = "LOWER" && converted then some (.call "LOWER_HEX" args)
      else if key = "UPPER" && converted then some (.call "HEX" args)
      else some (.call (functionName key) args)

/-- Whether the grammar knows a function. -/
def isKnownFunction (key : String) : Bool :=
  (functionArity? key).isSome || (functionAliases.lookup key).isSome ||
    ["ANY_VALUE", "LIKE", "MAKE_TIMESTAMP", "MOD", "XOR"].contains key

def isTextAggregate (key : String) : Bool :=
  ["STRING_AGG", "GROUP_CONCAT", "LISTAGG", "STRINGAGG"].contains key

/-- An optional part of the arguments: a word or a comma, and an operand. -/
def partAfter (g : Grammar) (k : String) : Reader (Option Phrase) := do
  if ← anyOf [word k, mark ","] then return some (← need (g .bits)) else return none

/-- The arguments of `CAST`, and what it makes. -/
def castOf (g : Grammar) (strict : Bool) : Reader Phrase := do
  let _ ← need (g .disjunction)
  if ← word "AS" then
    match ← need (g (.type false)) with
    | .type name _ =>
        if ← anyOf [word "FORMAT", mark ","] then
          let _ ← need (g .column)
        return if strict then .cast (name = "DATE") else .call "try_cast" []
    | _ => return if strict then .cast false else .call "try_cast" []
  else
    expect (mark ",")
    let _ ← need (g .column)
    return .call "cast_to_str_type" []

/-- The arguments of `CONVERT`. -/
def convertOf (g : Grammar) (strict : Bool) : Reader Phrase := do
  let _ ← need (g .bits)
  if ← word "USING" then
    skip
    return if strict then .cast false else .call "try_cast" []
  else
    expect (mark ",")
    let _ ← need (g (.type false))
    return if strict then .cast false else .call "try_cast" []

/-- The arguments of `EXTRACT`. -/
def extractOf (g : Grammar) : Reader Phrase := do
  let unit ← peek
  match unit with
  | some ⟨.string _, _⟩ => skip
  | _ => let _ ← need (g .column)
  if !(← word "FROM") then expect (mark ",")
  let _ ← need (g .bits)
  return .call "extract" []

/-- The arguments of `SUBSTRING`, of which the second and third may follow words. -/
def substringOf (g : Grammar) : Reader Phrase := do
  let args ← separated (g .bits)
  let start ← if ← word "FROM" then pure (some (← need (g .bits))) else pure none
  let length ← if ← word "FOR" then pure (some (← need (g .bits))) else pure none
  let start ←
    if start.isNone && length.isSome then
      if ← word "FROM" then pure (some (← need (g .bits))) else pure (some (.number "1"))
    else pure start
  match Phrase.called? "SUBSTRING" (args ++ start.toList ++ length.toList) with
  | some p => return p
  | none => failure

/-- The arguments of `TRIM`. -/
def trimOf (g : Grammar) : Reader Phrase := do
  let _ ← oneOf ["BOTH", "LEADING", "TRAILING"]
  let first ← g .bits
  let second ←
    if ← anyOf [word "FROM", mark ","] then g .bits else pure none
  if ← word "COLLATE" then
    let _ ← g .bits
  if first.isSome || second.isSome then return .call "trim" [] else failure

/-- The arguments of `POSITION`. -/
def positionOf (g : Grammar) : Reader Phrase := do
  let args ← separated (g .bits)
  if ← word "IN" then
    let _ ← need (g .bits)
    if args.isEmpty then failure else return .call "str_position" []
  else if args.length < 2 then failure else return .call "str_position" []

/-- The arguments of `OVERLAY`. -/
def overlayOf (g : Grammar) : Reader Phrase := do
  let _ ← need (g .bits)
  let _ ← need (partAfter g "PLACING")
  let _ ← need (partAfter g "FROM")
  let _ ← partAfter g "FOR"
  return .call "overlay" []

/-- The arguments of `CEIL` and `FLOOR`, which may be missing. -/
def wholeOf (g : Grammar) (name : String) : Reader Phrase := do
  let _ ← separated (g (.argument false))
  if ← word "TO" then skip
  return .call name []

/-- The arguments of functions that join texts. -/
def joinOf (g : Grammar) : Reader Phrase := do
  let isDistinct ← word "DISTINCT"
  let args ← separated (g .disjunction)
  let _ ← ordering g
  let _ ← limit g
  if args.isEmpty || 2 < args.length && !isDistinct then failure
  else return .call "group_concat" []

/-- Pairs of keys and values. -/
def objectOf (g : Grammar) (name : String) : Reader Phrase := do
  let _ ← separated do
    match ← g .assignment with
    | none => return none
    | some p =>
        if ← anyOf [mark ":", mark ",", word "VALUE"] then
          let _ ← need (g .assignment)
        return some p
  return .call name []

/-- The arguments of `CHR`, which the name of a character set may follow. -/
def characterOf (g : Grammar) : Reader Phrase := do
  let args ← separated (g .assignment)
  if ← word "USING" then
    let _ ← nameOf true
  if args.isEmpty then failure else return .call "chr" []

/-- The arguments of `NORMALIZE`: a text and the word for a form. -/
def normalizeOf (g : Grammar) : Reader Phrase := do
  let _ ← need (g .bits)
  if ← mark "," then
    let _ ← nameOf false
  return .call "normalize" []

/-- Data and a path into it. -/
def pathArguments (g : Grammar) : Reader Unit := do
  let _ ← need (g .bits)
  if ← mark "," then
    match ← peek with
    | some ⟨.string _, _⟩ => skip
    | _ => pure ()

/-- The arguments of `JSON_TABLE`: data, a path and columns. -/
def dataTableOf (g : Grammar) : Reader Phrase := do
  let column : Reader (Option Phrase) := do
    let name ← nameOf false
    let type ← g (.type true)
    if ← word "PATH" then skip
    return name.orElse fun _ => type
  pathArguments g
  if ← word "COLUMNS" then pure ()
  if ← mark "(" then
    let _ ← separated column
    expect (mark ")")
  else
    let _ ← separated column
  return .call "j_s_o_n_table" []

/-- The arguments of `XMLELEMENT`: a name after the word for one, and contents. -/
def elementOf (g : Grammar) : Reader Phrase := do
  expect (word "NAME")
  let _ ← need (nameOf true)
  if ← mark "," then
    let _ ← separated (g .expression)
  return .call "xmlelement" []

/-- Functions whose arguments have a grammar of their own. -/
def ownArguments (g : Grammar) (key : String) : Option (Reader Phrase) :=
  match key with
  | "CAST" => some (castOf g true)
  | "TRY_CAST" | "SAFE_CAST" => some (castOf g false)
  | "CONVERT" => some (convertOf g true)
  | "TRY_CONVERT" => some (convertOf g false)
  | "EXTRACT" => some (extractOf g)
  | "SUBSTRING" => some (substringOf g)
  | "TRIM" => some (trimOf g)
  | "POSITION" => some (positionOf g)
  | "OVERLAY" => some (overlayOf g)
  | "CEIL" => some (wholeOf g "ceil")
  | "FLOOR" => some (wholeOf g "floor")
  | "MATCH" => some failure
  | "CHR" | "CHAR" => some (characterOf g)
  | "NORMALIZE" => some (normalizeOf g)
  | "OPENJSON" => some do
      pathArguments g
      return .call "open_j_s_o_n" []
  | "JSON_TABLE" => some (dataTableOf g)
  | "XMLELEMENT" => some (elementOf g)
  | "JSON_OBJECT" => some (objectOf g "j_s_o_n_object")
  | "JSON_OBJECTAGG" => some (objectOf g "j_s_o_n_object_agg")
  | key => if isTextAggregate key then some (joinOf g) else none

/-- Queries that are asked for all, some or any of their rows. -/
def rowsAsked (key : String) : Option Phrase :=
  match key with
  | "EXISTS" => some (.call "exists" [])
  | "ALL" => some (.form "All")
  | "SOME" => some (.form "Any")
  | _ => none

/-- The arguments of a function without a grammar of its own. -/
def calledWith (g : Grammar) (t : Token) (key : String) (anonymous : Bool) : Reader Phrase := do
  let isKnown := !anonymous && isKnownFunction key
  let args ← separated (g (.argument (!isKnown || key = "STRUCT" || key = "STRUCT_PACK")))
  if isKnown then
    match Phrase.called? key args with
    | some p => return p
    | none => failure
  else
    match t with
    | .name n => return .call (WrittenName.inQuotes n) args
    | t => return .call t.text args

/-- Calls that need no parentheses and take what follows. -/
def bareCall (g : Grammar) (key : String) : Option (Reader (Option Phrase)) :=
  match key with
  | "CASE" => some (caseOf g)
  | "ANY" => some do
      let _ ← need (g .bits)
      return some (.form "Any")
  | "CONNECT_BY_ROOT" => some do
      let _ ← need (g .column)
      return some (.call "connect_by_root" [])
  | "IF" => some do
      if ← mark "(" then
        let args ← separated do aliasOf g true (← g .assignment)
        expect (mark ")")
        match Phrase.called? "IF" args with
        | some p => return some p
        | none => failure
      else
        match ← g .disjunction with
        | none => return none
        | some _ =>
            let _ ← word "THEN"
            let _ ← need (g .disjunction)
            if ← word "ELSE" then
              let _ ← g .disjunction
            let _ ← word "END"
            return some (.call "if" [])
  | "MAP" => some do
      if ← atMark "\x7b" then
        let _ ← need (g .column)
        return some (.call "to_map" [])
      else
        let _ ← inParens (separated (g .assignment))
        return some (.call "map" [])
  | _ => none

/-- Takes the next word for a name, unless it is called. -/
def plainWord : Reader Unit := do
  if !(← secondAtMark "(") then
    modify fun
      | ⟨.word w, comments⟩ :: ls =>
          let isCall := ["ANY", "CASE", "CONNECT_BY_ROOT", "IF", "MAP"].contains (Text.upper w)
          if isCall || (Token.word w).isFree then ⟨.word w, comments⟩ :: ls
          else ⟨.name w, comments⟩ :: ls
      | ls => ls

/-- A call, if one begins here. After a point almost any name may be called, and no function is
known. -/
def call (g : Grammar) (afterPoint : Bool) : Reader (Option Phrase) := do
  let start ← get
  match ← peek with
  | none => return none
  | some l =>
      let t := l.token
      if t = .mark "@" then
        skip
        plainWord
        let arg ← g .bits
        return some (← afterCall g (.call "ABS" arg.toList))
      else
        let key := match t with
          | .word _ => t.key
          | _ => ""
        match bareCall g key with
        | some r =>
            skip
            match ← r with
            | some p => return some (← afterCall g p)
            | none =>
                set start
                return none
        | none =>
            if !(← secondAtMark "(") then
              if bareCalls.contains key then
                skip
                return some (.call key [])
              else return none
            else if !(if afterPoint then t.mustName else t.mayCall) then return none
            else
              skip
              skip
              let key := Text.upper t.text
              match if afterPoint then none else ownArguments g key with
              | some r =>
                  let p ← r
                  expect (mark ")")
                  return some (← afterCall g p)
              | none =>
                  match if ["SELECT", "WITH", "FROM"].contains (← Reader.key) then rowsAsked key
                    else none with
                  | some p =>
                      let _ ← need (g (.select false))
                      expect (mark ")")
                      return some p
                  | none =>
                      let p ← calledWith g t key afterPoint
                      expect (mark ")")
                      return some (← afterCall g p)

end Tabula
