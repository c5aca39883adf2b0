import Tabula.Expr.Grammar.Name

/-!
Types: words for them with parameters, lists and rows of them, and names of types defined
elsewhere. Within an expression a word for a type that is followed by parentheses is a call,
unless a text comes next.
-/

namespace Tabula

open Reader

def Token.isType (t : Token) : Bool := t.isPlain && typeWords.contains t.key

/-- A parameter of a type: a value, and perhaps a word after it. -/
def typeSize (g : Grammar) : Reader (Option Phrase) := do
  match ← g .signed with
  | some p =>
      match ← peek with
      | some l => if l.token.mustName then skip
      | none => pure ()
      return some p
  | none => return none

/-- A named field of a row, or only its type. -/
def typeField (g : Grammar) : Reader (Option Phrase) := do
  let start ← get
  match ← nameOf true with
  | none => return none
  | some _ =>
      let _ ← mark ":"
      match ← g (.type false) with
      | some p => return some p
      | none =>
          set start
          g (.type false)

/-- The parameters of a type in parentheses, if these are well formed. -/
def typeParameters (g : Grammar) (key : String) (inside : Bool) : Reader (Option Nat) := do
  let item :=
    if structTypeWords.contains key then typeField g
    else if nestedTypeWords.contains key then g (.type inside)
    else if key = "ENUM" then g .condition
    else typeSize g
  match ← attempt (separated item) with
  | some items => if ← mark ")" then return some items.length else return none
  | none => return none

/-- What a type with parameters in angle brackets makes: the type, or a value of it. -/
def angled (g : Grammar) (key : String) (inside : Bool) : Reader (Option Phrase) := do
  let item := if structTypeWords.contains key then typeField g else g (.type inside)
  let items ← separated item
  expect (mark ">")
  let start ← get
  if ← anyOf [mark "[", mark "("] then
    let values ← separated (g .disjunction)
    if values.isEmpty && structTypeWords.contains key then
      set start
      return some (.type key !items.isEmpty)
    else
      if !(← mark "]") then
        let _ ← mark ")"
      return some (.cast false)
  else return some (.type key !items.isEmpty)

/-- The zone of a time. -/
def timeZone : Reader Bool := do
  if ← words ["WITH", "TIME", "ZONE"] then return true
  else if ← words ["WITH", "LOCAL", "TIME", "ZONE"] then return true
  else words ["WITHOUT", "TIME", "ZONE"]

/-- Lists of a type: brackets after it, with or without a size. `named` says that the word for a
list stands for the first brackets, `afterWord` that it stands directly before. Brackets that hold
something else are no part of the type, nor are those before them back to `start`. -/
def bracketLists (g : Grammar) (start : List Lexeme) :
    Nat → (named afterWord : Bool) → Phrase → Reader Phrase
  | 0, _, _, p => return p
  | bound + 1, named, afterWord, p => do
      if (← get).isEmpty then return p
      else if !(← mark "[") && !named then return p
      else if ← provided afterWord (mark "]") then return p
      else
        let sizes ← separated (g .disjunction)
        if !sizes.isEmpty && (afterWord || !(← atMark "]")) then
          set start
          return p
        else
          let _ ← mark "]"
          bracketLists g start bound false false (.type "LIST" true)

/-- A type with the words and the brackets for lists after it. -/
def listOf (g : Grammar) (p : Phrase) : Reader Phrase := do
  let list : Reader (Option Phrase) := do
    if ← word "LIST" then return some (.type "LIST" true) else return none
  let p ← goOn (fun _ => list) p
  let start ← get
  let isNamed ← word "ARRAY"
  let isWord := match p with
    | .type "ARRAY" false => true
    | _ => false
  bracketLists g start (start.length + 1) isNamed (isNamed || isWord) p

/-- Types that have a variant without a sign. -/
def signedTypeWords : List String :=
  ["BIGINT", "BYTE", "DEC", "DECIMAL", "DOUBLE", "DOUBLE PRECISION", "FIXED", "FLOAT8", "INT",
    "INT1", "INT16", "INT2", "INT32", "INT4", "INT64", "INT8", "INTEGER", "LONG", "MEDIUMINT",
    "NUMBER", "NUMERIC", "SHORT", "SIGNED", "SMALLINT", "TINYINT"]

/-- Types of keys and of values, in brackets. -/
def mapTypes (g : Grammar) (inside : Bool) : Reader Bool := do
  let _ ← g (.type inside)
  if ← mark "=>" then
    let _ ← g (.type inside)
    mark "]"
  else return false

/-- The unit of a span of time. -/
def spanUnit : Reader Unit := do
  let isUnit : Reader Bool := do
    if ((← peek).map fun l => l.token.isFree).getD false then skip; return true else return false
  if ← isUnit then
    if ← word "TO" then
      let _ ← isUnit

/-- A type that begins with a word for it. -/
def wordedType (g : Grammar) (inside : Bool) (start : List Lexeme) (key : String) :
    Reader (Option Phrase) := do
  if ← provided (key = "MAP") (mark "[") then
    if ← mapTypes g inside then return some (.type key true)
    else
      set start
      return none
  else
    let isCall ← mark "("
    let parameters ← if isCall then typeParameters g key inside else pure (some 0)
    match parameters with
    | none =>
        set start
        return none
    | some count =>
        let base ←
          if ← provided (nestedTypeWords.contains key) (mark "<") then angled g key inside
          else pure (some (.type key (0 < count)))
        let isZoned ← if timestampWords.contains key then timeZone else pure false
        if key = "INTERVAL" then spanUnit
        let needsText := isCall && inside && !isZoned
        let isText := ((← peek).map fun l =>
          match l.token with
          | .string _ => true
          | _ => false).getD false
        if needsText && !isText || key = "NULLABLE" && count = 0 then
          set start
          return none
        else
          if ← provided (!isZoned && key ≠ "INTERVAL") (word "UNSIGNED") then
            if !signedTypeWords.contains key then failure
          match base with
          | some (.type name hasParameters) => return some (← listOf g (.type name hasParameters))
          | p => return p

/-- A type by its own name, which points may divide. -/
def namedType (g : Grammar) : Reader (Option Phrase) := do
  match ← peek with
  | some l =>
      let isName := match l.token with
        | .name _ => true
        | t => t.isFree
      if isName then
        skip
        repeatPart (← get).length
        let start ← get
        let isCall ← mark "("
        let parameters ← if isCall then typeParameters g "" false else pure (some 0)
        match parameters with
        | some count => return some (← listOf g (.type l.key (0 < count)))
        | none =>
            set start
            return some (.type l.key false)
      else return none
  | none => return none
where
  repeatPart : Nat → Reader Unit
    | 0 => return ()
    | bound + 1 => do
        if ← mark "." then
          skip
          repeatPart bound

def typeRule (g : Grammar) (inside : Bool) : Reader (Option Phrase) := do
  let start ← get
  match ← peek with
  | some l =>
      if l.token.isType then
        skip
        wordedType g inside start l.key
      else if inside then return none
      else namedType g
  | none => return none

end Tabula
