import Tabula.Expr.Reader

/-!
Names, placeholders for values, and the names that may follow what they name.
-/

namespace Tabula

open Reader

/-- A placeholder for a value: a question mark, or a name or number after a dollar or a colon. -/
def placeholder : Reader (Option Phrase) := do
  let named : Bool := ((← peekSecond).map fun l =>
    match l.token with
    | .number _ => true
    | t => t.mayName).getD false
  let isWord : Bool := ((← peekSecond).map fun l => l.token.isPlain).getD false
  if ← mark "?" then return some (.placeholder "")
  else if (← atMark "$") && (named || isWord) || (← atMark ":") && named then
    skip
    let name := ((← peek).map fun l => l.token.text).getD ""
    skip
    return some (.placeholder name)
  else return none

/-- A name or a placeholder; where a name has to come, almost every token is one. -/
def nameIf (isOne : Token → Bool) : Reader (Option Phrase) := do
  match ← peek with
  | none => return none
  | some ⟨.name n, comments⟩ =>
      skip
      return some (.path [] (.quoted n) comments)
  | some l =>
      match ← placeholder with
      | some p => return some p
      | none =>
          if isOne l.token then
            skip
            match l.token with
            | .string s => return some (.path [] (.quoted s) l.comments)
            | t => return some (.path [] (.bare t.text) l.comments)
          else return none

/-- A name; `must` says that one has to come. -/
def nameOf (must : Bool) : Reader (Option Phrase) :=
  nameIf fun t => t.mayName || must && t.mustName

/-- Whether a limit or an offset comes next, and not a name spelled like that. -/
def beginsLimit (g : Grammar) : Reader Bool := do
  let start ← get
  if ← oneOf ["LIMIT", "OFFSET"] then
    let found ← attempt (need (g .sum))
    set start
    return found.isSome
  else return false

/-- An alias after what it names. -/
def aliasOf (g : Grammar) (explicit : Bool) (p : Option Phrase) : Reader (Option Phrase) := do
  if ← beginsLimit g then return p
  let must ← word "AS"
  if explicit && !must then return p
  if ← mark "(" then
    let names ← separated (nameOf must)
    expect (mark ")")
    if names.isEmpty || p.isNone then failure else return some (.form "Aliases")
  else
    match ← nameOf must, p with
    | none, p => return p
    | some _, some _ => return some (.form "Alias")
    | some _, none => failure

/-- An alias before what it names, which a colon in the second place marks. -/
def aliasBefore (g : Grammar) : Reader (Option Phrase) := do
  if ← secondAtMark ":" then
    let _ ← nameOf true
    let _ ← mark ":"
    let _ ← need (g .assignment)
    return some (.form "Alias")
  else return none

/-- An expression with an alias on either side, if any. -/
def expressionRule (g : Grammar) : Reader (Option Phrase) := do
  match ← aliasBefore g with
  | some p => return some p
  | none => aliasOf g false (← g .assignment)

/-- Names given to values by `:=`. -/
def assignmentRule (g : Grammar) : Reader (Option Phrase) := do
  let first ← g .disjunction
  let left ←
    match first with
    | some p => pure (some p)
    | none =>
        match ← peek with
        | some l =>
            if ← secondAtMark ":=" then
              skip
              pure (some (.path [] (.bare l.token.text) []))
            else pure none
        | none => pure none
  if ← mark ":=" then
    let _ ← need (g .assignment)
    match left with
    | some _ => return some (.form "PropertyEQ")
    | none => failure
  else return left

end Tabula
