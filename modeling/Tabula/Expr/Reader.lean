import Tabula.Expr.Phrase

/-!
Readers of phrases. A reader takes lexemes from the front; it finds something, finds nothing and
takes nothing, or fails because the text is not in the grammar. What is to be read at a place is a
`Part`, and the rules of the grammar are readers that may ask for any part.
-/

namespace Tabula

/-- Reads from the front of lexemes: a result and the lexemes after it. -/
abbrev Reader (α : Type) := StateT (List Lexeme) Option α

namespace Reader

def peek : Reader (Option Lexeme) := do return (← get).head?

/-- The token after the next one. -/
def peekSecond : Reader (Option Lexeme) := do return ((← get).drop 1).head?

def skip : Reader Unit := modify (·.drop 1)

/-- The word that comes next, if one does. -/
def key : Reader String := do return ((← peek).map Lexeme.key).getD ""

def secondKey : Reader String := do return ((← peekSecond).map Lexeme.key).getD ""

def atMark (m : String) : Reader Bool := do
  return ((← peek).map fun l => decide (l.token = .mark m)).getD false

def secondAtMark (m : String) : Reader Bool := do
  return ((← peekSecond).map fun l => decide (l.token = .mark m)).getD false

/-- Takes a mark if it comes next. -/
def mark (m : String) : Reader Bool := do
  if ← atMark m then skip; return true else return false

/-- Takes a word if it comes next. -/
def word (k : String) : Reader Bool := do
  if (← key) = k then skip; return true else return false

/-- Takes one of some words. -/
def oneOf (ks : List String) : Reader Bool := do
  if ks.contains (← key) then skip; return true else return false

/-- Takes words that come one after another, all or none. -/
def words (ks : List String) : Reader Bool := do
  let ls ← get
  if (ls.take ks.length).map Lexeme.key = ks then set (ls.drop ks.length); return true
  else return false

/-- Takes by the first reader that takes something. -/
def anyOf : List (Reader Bool) → Reader Bool
  | [] => return false
  | r :: rs => do if ← r then return true else anyOf rs

/-- Takes by a reader if a condition holds. -/
def provided (c : Bool) (r : Reader Bool) : Reader Bool := if c then r else return false

/-- What has to be there. -/
def expect (r : Reader Bool) : Reader Unit := do if ← r then pure () else failure

def need {α : Type} (r : Reader (Option α)) : Reader α := do
  match ← r with
  | some a => return a
  | none => failure

/-- Takes nothing if the reader fails. -/
def attempt {α : Type} (r : Reader α) : Reader (Option α) := fun ls =>
  match r ls with
  | some (a, rest) => some (some a, rest)
  | none => some (none, ls)

/-- The first that finds something. -/
def either {α : Type} (r s : Reader (Option α)) : Reader (Option α) := do
  match ← r with
  | some a => return some a
  | none => s

/-- Takes everything. -/
def swallow : Reader Unit := set ([] : List Lexeme)

/-- Takes at most `bound` more items, each after a comma, and says whether a comma came last. -/
def moreItems {α : Type} (item : Reader (Option α)) : Nat → Reader (List α × Bool)
  | 0 => return ([], false)
  | bound + 1 => do
      if ← mark "," then
        let first ← item
        let (others, comma) ← moreItems item bound
        return (first.toList ++ others, comma || first.isNone && others.isEmpty)
      else return ([], false)

/-- Items with commas between them; items may be missing. -/
def listed {α : Type} (item : Reader (Option α)) : Reader (List α × Bool) := do
  let first ← item
  let (others, comma) ← moreItems item (← get).length
  return (first.toList ++ others, comma)

def separated {α : Type} (item : Reader (Option α)) : Reader (List α) := do
  return (← listed item).1

def inParens {α : Type} (r : Reader α) : Reader α := do
  expect (mark "(")
  let a ← r
  expect (mark ")")
  return a

/-- Applies a reader at most `bound` times, as long as it finds something. -/
def repeated {α : Type} (r : α → Reader (Option α)) : Nat → α → Reader α
  | 0, a => return a
  | bound + 1, a => do
      match ← r a with
      | some b => repeated r bound b
      | none => return a

/-- Goes on from a phrase as long as the reader finds more. -/
def goOn (r : Phrase → Reader (Option Phrase)) (p : Phrase) : Reader Phrase := do
  repeated r (← get).length p

end Reader

/-- What can be asked for at a place. -/
inductive Part
  | statement
  | select (nested : Bool)
  /-- An assignment, perhaps with an alias. -/
  | expression
  | assignment
  | disjunction
  /-- What AND joins. -/
  | condition
  | bits
  | sum
  | signed
  | column
  /-- A type; within an expression only one that begins with a word for it. -/
  | type (inside : Bool)
  /-- An argument of a call, which may be named by an alias. -/
  | argument (named : Bool)
  | table
  deriving DecidableEq, Repr

/-- A way to read every part. -/
abbrev Grammar := Part → Reader (Option Phrase)

end Tabula
