import Tabula.Expr.Grammar.Operand
import Tabula.Expr.Grammar.Operator
import Tabula.Expr.Grammar.Statement

/-!
The grammar of expression text: the rule of every part, given a way to read parts. Rules ask for
parts to a depth that the number of lexemes bounds, so a text is read with that much depth allowed.
-/

namespace Tabula

/-- Reads a part by its rule; the rule reads parts by `g`. -/
def Part.rule (g : Grammar) : Part → Reader (Option Phrase)
  | statement => statementRule g
  | select nested => selectRule g nested
  | expression => expressionRule g
  | assignment => assignmentRule g
  | disjunction => disjunctionRule g
  | condition => conditionRule g (suffixes g)
  | bits => Tabula.bits g
  | sum => Tabula.sum g
  | signed => signedRule g (typed g)
  | column => columnRule g
  | type inside => typeRule g inside
  | argument named => argumentRule g named
  | table => tableRule g (call g false)

/-- Reads a part by rules that ask for parts to the given depth. -/
def Grammar.ofDepth : Nat → Grammar
  | 0 => fun _ => failure
  | depth + 1 => Part.rule (ofDepth depth)

/-- How deep the rules go for so many lexemes. -/
def depthFor (size : Nat) : Nat := 16 * (size + 1)

/-- The phrase that the lexemes of one statement say, if they say one. -/
def Phrase.ofLexemes? (ls : List Lexeme) : Option (Option Phrase) :=
  match (Grammar.ofDepth (depthFor ls.length) .statement).run ls with
  | some (p, []) => some p
  | _ => none

/-- The statements of a text: semicolons divide them, the last one but ends the text. A semicolon
with a comment is a statement as well. -/
def statements : List Lexeme → List (List Lexeme)
  | [] => [[]]
  | l :: ls =>
      if l.token = .mark ";" then
        let rest := if ls.isEmpty then [] else statements ls
        [] :: (if l.comments.isEmpty then rest else [l] :: rest)
      else
        match statements ls with
        | [] => [[l]]
        | s :: ss => (l :: s) :: ss

/-- The phrase of a text. Several statements make a block, which none of them is. -/
def Phrase.read? (text : String) : Option Phrase := do
  let phrases ← (statements (← Lexeme.scan text)).mapM ofLexemes?
  match phrases with
  | [p] => p
  | _ => some (.form "Block")

/-- The expression that a text says; faults are traced to the node at `position`. -/
def Expr.parse (text : String) (position : Option Int) : Result Expr :=
  let fault (f : SyntaxFault) : Failure := .build (.notAnExpression f) position
  if Text.allBlank text then .error (fault .empty)
  else match Phrase.read? text with
    | none => .error (fault (.unparsable text))
    | some p => (p.toExpr text).mapError fault

end Tabula
