import Tabula.Expr.Token

/-!
The words of expression text: tokens with the comments that belong to them. Two words that name one
thing, blanks between them, are one word. A comment belongs to the token before it on its line, else
to the token after it.
-/

namespace Tabula

/-- The word that a token stands for, in capitals; some marks stand for words. -/
def Token.key : Token → String
  | word text => Text.upper text
  | mark "!" => "NOT"
  | mark "//" => "DIV"
  | mark "~~" => "LIKE"
  | mark "~~*" => "ILIKE"
  | mark "~~~" => "GLOB"
  | mark "`" => "UNKNOWN"
  | _ => ""

/-- The text of a token taken for a name. -/
def Token.text : Token → String
  | word text | name text | number text | string text | mark text => text
  | literal _ => ""

structure Lexeme where
  token : Token
  comments : List String
  deriving DecidableEq, Repr

def Lexeme.key (l : Lexeme) : String := l.token.key

/-- Words that are one word together. -/
def jointWords : List (String × String) :=
  [("DOUBLE", "PRECISION"), ("CHAR", "VARYING"), ("CHARACTER", "VARYING"), ("CHARACTER", "SET"),
    ("SIMILAR", "TO"), ("GROUP", "BY"), ("ORDER", "BY"), ("PARTITION", "BY"),
    ("PARTITIONED", "BY"), ("CLUSTER", "BY"), ("DISTRIBUTE", "BY"), ("SORT", "BY"),
    ("CONNECT", "BY"), ("START", "WITH"), ("GROUPING", "SETS"), ("PRIMARY", "KEY"),
    ("FOREIGN", "KEY"), ("FOR", "VERSION"), ("FOR", "TIMESTAMP")]

namespace Piece

def isBlank : Piece → Bool
  | blank _ => true
  | _ => false

/-- A word before pieces, joined with the word that they begin with, if the two are one. -/
def joinWord (first : String) (rest : List Piece) : List Piece :=
  match rest, rest.dropWhile isBlank with
  | .blank _ :: _, .token (.word second) :: after =>
      let pair := (Text.upper first, Text.upper second)
      if jointWords.contains pair then .token (.word (pair.1 ++ " " ++ pair.2)) :: after
      else .token (.word first) :: rest
  | _, _ => .token (.word first) :: rest

def joinWords : List Piece → List Piece
  | [] => []
  | .token (.word w) :: rest => joinWord w (joinWords rest)
  | p :: rest => p :: joinWords rest

end Piece

namespace Lexeme

/-- What has been gathered, the last first, comments that wait for a token, and whether a token or
one of its comments ended on this line. -/
structure Gathered where
  back : List Lexeme
  waiting : List String
  onLine : Bool

namespace Gathered

/-- Gives comments to the last token. -/
def attach (comments : List String) : List Lexeme → List Lexeme
  | [] => []
  | l :: ls => ⟨l.token, l.comments ++ comments⟩ :: ls

def add (g : Gathered) : Piece → Gathered
  | .token (.mark ";") =>
      match g.back with
      | [] => ⟨[⟨.mark ";", g.waiting⟩], [], true⟩
      | ls => ⟨⟨.mark ";", []⟩ :: attach g.waiting ls, [], true⟩
  | .token t => ⟨⟨t, g.waiting⟩ :: g.back, [], true⟩
  | .comment text =>
      if g.onLine then ⟨attach [text] g.back, [], true⟩
      else ⟨g.back, g.waiting ++ [text], false⟩
  | .blank breaksLine => ⟨g.back, g.waiting, g.onLine && !breaksLine⟩

def finish (g : Gathered) : List Lexeme := (attach g.waiting g.back).reverse

end Gathered

def ofPieces (ps : List Piece) : List Lexeme :=
  ((Piece.joinWords ps).foldl Gathered.add ⟨[], [], false⟩).finish

/-- The lexemes of a text, unless a quote or a comment is left open. -/
def scan (text : String) : Option (List Lexeme) := ofPieces <$> Piece.scan text

end Lexeme

end Tabula
