import Tabula.Text.Blank
import Tabula.Text.Casing
import Tabula.Text.Word

/-!
The tokens of expression text. Scanning is a machine that takes one character at a time: `Scan` is
what it has begun, `Scan.step` gives the pieces that a character completes and the next state, and
`Scanner.run` goes through a text, so that scanning a text in two pieces is scanning the first and
going on with the second. Blanks and comments are pieces too. A null character between tokens ends
the text. A text is unreadable only if a quote or a comment is left open.
-/

namespace Tabula

inductive Token
  | word (text : String)
  /-- A name between double quotes. -/
  | name (text : String)
  | number (text : String)
  /-- A text between single quotes. -/
  | string (text : String)
  /-- A literal in a notation that no expression has, by the name of its form. -/
  | literal (form : String)
  /-- Punctuation or an operator, by its characters. -/
  | mark (text : String)
  deriving DecidableEq, Repr

/-- What a text is made of. -/
inductive Piece
  | token (t : Token)
  | comment (text : String)
  | blank (breaksLine : Bool)
  deriving DecidableEq, Repr

/-- The characters that end a word. -/
def isPunctuation (c : Char) : Bool :=
  "()[]\x7b\x7d&^:,-.+;/\\|*=><%!~?@#'\"`".toList.contains c

/-- A character that a word goes on with. -/
def isWordChar (c : Char) : Bool := !Text.isSpace c && !isPunctuation c && c ≠ '\x00'

/-- A character that separates tokens. Any other blank begins a word. -/
def isSeparator (c : Char) : Bool := c = ' ' || c = '\t' || c = '\n' || c = '\r'

/-- The marks of more than one character. -/
def longMarks : List String :=
  ["==", "<=", "<>", ">=", "!=", "<=>", "||", "??", "::", "?::", ":=", "//", "**", "->", "->>",
    "=>", "#>", "#>>", "<->", "-|-", "&&", "&<", "&>", "|>", "~~", "~~*", "~~~", "~*", "^@", "@>",
    "<@", "\x7b%", "\x7b%+", "\x7b%-", "%\x7d", "+%\x7d", "-%\x7d", "\x7b\x7b+", "\x7b\x7b-",
    "+\x7d\x7d", "-\x7d\x7d"]

/-- Whether the characters are one mark. -/
def isMark (cs : List Char) : Bool := cs.length = 1 || longMarks.contains (String.ofList cs)

/-- Whether some long mark begins with the characters. -/
def beginsMark (cs : List Char) : Bool := longMarks.any fun m => cs.isPrefixOf m.toList

/-- The quotes that a text may stand between, with what stands before them. -/
inductive Quote
  | string
  | name
  | national
  | bytes
  deriving DecidableEq, Repr

namespace Quote

def char : Quote → Char
  | name => '"'
  | string | national | bytes => '\''

/-- The token of a quoted text. -/
def token (text : String) : Quote → Token
  | string => .string text
  | name => .name text
  | national => .literal "National"
  | bytes => .literal "ByteString"

/-- The quote that a letter directly before it marks. -/
def marked? : List Char → Option Quote
  | ['n'] | ['N'] => some national
  | ['e'] | ['E'] => some bytes
  | _ => none

end Quote

/-- The kinds of comments that end by a mark of their own. -/
inductive Enclosure
  | slashes
  | braces
  deriving DecidableEq, Repr

namespace Enclosure

/-- The first character of the opening mark. -/
def outer : Enclosure → Char
  | slashes => '/'
  | braces => '\x7b'

/-- The second character of the opening mark and the first of the closing one. -/
def inner : Enclosure → Char
  | slashes => '*'
  | braces => '#'

/-- The second character of the closing mark. -/
def closer : Enclosure → Char
  | slashes => '/'
  | braces => '\x7d'

/-- The comment that two characters open. -/
def opened? (c d : Char) : Option Enclosure :=
  [slashes, braces].find? fun e => e.outer = c && e.inner = d

end Enclosure

/-- What has been begun; texts are kept backwards. -/
inductive Scan
  /-- Nothing but blanks, perhaps after the mark of a parameter. -/
  | gap (parameter : Bool)
  | word (back : List Char)
  /-- A number with or without a point and with so many marks of an exponent: none, its letter, its
  letter and sign. -/
  | number (back : List Char) (point : Bool) (exponent : Nat)
  /-- A number, then a sign that belongs to it only if a digit follows. -/
  | numberSign (back : List Char) (point : Bool) (sign : Char)
  /-- A number, then an underscore that is part of it only if a digit follows. -/
  | numberLine (back : List Char) (point : Bool) (exponent : Nat)
  | quoted (q : Quote) (back : List Char)
  /-- A quote that ends the text unless it is doubled. -/
  | quoteEnd (q : Quote) (back : List Char)
  /-- A backslash among bytes. -/
  | escape (back : List Char)
  /-- Characters that begin a mark. -/
  | mark (pending : List Char)
  | lineComment (back : List Char)
  /-- Comments nest; the last character since an opening may begin or end one. -/
  | blockComment (e : Enclosure) (depth : Nat) (back : List Char) (last : Option Char)
  /-- After the end of the text. -/
  | ended
  deriving DecidableEq, Repr

namespace Scan

def ofBack (back : List Char) : String := String.ofList back.reverse

def isLineBreak (c : Char) : Bool := c = '\n' || c = '\r'

/-- Whether a token marks a parameter. -/
def marksParameter (t : Token) : Bool := t = .mark "@" || t = .mark "$"

/-- The first character of a token, or a blank. A number after the mark of a parameter has no
point. -/
def begin (parameter : Bool) (c : Char) : List Piece × Scan :=
  if isSeparator c then ([.blank (isLineBreak c)], gap parameter)
  else if c = '\x00' then ([], ended)
  else if c.isDigit then ([], number [c] parameter 0)
  else if c = '\'' then ([], quoted .string [])
  else if c = '"' then ([], quoted .name [])
  else if c = '$' || c = '`' then ([.token (.mark (String.singleton c))], gap (c = '$'))
  else if isPunctuation c then ([], mark [c])
  else ([], word [c])

/-- Begins anew after complete tokens. -/
def andBegin (done : List Token) (c : Char) : List Piece × Scan :=
  let (more, s) := begin ((done.getLast?.map marksParameter).getD false) c
  (done.map .token ++ more, s)

/-- A character after some that begin a mark. The longest mark is taken. -/
def stepMark : List Char → Char → List Piece × Scan
  | [], d => begin false d
  | c :: cs, d =>
      if c = '-' ∧ cs = [] ∧ d = '-' then ([], lineComment [])
      else if let some e := if cs.isEmpty then Enclosure.opened? c d else none then
        ([], blockComment e 1 [] none)
      else if beginsMark (c :: cs ++ [d]) then ([], mark (c :: cs ++ [d]))
      else if isMark (c :: cs) then andBegin [.mark (String.ofList (c :: cs))] d
      else
        let (more, s) := stepMark cs d
        (.token (.mark (String.singleton c)) :: more, s)

/-- A character inside a comment of the given depth. The first character after an opening does not
begin another. -/
def stepComment (e : Enclosure) (depth : Nat) (back : List Char) (last : Option Char) (c : Char) :
    List Piece × Scan :=
  if last = some e.inner ∧ c = e.closer then
    if depth ≤ 1 then ([.comment (ofBack (back.drop 1))], gap false)
    else ([], blockComment e (depth - 1) (c :: back) (some c))
  else if last = some e.outer ∧ c = e.inner then ([], blockComment e (depth + 1) (c :: back) none)
  else ([], blockComment e depth (c :: back) (some (if last = none ∧ c = e.outer then ' ' else c)))

def step (s : Scan) (c : Char) : List Piece × Scan :=
  match s with
  | gap parameter => begin parameter c
  | word back =>
      if isWordChar c then ([], word (c :: back))
      else if c = '\'' then
        match Quote.marked? back with
        | some q => ([], quoted q [])
        | none => andBegin [.word (ofBack back)] c
      else andBegin [.word (ofBack back)] c
  | number back point exponent =>
      if c.isDigit then ([], number (c :: back) point exponent)
      else if c = '_' then ([], numberLine back point exponent)
      else if c = '.' && !point then ([], number (c :: back) true exponent)
      else if (c = '+' || c = '-') && exponent = 1 then ([], numberSign back point c)
      else if (c = 'e' || c = 'E') && exponent = 0 then ([], number (c :: back) point 1)
      else andBegin [.number (ofBack back)] c
  | numberSign back point sign =>
      if c.isDigit then ([], number (c :: sign :: back) point 2)
      else
        let (more, s) := stepMark [sign] c
        (.token (.number (ofBack back)) :: more, s)
  | numberLine back point exponent =>
      if c.isDigit then ([], number (c :: back) point exponent)
      else if isWordChar c then ([.token (.number (ofBack back))], word [c, '_'])
      else andBegin [.number (ofBack back), .word "_"] c
  | quoted q back =>
      if c = q.char then ([], quoteEnd q back)
      else if c = '\\' ∧ q = .bytes then ([], escape back)
      else ([], quoted q (c :: back))
  | quoteEnd q back =>
      if c = q.char then ([], quoted q (c :: back)) else andBegin [q.token (ofBack back)] c
  | escape back => ([], quoted .bytes (c :: back))
  | mark pending => stepMark pending c
  | lineComment back =>
      if isLineBreak c then ([.comment (ofBack back), .blank true], gap false)
      else ([], lineComment (c :: back))
  | blockComment e depth back last => stepComment e depth back last c
  | ended => ([], ended)

/-- The last pieces at the end of the text. -/
def finish : Scan → Option (List Piece)
  | gap _ | ended => some []
  | word back => some [.token (.word (ofBack back))]
  | number back .. => some [.token (.number (ofBack back))]
  | numberSign back _ sign =>
      some [.token (.number (ofBack back)), .token (.mark (String.singleton sign))]
  | numberLine back .. => some [.token (.number (ofBack back)), .token (.word "_")]
  | quoteEnd q back => some [.token (q.token (ofBack back))]
  | mark pending =>
      if isMark pending then some [.token (.mark (String.ofList pending))]
      else some (pending.map fun c => .token (.mark (String.singleton c)))
  | lineComment back => some [.comment (ofBack back)]
  | quoted .. | escape _ | blockComment .. => none

/-- Goes through characters. -/
def feed (s : Scan) : List Char → List Piece × Scan
  | [] => ([], s)
  | c :: cs =>
      let (done, next) := s.step c
      let (more, last) := next.feed cs
      (done ++ more, last)

theorem feed_append (s : Scan) (cs ds : List Char) :
    s.feed (cs ++ ds) =
      ((s.feed cs).1 ++ ((s.feed cs).2.feed ds).1, ((s.feed cs).2.feed ds).2) := by
  induction cs generalizing s with
  | nil => simp [feed]
  | cons c cs ih => simp [feed, ih]

end Scan

/-- Scanning with texts between dollars: such a text begins and ends with the same tag, which stands
between two dollars. -/
inductive Scanner
  | plain (s : Scan)
  /-- After a dollar, which begins a tag if another dollar ends it. -/
  | tag (back : List Char)
  /-- A text that ends with the tag between dollars. -/
  | tagged (label back : List Char)
  deriving DecidableEq, Repr

namespace Scanner

/-- A tag is a name, or nothing. -/
def isTag (cs : List Char) : Bool :=
  cs.all Text.isWord && !(cs.head?.map Char.isDigit).getD false

def dollar : Piece := .token (.mark "$")

def step (s : Scanner) (c : Char) : List Piece × Scanner :=
  match s with
  | plain s =>
      let (done, next) := s.step c
      if done.getLast? = some dollar then (done.dropLast, tag []) else (done, plain next)
  | tag back =>
      if c = '$' then
        if isTag back.reverse then ([], tagged back.reverse [])
        else
          let (more, s) := (Scan.gap true).feed back.reverse
          let (last, next) := s.step c
          if last.getLast? = some dollar then (dollar :: more ++ last.dropLast, tag [])
          else (dollar :: more ++ last, plain next)
      else ([], tag (c :: back))
  | tagged label back =>
      let mark := '$' :: label ++ ['$']
      if mark.reverse.isPrefixOf (c :: back) then
        ([.token (.literal "RawString")], plain (.gap false))
      else ([], tagged label (c :: back))

def finish : Scanner → Option (List Piece)
  | plain s => s.finish
  | tag back =>
      let (more, s) := (Scan.gap true).feed back.reverse
      (dollar :: more ++ ·) <$> s.finish
  | tagged .. => none

def run (s : Scanner) : List Char → Option (List Piece)
  | [] => s.finish
  | c :: cs =>
      let (done, next) := s.step c
      (done ++ ·) <$> run next cs

end Scanner

/-- The pieces of a text, unless a quote or a comment is left open. -/
def Piece.scan (text : String) : Option (List Piece) := (Scanner.plain (.gap false)).run text.toList

end Tabula
