import Tabula.Text.Blank

/-!
Text whose line breaks are chosen when it is written. Flat, everything stands on one line. Laid
out, lists have a line for every item, brackets enclose indented lines, and arguments and links
share a line as long as they fit. A line break inside a quoted text belongs to the text: a mark
stands for it until all lines are laid out, so that it counts as a word and no indentation follows
it.
-/

namespace Tabula.Text

inductive Doc
  | word (s : String)
  | held (s : String)
  | beside (left right : Doc)
  /-- A space, or the end of a line. -/
  | space
  /-- Nothing, or the end of a line. -/
  | cut
  | indented (body : Doc)
  /-- Items with commas between them, one a line. -/
  | listed (items : List Doc)
  /-- Items with a mark between them, on one line if they fit, otherwise indented on their own
  lines. -/
  | fitted (mark : String) (items : List Doc)
  /-- Links with spaces between them, on one line if they fit, otherwise one a line. -/
  | chain (links : List Doc)

instance : Append Doc := ⟨Doc.beside⟩

namespace Doc

/-- Lines of their own between what stands before and after. -/
def block (body : Doc) : Doc := cut ++ indented body ++ cut

/-- Lines of their own after a keyword. -/
def under (body : Doc) : Doc := space ++ indented body

/-- The links of a chain, or the text as a single link. -/
def links : Doc → List Doc
  | chain ls => ls
  | d => [d]

mutual
def flat : Doc → String
  | word s => s
  | held s => s
  | beside a b => a.flat ++ b.flat
  | space => " "
  | cut => ""
  | indented body => body.flat
  | listed items => ", ".intercalate (flats items)
  | fitted mark items => (mark ++ " ").intercalate (flats items)
  | chain links => " ".intercalate (flats links)
def flats : List Doc → List String
  | [] => []
  | d :: ds => d.flat :: flats ds
end

end Doc

/-! Lines of a layout. -/

/-- What stands for a line break that is no end of a line. -/
def breakMark : String := "__SQLGLOT__LB__"

def brokenLines : List Char → List (List Char)
  | [] => [[]]
  | c :: cs =>
      if c = '\n' then [] :: brokenLines cs
      else match brokenLines cs with
        | [] => [[c]]
        | l :: ls => (c :: l) :: ls

def linesOf (s : String) : List String := (brokenLines s.toList).map String.ofList

/-- The second lines go on at the end of the first. -/
def joinLines : List String → List String → List String
  | [], b => b
  | [l], [] => [l]
  | [l], m :: b => (l ++ m) :: b
  | l :: a, b => l :: joinLines a b

def indentLines (ls : List String) : List String := ls.map fun l => "  " ++ l

/-- Lines with a mark at the end of the last. -/
def markLines (ls : List String) (mark : String) : List String := joinLines ls [mark]

def totalOf (widths : List Nat) : Nat := widths.foldr (· + ·) 0

def linesWidth (ls : List String) : Nat := totalOf (ls.map String.length) + (ls.length - 1)

/-- Whether texts are too wide together for one line. -/
def tooWide (texts : List (List String)) : Bool := 80 < totalOf (texts.map linesWidth)

def trimEnd (s : String) : String := String.ofList (s.toList.reverse.dropWhile isBlank).reverse

/-- Without the blank lines at the end and the blanks after the last word. -/
def trimLines (ls : List String) : List String :=
  match ls.reverse.dropWhile allBlank with
  | [] => []
  | l :: before => (trimEnd l :: before).reverse

/-- Texts after one another, a separator between any two. -/
def joinTexts (separator : List String) : List (List String) → List String
  | [] => [""]
  | [t] => t
  | t :: ts => joinLines (joinLines t separator) (joinTexts separator ts)

/-- Texts on lines of their own, all but the last with a mark. -/
def stackTexts (mark : String) : List (List String) → List (List String)
  | [] => []
  | [t] => [t]
  | t :: ts => markLines t mark :: stackTexts mark ts

namespace Doc

mutual
def lines : Doc → List String
  | word s => linesOf s
  | held s => [s.replace "\n" breakMark]
  | beside a b => joinLines a.lines b.lines
  | space => ["", ""]
  | cut => ["", ""]
  | indented body => indentLines body.lines
  | listed items => (stackTexts "," (linesOfAll items)).flatMap trimLines
  | fitted mark items =>
      let texts := linesOfAll items
      if tooWide texts then "" :: indentLines (stackTexts mark texts).flatten ++ [""]
      else joinTexts [mark ++ " "] texts
  | chain links =>
      let texts := linesOfAll links
      if tooWide texts then texts.flatten else joinTexts [" "] texts
def linesOfAll : List Doc → List (List String)
  | [] => []
  | d :: ds => d.lines :: linesOfAll ds
end

/-- The text, laid out or flat, without blanks at its end. Laid out, every mark is a line break,
whether or not it stood in the text. -/
def render (d : Doc) (laidOut : Bool) : String :=
  if laidOut then ("\n".intercalate (trimLines d.lines)).replace breakMark "\n"
  else trimEnd d.flat

end Doc

end Tabula.Text
