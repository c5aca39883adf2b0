import Tabula.Text.Visible

/-!
Quoted text. A text is written between single quotes, or between double quotes when it holds a
single one and no double one; the quote in use and the backslash are escaped, and a character
without a printed form is written by its code point.
-/

namespace Tabula.Text

/-- The digits of a code point in base sixteen, filled to `width`. -/
def hexDigits (width code : Nat) : List Char :=
  let digits := Nat.toDigits 16 code
  List.replicate (width - digits.length) '0' ++ digits

/-- A hidden character by its code point, in the shortest of the three widths. -/
def escapeCode (code : Nat) : List Char :=
  if code < 0x100 then '\\' :: 'x' :: hexDigits 2 code
  else if code < 0x10000 then '\\' :: 'u' :: hexDigits 4 code
  else '\\' :: 'U' :: hexDigits 8 code

def quotedChar (quote c : Char) : List Char :=
  if c = quote ∨ c = '\\' then ['\\', c]
  else if c = '\n' then ['\\', 'n']
  else if c = '\r' then ['\\', 'r']
  else if c = '\t' then ['\\', 't']
  else if isHidden c then escapeCode c.toNat
  else [c]

/-- The quote that needs the fewest escapes. -/
def quoteFor (cs : List Char) : Char :=
  if cs.contains '\'' && !cs.contains '"' then '"' else '\''

def quoted (s : String) : String :=
  let cs := s.toList
  let quote := quoteFor cs
  String.ofList (quote :: cs.flatMap (quotedChar quote) ++ [quote])

/-- Items between brackets, separated by a comma and a space. -/
def bracketed (items : List String) : String := "[" ++ ", ".intercalate items ++ "]"

/-- A list of texts, each quoted. -/
def quotedList (items : List String) : String := bracketed (items.map quoted)

end Tabula.Text
