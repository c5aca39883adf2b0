import Tabula.Text.CodeRange

/-!
Blanks: the characters that separate words, of every script.
-/

namespace Tabula.Text

/-- The ranges of blanks: controls that move the position, the information separators, and the
space characters. -/
def blankRanges : List CodeRange := [
  (0x9, 0xD), (0x1C, 0x20), (0x85, 0x85), (0xA0, 0xA0), (0x1680, 0x1680), (0x2000, 0x200A),
  (0x2028, 0x2029), (0x202F, 0x202F), (0x205F, 0x205F), (0x3000, 0x3000)]

def isBlank (c : Char) : Bool := covered blankRanges c

/-- A blank other than the separators of records. -/
def isSpace (c : Char) : Bool := isBlank c && !(0x1C ≤ c.toNat && c.toNat < 0x20)

/-- A text without any visible mark. -/
def allBlank (s : String) : Bool := s.toList.all isBlank

example : isBlank ' ' ∧ isBlank '\t' ∧ isBlank '\n' ∧ isBlank '\r' := by decide

end Tabula.Text
