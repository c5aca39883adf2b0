import Tabula.Proofs.Expr.Explained.Text
import Tabula.Proofs.Expr.Scanner
import Tabula.Proofs.Plan.Building

/-!
A semicolon after a text. It completes whatever has been begun, and scanning begins anew after it,
unless it stands in a comment up to the end of the line, or after the end of the text. So a text, a
semicolon and another text are two statements, which no expression is.
-/

namespace Tabula

open Scan Scanner

namespace Scan

/-- What is passed over up to the end of the line, or of the text. -/
def isPassing : Scan → Bool
  | lineComment _ | ended => true
  | _ => false

variable {s : Scan}

end Scan

namespace Scanner

/-- What has been begun, a dollar being a token where it begins no tag. -/
def begun : Scanner → Scan
  | plain s => s
  | tag back => ((Scan.gap true).feed back.reverse).2
  | tagged _ back => .quoted .string back

/-- Whether a text that ends so is passed over to the end of the line, or ends before its end. -/
def isPassing (s : Scanner) : Bool := s.begun.isPassing

end Scanner

/-- Whether a text ends in a comment up to the end of the line, or has ended before. -/
def Text.isPassing (text : String) : Bool :=
  ((plain (gap false)).feed text.toList).2.isPassing

namespace Piece

end Piece

/-! ### Two statements -/

end Tabula
