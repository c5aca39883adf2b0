import Tabula.Proofs.Expr.Semicolon
import Tabula.Proofs.Expr.Spelled

/-!
Texts are consumed as a whole: nothing follows an expression, and nothing of its text is without use
but blanks, comments and one semicolon at the end.
-/

namespace Tabula

namespace Expr

end Expr

end Tabula
