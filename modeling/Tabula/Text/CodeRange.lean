/-!
Classes of characters given by ranges of code points.
-/

namespace Tabula.Text

/-- An inclusive range of code points. -/
abbrev CodeRange := Nat × Nat

/-- Whether some range holds the character. -/
def covered (ranges : List CodeRange) (c : Char) : Bool :=
  ranges.any fun r => r.1 ≤ c.toNat && c.toNat ≤ r.2

theorem covered_cons (r : CodeRange) (rs : List CodeRange) (c : Char) :
    covered (r :: rs) c = ((r.1 ≤ c.toNat && c.toNat ≤ r.2) || covered rs c) := rfl

end Tabula.Text
