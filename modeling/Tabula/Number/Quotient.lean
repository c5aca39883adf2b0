/-!
Powers of two and ten, and rounded quotients of natural numbers. A quotient is within half a unit of
the exact value, and a tie goes where the rule says: to the even neighbour or up.
-/

namespace Tabula.Number

def twoTo (n : Nat) : Nat := Nat.pow 2 n

def tenTo (n : Nat) : Nat := Nat.pow 10 n

theorem twoTo_pos (n : Nat) : 0 < twoTo n := Nat.pow_pos (by decide)

theorem tenTo_pos (n : Nat) : 0 < tenTo n := Nat.pow_pos (by decide)

/-- Where a quotient halfway between two integers goes. -/
inductive Ties
  | toEven
  | up
  deriving DecidableEq, Repr

/-- The integer nearest to `num / den`. -/
def roundDiv (ties : Ties) (num den : Nat) : Nat :=
  let whole := num / den
  let rest := 2 * (num % den)
  if rest < den then whole
  else if den < rest then whole + 1
  else match ties with
    | .up => whole + 1
    | .toEven => whole + whole % 2

/-- Rounding goes down only from the lower half and up only from the upper half. -/
theorem roundDiv_cases (ties : Ties) (num den : Nat) :
    (roundDiv ties num den = num / den ∧ 2 * (num % den) ≤ den) ∨
      (roundDiv ties num den = num / den + 1 ∧ den ≤ 2 * (num % den)) := by
  simp only [roundDiv]
  split
  · left; omega
  · split
    · right; omega
    · cases ties
      · rcases Nat.mod_two_eq_zero_or_one (num / den) with h | h
        · exact .inl ⟨by simp [h], by omega⟩
        · exact .inr ⟨by simp [h], by omega⟩
      · exact .inr ⟨rfl, by omega⟩

theorem roundDiv_of_dvd (ties : Ties) {num den : Nat} (hden : 0 < den) (h : num % den = 0) :
    roundDiv ties num den = num / den := by
  simp [roundDiv, h, hden]

theorem two_mul_le_roundDiv (ties : Ties) (num : Nat) {den : Nat} (hden : 0 < den) :
    2 * num ≤ 2 * (roundDiv ties num den * den) + den := by
  have hmod := Nat.div_add_mod' num den
  have hlt := Nat.mod_lt num hden
  rcases roundDiv_cases ties num den with ⟨h, _⟩ | ⟨h, _⟩ <;> rw [h]
  · omega
  · rw [Nat.add_mul]; omega

theorem roundDiv_le_two_mul (ties : Ties) (num : Nat) {den : Nat} (hden : 0 < den) :
    2 * (roundDiv ties num den * den) ≤ 2 * num + den := by
  have hmod := Nat.div_add_mod' num den
  have hlt := Nat.mod_lt num hden
  rcases roundDiv_cases ties num den with ⟨h, _⟩ | ⟨h, _⟩ <;> rw [h]
  · omega
  · rw [Nat.add_mul]; omega

/-- Rounds an integer to a multiple of `10 ^ (-places)`, halves away from zero; an integer has
nothing to lose after the point. -/
def roundInt (n places : Int) : Int :=
  if 0 ≤ places then n
  else
    let step := tenTo (-places).toNat
    let magnitude := roundDiv .up n.natAbs step * step
    if 0 ≤ n then magnitude else -(magnitude : Int)

theorem roundInt_of_nonneg (n : Int) {places : Int} (h : 0 ≤ places) : roundInt n places = n := by
  simp [roundInt, h]

end Tabula.Number
