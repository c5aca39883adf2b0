import Tabula.Proofs.Number.Shortest

/-!
Rounding to decimal places. A finite double that is rounded to places after the point is finite
again: either it is a whole number, and nothing changes, or it is so far below the largest double
that one step of the last place does not lead past it.
-/

namespace Tabula.Number

/-! ### Quotients in range -/

theorem twoTo_le {m n : Nat} (h : m ≤ n) : twoTo m ≤ twoTo n := Nat.pow_le_pow_right (by decide) h

/-- The nearest double of a quotient that is not too large is finite. -/
theorem nearestMagnitude_lt {num den k : Nat} (hden : 0 < den) (h : num ≤ den * twoTo k)
    (hk : k < 1022) : nearestMagnitude num den < magnitudes := by
  have hscaled : num <<< unitBits / den ≤ twoTo (k + unitBits) := by
    rw [Nat.div_le_iff_le_mul_add_pred hden, shiftLeft_eq_mul, twoTo_add, ← Nat.mul_assoc]
    exact Nat.le_add_right_of_le (Nat.mul_le_mul_right _ h)
  have hlog : (num <<< unitBits / den).log2 ≤ k + unitBits := by
    refine log2_le (Nat.lt_of_le_of_lt hscaled ?_)
    rw [twoTo_succ]
    have := twoTo_pos (k + unitBits)
    omega
  rw [nearestMagnitude]
  generalize hs : num <<< unitBits = s at hlog
  generalize he : (s / den).log2 - 52 = e
  have hexponent : e ≤ k + 1022 := by
    have hbits : unitBits = 1074 := rfl
    omega
  -- the exponent leaves a quotient of at most fifty-three bits
  have hrest : s / (den <<< e) < twoTo 53 := by
    rw [shiftLeft_eq_mul, ← Nat.div_div_eq_div_mul, Nat.div_lt_iff_lt_mul (twoTo_pos e),
      ← twoTo_add]
    have hlt : s / den < twoTo ((s / den).log2 + 1) := Nat.lt_log2_self
    exact Nat.lt_of_lt_of_le hlt (twoTo_le (by omega))
  have hround : roundDiv .toEven s (den <<< e) ≤ s / (den <<< e) + 1 := by
    rcases roundDiv_cases .toEven s (den <<< e) with ⟨heq, -⟩ | ⟨heq, -⟩ <;> omega
  have hproduct : e * twoTo 52 ≤ (k + 1022) * twoTo 52 := Nat.mul_le_mul_right _ hexponent
  have htop : (k + 1022 + 2) * twoTo 52 < magnitudes :=
    Nat.mul_lt_mul_of_pos_right (by omega) (twoTo_pos 52)
  have htwo : twoTo 53 = 2 * twoTo 52 := rfl
  simp only [Nat.add_mul] at hproduct htop ⊢
  omega

theorem exists_nearest? (negative : Bool) {num den k : Nat} (hden : 0 < den)
    (h : num ≤ den * twoTo k) (hk : k < 1022) :
    ∃ y, nearest? negative num den = some y ∧ y.isFinite = true := by
  have hlt := nearestMagnitude_lt hden h hk
  exact ⟨_, by rw [nearest?_eq, if_pos hlt], isFinite_ofMagnitude hlt⟩

/-! ### Rounded doubles -/

theorem isNaN_of_isFinite {x : Float} (h : x.isFinite = true) : x.isNaN = false := by
  rw [Bool.eq_false_iff, ne_eq, isNaN_iff, not_and]
  exact fun hfield => absurd hfield ((isFinite_iff x).1 h)

theorem isFinite_of_parts {x : Float} {negative : Bool} {m e : Nat}
    (h : Parts.of x = .finite negative m e) : x.isFinite = true := by
  rw [isFinite_iff]
  intro hfield
  simp only [Parts.of, if_pos hfield] at h
  split at h <;> cases h

/-- A whole number is its own nearest double. -/
theorem roundsTo_whole {m e : Nat} (hparts : IsParts m e) (he : unitBits ≤ e) {den : Nat}
    (hden : 0 < den) : RoundsTo m e ((m * twoTo (e - unitBits) * den : Nat) / den) := by
  have hdenq : (den : ℚ) ≠ 0 := by exact_mod_cast hden.ne'
  have hvalue : ((m * twoTo (e - unitBits) * den : Nat) : ℚ) / den / quarter e =
      (Interval.of m e).middle := by
    have hpow : (2 : ℚ) ^ e = 2 ^ (e - unitBits) * 2 ^ unitBits := by
      rw [← pow_add, Nat.sub_add_cancel he]
    rw [quarter_eq, hpow, Interval.of]
    generalize unitBits = b
    simp only [twoTo, Nat.pow_eq]
    push_cast
    field_simp
  rw [RoundsTo, hvalue]
  have hpos := hparts.pos
  have hlow : (Interval.of m e).low < (Interval.of m e).middle := by
    simp only [Interval.of]
    split <;> omega
  have hhigh : (Interval.of m e).middle < (Interval.of m e).high := by
    simp only [Interval.of]
    omega
  exact .of_lt (by exact_mod_cast hlow) (by exact_mod_cast hhigh)

section Scaled

variable {m e power : Nat}

theorem exists_scaled_whole (negative : Bool) (hparts : IsParts m e) (he : unitBits ≤ e)
    (hpos : 0 < power) :
    ∃ y, nearest? negative (roundDiv .toEven (m <<< e * power) (1 <<< unitBits)) power = some y ∧
      y.isFinite = true := by
  have hunit : 0 < 1 <<< unitBits := by
    rw [shiftLeft_eq_mul, Nat.one_mul]
    exact twoTo_pos unitBits
  have hwhole : m <<< e * power = m * twoTo (e - unitBits) * power * (1 <<< unitBits) := by
    rw [shiftLeft_eq_mul, shiftLeft_eq_mul, Nat.one_mul, ← Nat.sub_add_cancel he, twoTo_add,
      Nat.add_sub_cancel]
    ring
  have hround := (roundsTo_whole hparts he hpos).nearest? hparts hpos negative
  rw [hwhole, roundDiv_of_dvd _ hunit (Nat.mul_mod_left _ _), Nat.mul_div_cancel _ hunit]
  exact ⟨_, hround, isFinite_ofMagnitude hparts.magnitude_lt⟩

theorem exists_scaled_fraction (negative : Bool) (hm : m ≤ twoTo 53) (he : e ≤ unitBits)
    (hpos : 0 < power) :
    ∃ y, nearest? negative (roundDiv .toEven (m <<< e * power) (1 <<< unitBits)) power = some y ∧
      y.isFinite = true := by
  have hquotient : m <<< e * power / (1 <<< unitBits) ≤ power * twoTo 53 := by
    have hshift : twoTo e ≤ twoTo unitBits := twoTo_le he
    rw [shiftLeft_eq_mul, shiftLeft_eq_mul, Nat.one_mul]
    generalize twoTo unitBits = unit at hshift
    refine Nat.div_le_of_le_mul ?_
    calc m * twoTo e * power ≤ twoTo 53 * unit * power :=
          Nat.mul_le_mul_right power (Nat.mul_le_mul hm hshift)
      _ = unit * (power * twoTo 53) := by ring
  have hround : roundDiv .toEven (m <<< e * power) (1 <<< unitBits) ≤
      m <<< e * power / (1 <<< unitBits) + 1 := by
    rcases roundDiv_cases .toEven (m <<< e * power) (1 <<< unitBits) with ⟨heq, -⟩ | ⟨heq, -⟩ <;>
      omega
  have htwice : power * twoTo 54 = power * twoTo 53 + power * twoTo 53 := by
    rw [twoTo_succ]
    ring
  have hleast : 1 ≤ power * twoTo 53 := Nat.mul_pos hpos (twoTo_pos 53)
  exact exists_nearest? negative (k := 54) hpos (by omega) (by decide)

end Scaled

/-- Rounding to places after the point always has a result, and makes no number into what is no
number. -/
theorem exists_roundExact? (x : Float) {places : Int} (h : 0 ≤ places) :
    ∃ y, roundExact? x places = some y ∧ y.isNaN = x.isNaN := by
  by_cases hfinite : x.isFinite = true
  · obtain ⟨negative, m, e, hof, hparts⟩ := exists_parts_of_isFinite hfinite
    rw [roundExact?, hof]
    dsimp only
    by_cases hfar : 323 < places
    · exact ⟨x, if_pos hfar, rfl⟩
    rw [if_neg hfar, if_neg (by omega), if_pos h, isNaN_of_isFinite hfinite]
    suffices ∃ y, nearest? negative (roundDiv .toEven ((m <<< e) * tenTo places.toNat)
        (1 <<< unitBits)) (tenTo places.toNat) = some y ∧ y.isFinite = true by
      obtain ⟨y, hy, hyfinite⟩ := this
      exact ⟨y, hy, isNaN_of_isFinite hyfinite⟩
    have hpos := tenTo_pos places.toNat
    rcases hparts with ⟨rfl, rfl, -⟩ | ⟨hparts, -⟩
    · exact exists_scaled_fraction negative (Nat.zero_le _) (Nat.zero_le _) hpos
    · rcases Nat.le_total unitBits e with he | he
      · exact exists_scaled_whole negative hparts he hpos
      · exact exists_scaled_fraction negative (Nat.le_of_lt hparts.lt) he hpos
  · refine ⟨x, ?_, rfl⟩
    rw [roundExact?]
    cases hof : Parts.of x with
    | nan => rfl
    | infinite negative => rfl
    | finite negative m e => exact absurd (isFinite_of_parts hof) hfinite

end Tabula.Number
