import Tabula.Proofs.Number.Rounding

/-!
The shortest decimal of a double is rounded to the double. A grid that is finer than the interval
of the double has a point in it next to the middle, and the grid of the seventeenth digit is that
fine, so the search always ends with such a point.
-/

namespace Tabula.Number

/-- The number that a decimal writes. -/
def Decimal.value (d : Decimal) : ℚ := d.digits * 10 ^ d.exponent

/-- Dropping zeros does not change the number. -/
theorem Decimal.value_trim (fuel : Nat) (d : Decimal) :
    (d.trim fuel).value = d.value ∧ d.exponent ≤ (d.trim fuel).exponent := by
  induction fuel generalizing d with
  | zero => exact ⟨rfl, le_rfl⟩
  | succ fuel ih =>
      rw [trim]
      split
      · next h =>
          obtain ⟨hvalue, hexponent⟩ := ih ⟨d.digits / 10, d.exponent + 1⟩
          refine ⟨?_, by simp only at hexponent; omega⟩
          have hten : (d.digits : ℚ) = (d.digits / 10 : Nat) * 10 := by
            exact_mod_cast (Nat.div_mul_cancel (Nat.dvd_of_mod_eq_zero h.2)).symm
          rw [hvalue, value, value, hten, zpow_add_one₀ (by norm_num)]
          ring
      · exact ⟨rfl, le_rfl⟩

/-! ### Powers of ten -/

section Scale

variable {num den : Nat}

theorem scaleDown_pos (hden : 0 < den) (power : Int) : 0 < (scaleDown num den power).2 := by
  rw [scaleDown]
  split
  · exact Nat.mul_pos hden (tenTo_pos _)
  · exact hden

theorem scaleDown_eq (num den : Nat) (power : Int) :
    ((scaleDown num den power).1 / (scaleDown num den power).2 : ℚ) = num / den / 10 ^ power := by
  rw [scaleDown]
  by_cases hsign : 0 ≤ power
  · obtain ⟨k, rfl⟩ := Int.eq_ofNat_of_zero_le hsign
    rw [if_pos hsign, Int.toNat_natCast]
    simp [tenTo, div_div]
  · obtain ⟨k, rfl⟩ : ∃ k : Nat, power = -k := ⟨(-power).toNat, by omega⟩
    rw [if_neg hsign, neg_neg, Int.toNat_natCast]
    simp [tenTo, mul_div_right_comm]

/-- A power of ten above a number is the least one, or the one below it is not above either. -/
theorem powerAbove_le (hden : 0 < den) {start : Int}
    (hstart : (10 : ℚ) ^ (start - 1) ≤ num / den) :
    (10 : ℚ) ^ (powerAbove num den start - 1) ≤ num / den := by
  have hnot {p : Int}
      (h : ¬(scaleDown num den p).1 < (scaleDown num den p).2) : (10 : ℚ) ^ p ≤ num / den := by
    have hpos : (0 : ℚ) < (scaleDown num den p).2 := by exact_mod_cast scaleDown_pos hden p
    have hle : ((scaleDown num den p).2 : ℚ) ≤ (scaleDown num den p).1 := by
      exact_mod_cast Nat.not_lt.1 h
    rw [← one_le_div₀ hpos, scaleDown_eq, one_le_div₀ (by positivity)] at hle
    exact hle
  rw [powerAbove]
  simp only [decide_eq_true_eq]
  split
  · exact hstart
  · next hfirst =>
      split
      · rw [add_sub_cancel_right]
        exact hnot hfirst
      · next hsecond =>
          rw [show start + 2 - 1 = start + 1 by ring]
          exact hnot hsecond

theorem le_powerAbove (num den : Nat) (start : Int) : start ≤ powerAbove num den start := by
  simp only [powerAbove]
  split
  · rfl
  · split <;> omega

end Scale

/-! ### Grids -/

namespace Interval

variable {i : Interval} {unitNum unitDen : Nat} {grid : Int} {d : Decimal}

/-- Whether a point of the grid lies in the interval. -/
def inside (i : Interval) (unitNum unitDen : Nat) (grid : Int) (k : Nat) : Bool :=
  if 0 ≤ grid then i.contains (k * tenTo grid.toNat * unitDen) unitNum
  else i.contains (k * unitDen) (unitNum * tenTo (-grid).toNat)

theorem inside_iff (hnum : 0 < unitNum) (hden : 0 < unitDen) (k : Nat) :
    i.inside unitNum unitDen grid k = true ↔
      i.Holds ((⟨k, grid⟩ : Decimal).value / (unitNum / unitDen)) := by
  have hdenq : (unitDen : ℚ) ≠ 0 := by exact_mod_cast hden.ne'
  have hnumq : (unitNum : ℚ) ≠ 0 := by exact_mod_cast hnum.ne'
  rw [inside]
  by_cases hsign : 0 ≤ grid
  · obtain ⟨n, rfl⟩ := Int.eq_ofNat_of_zero_le hsign
    rw [if_pos hsign, Int.toNat_natCast, contains_iff i hnum]
    refine iff_of_eq (congrArg i.Holds ?_)
    simp only [Decimal.value, tenTo, Nat.pow_eq, zpow_natCast]
    push_cast
    field_simp
  · obtain ⟨n, rfl⟩ : ∃ n : Nat, grid = -n := ⟨(-grid).toNat, by omega⟩
    rw [if_neg hsign, neg_neg, Int.toNat_natCast, contains_iff i (Nat.mul_pos hnum (tenTo_pos n))]
    refine iff_of_eq (congrArg i.Holds ?_)
    simp only [Decimal.value, tenTo, Nat.pow_eq, zpow_neg, zpow_natCast]
    push_cast
    field_simp

/-- The grid point below the middle. -/
def below (i : Interval) (unitNum unitDen : Nat) (grid : Int) : Nat :=
  (scaleDown (i.middle * unitNum) unitDen grid).1 / (scaleDown (i.middle * unitNum) unitDen grid).2

/-- What is found is one of the two points next to the middle, and lies in the interval; nothing is
found only if neither does. -/
theorem onGrid?_cases (i : Interval) (unitNum unitDen : Nat) (grid : Int) :
    (∃ k, i.onGrid? unitNum unitDen grid = some ⟨k, grid⟩ ∧
      i.inside unitNum unitDen grid k = true) ∨
    i.onGrid? unitNum unitDen grid = none ∧
      i.inside unitNum unitDen grid (i.below unitNum unitDen grid) = false ∧
        i.inside unitNum unitDen grid (i.below unitNum unitDen grid + 1) = false := by
  obtain ⟨prefers, heq⟩ : ∃ prefers : Bool, i.onGrid? unitNum unitDen grid =
      if i.inside unitNum unitDen grid (i.below unitNum unitDen grid) &&
          (prefers || !i.inside unitNum unitDen grid (i.below unitNum unitDen grid + 1)) then
        some ⟨i.below unitNum unitDen grid, grid⟩
      else if i.inside unitNum unitDen grid (i.below unitNum unitDen grid + 1) then
        some ⟨i.below unitNum unitDen grid + 1, grid⟩
      else none := ⟨_, rfl⟩
  rw [heq]
  cases hbelow : i.inside unitNum unitDen grid (i.below unitNum unitDen grid) <;>
    cases habove : i.inside unitNum unitDen grid (i.below unitNum unitDen grid + 1) <;>
    cases prefers <;> simp [hbelow, habove]

theorem Holds.of_lt {x : ℚ} (hlow : i.low < x) (hhigh : x < i.high) : i.Holds x := by
  rw [Holds]
  split
  · exact ⟨hlow.le, hhigh.le⟩
  · exact ⟨hlow, hhigh⟩

/-- The middle lies between the two points next to it. -/
theorem middle_bounds (i : Interval) (hnum : 0 < unitNum) (hden : 0 < unitDen) (grid : Int) :
    (⟨i.below unitNum unitDen grid, grid⟩ : Decimal).value / (unitNum / unitDen) ≤ i.middle ∧
      i.middle < (⟨i.below unitNum unitDen grid + 1, grid⟩ : Decimal).value /
        (unitNum / unitDen) := by
  have hunit : (0 : ℚ) < unitNum / unitDen := by positivity
  have hgrid : (0 : ℚ) < 10 ^ grid := by positivity
  have hscaled := scaleDown_eq (i.middle * unitNum) unitDen grid
  have hfloor : ⌊((i.middle * unitNum : Nat) / unitDen / 10 ^ grid : ℚ)⌋₊ =
      i.below unitNum unitDen grid := by
    rw [← hscaled, Nat.floor_div_eq_div, below]
  have hmiddle : ((i.middle * unitNum : Nat) / unitDen / 10 ^ grid : ℚ) =
      i.middle * (unitNum / unitDen) / 10 ^ grid := by
    push_cast
    ring
  rw [hmiddle] at hfloor
  rw [div_le_iff₀ hunit, lt_div_iff₀ hunit, Decimal.value, Decimal.value, ← le_div_iff₀ hgrid,
    ← div_lt_iff₀ hgrid, ← hfloor]
  exact ⟨Nat.floor_le (by positivity), by exact_mod_cast Nat.lt_floor_add_one _⟩

/-- A grid that is finer than the interval has a point next to the middle in it. -/
theorem exists_onGrid? (hnum : 0 < unitNum) (hden : 0 < unitDen) (hlow : i.low < i.middle)
    (hhigh : i.middle < i.high)
    (hfine : (10 : ℚ) ^ grid < (i.high - i.low) * (unitNum / unitDen)) :
    ∃ k, i.onGrid? unitNum unitDen grid = some ⟨k, grid⟩ ∧
      i.Holds ((⟨k, grid⟩ : Decimal).value / (unitNum / unitDen)) := by
  rcases onGrid?_cases i unitNum unitDen grid with ⟨k, hk, hinside⟩ | ⟨-, hbelow, habove⟩
  · exact ⟨k, hk, (inside_iff hnum hden k).1 hinside⟩
  · exfalso
    rw [← Bool.not_eq_true, inside_iff hnum hden] at hbelow habove
    obtain ⟨hle, hlt⟩ := middle_bounds i hnum hden grid
    have hunit : (0 : ℚ) < unitNum / unitDen := by positivity
    have hlowq : (i.low : ℚ) < i.middle := by exact_mod_cast hlow
    have hhighq : (i.middle : ℚ) < i.high := by exact_mod_cast hhigh
    have hless := not_lt.1 fun h => hbelow (.of_lt h (hle.trans_lt hhighq))
    have hmore := not_lt.1 fun h => habove (.of_lt (hlowq.trans hlt) h)
    have hstep : (⟨i.below unitNum unitDen grid + 1, grid⟩ : Decimal).value / (unitNum / unitDen) =
        (⟨i.below unitNum unitDen grid, grid⟩ : Decimal).value / (unitNum / unitDen) +
          10 ^ grid / (unitNum / unitDen) := by
      simp only [Decimal.value]
      push_cast
      ring
    rw [← div_lt_iff₀ hunit] at hfine
    linarith

/-- The search ends with the first grid that has a point in the interval. -/
theorem holds_search (hnum : 0 < unitNum) (hden : 0 < unitDen) (top : Int) (fuel count : Nat)
    (h : ∃ c, count ≤ c ∧ c < count + fuel ∧
      ∃ d, i.onGrid? unitNum unitDen (top - c) = some d) :
    i.Holds ((i.search unitNum unitDen top fuel count).value / (unitNum / unitDen)) ∧
      top - (count + fuel : Nat) ≤ (i.search unitNum unitDen top fuel count).exponent := by
  induction fuel generalizing count with
  | zero =>
      obtain ⟨c, hge, hlt, -⟩ := h
      omega
  | succ fuel ih =>
      rw [search]
      rcases onGrid?_cases i unitNum unitDen (top - count) with ⟨k, hk, hinside⟩ | ⟨hnone, -⟩
      · obtain ⟨hvalue, hexponent⟩ := Decimal.value_trim 20 ⟨k, top - count⟩
        simp only [hk]
        rw [hvalue]
        exact ⟨(inside_iff hnum hden k).1 hinside, by simp only at hexponent; omega⟩
      · obtain ⟨c, hge, hlt, d, hd⟩ := h
        have hne : c ≠ count := by
          rintro rfl
          rw [hnone] at hd
          cases hd
        obtain ⟨hholds, hexponent⟩ := ih (count + 1) ⟨c, by omega, by omega, d, hd⟩
        simp only [hnone]
        exact ⟨hholds, by omega⟩

end Interval

/-! ### Doubles -/

section Shortest

variable {m e : Nat}

theorem IsParts.low_lt (h : IsParts m e) : (Interval.of m e).low < (Interval.of m e).middle := by
  have := h.pos
  simp only [Interval.of]
  split <;> omega

/-- Of a double with so many bits, the grid of the seventeenth digit is finer than the interval. -/
theorem IsParts.fine (h : IsParts m e) :
    ((Interval.of m e).middle : ℚ) <
      10 ^ 16 * ((Interval.of m e).high - (Interval.of m e).low) := by
  obtain ⟨hpos, hlt, -, -⟩ := h
  have hbits : 2 * twoTo 52 = 2 ^ 53 := rfl
  have hlow : (Interval.of m e).middle + 10 ^ 16 * (Interval.of m e).low <
      10 ^ 16 * (Interval.of m e).high := by
    simp only [Interval.of]
    split
    · next hm =>
        rw [hm.1]
        decide
    · omega
  have : ((Interval.of m e).middle + 10 ^ 16 * (Interval.of m e).low : ℚ) <
      10 ^ 16 * (Interval.of m e).high := by exact_mod_cast hlow
  linarith

/-- The unit of a quarter of the last place as a quotient. -/
theorem exists_unit (e : Nat) : ∃ num den : Nat, 0 < num ∧ 0 < den ∧ (num / den : ℚ) = quarter e ∧
    ∀ m, 0 < m → shortest m e = (Interval.of m e).search num den
      (powerAbove ((Interval.of m e).middle * num) den
        (decimalPlaces (m.log2 + e - unitBits))) 17 1 := by
  let shift : Int := e - unitBits - 2
  refine ⟨if 0 ≤ shift then twoTo shift.toNat else 1,
    if 0 ≤ shift then 1 else twoTo (-shift).toNat, ?_, ?_, ?_, fun m hm => if_neg hm.ne'⟩
  · split
    · exact twoTo_pos _
    · exact Nat.one_pos
  · split
    · exact Nat.one_pos
    · exact twoTo_pos _
  · show _ = (2 : ℚ) ^ shift
    generalize shift = s
    by_cases hsign : 0 ≤ s
    · obtain ⟨k, rfl⟩ := Int.eq_ofNat_of_zero_le hsign
      simp [twoTo]
    · obtain ⟨k, rfl⟩ : ∃ k : Nat, s = -k := ⟨(-s).toNat, by omega⟩
      rw [if_neg hsign, if_neg hsign, neg_neg, Int.toNat_natCast]
      simp [twoTo]

/-- The power of ten that the search begins below is not far above the double. -/
theorem IsParts.start_le (h : IsParts m e) :
    (10 : ℚ) ^ (decimalPlaces (m.log2 + e - unitBits) - 1) ≤
      (Interval.of m e).middle * quarter e := by
  have hlog : m.log2 < 53 := (Nat.log2_lt h.pos.ne').2 h.lt
  have hfinite := h.finite
  have hbits : (2 : ℚ) ^ m.log2 ≤ m := by exact_mod_cast Nat.log2_self_le h.pos.ne'
  have hmiddle : ((Interval.of m e).middle : ℚ) * quarter e =
      m * 2 ^ ((e : Int) - unitBits) := by
    rw [quarter, zpow_sub₀ two_ne_zero _ 2, Interval.of]
    push_cast
    ring
  have hunits : unitBits = 1074 := rfl
  calc (10 : ℚ) ^ (decimalPlaces (m.log2 + e - unitBits) - 1)
      ≤ 2 ^ ((m.log2 : Int) + e - unitBits) :=
        pow_ten_decimalPlaces_sub_one_le (by omega) (by omega)
    _ = 2 ^ m.log2 * 2 ^ ((e : Int) - unitBits) := by
        rw [add_sub_assoc, zpow_add₀ two_ne_zero, zpow_natCast]
    _ ≤ m * 2 ^ ((e : Int) - unitBits) := by gcongr
    _ = (Interval.of m e).middle * quarter e := hmiddle.symm

/-- The shortest decimal of a double is rounded to the double. -/
theorem IsParts.roundsTo_shortest (h : IsParts m e) :
    RoundsTo m e (shortest m e).value ∧ -1000 ≤ (shortest m e).exponent := by
  obtain ⟨num, den, hnum, hden, hunit, hsearch⟩ := exists_unit e
  have hdouble : (((Interval.of m e).middle * num : Nat) / den : ℚ) =
      (Interval.of m e).middle * quarter e := by
    rw [← hunit]
    push_cast
    ring
  have htop := powerAbove_le hden (hdouble ▸ h.start_le)
  have hleast := le_powerAbove ((Interval.of m e).middle * num) den
    (decimalPlaces (m.log2 + e - unitBits))
  have hstart : -324 ≤ decimalPlaces (m.log2 + e - unitBits) := by
    rw [decimalPlaces, unitBits]
    omega
  rw [hsearch m h.pos]
  generalize powerAbove ((Interval.of m e).middle * num) den
    (decimalPlaces (m.log2 + e - unitBits)) = top at htop hleast
  have hfine : (10 : ℚ) ^ (top - (17 : Nat)) <
      ((Interval.of m e).high - (Interval.of m e).low) * (num / den) := by
    rw [hdouble] at htop
    have hpower : (10 : ℚ) ^ (top - 1) = 10 ^ 16 * 10 ^ (top - (17 : Nat)) := by
      rw [← zpow_ofNat, ← zpow_add₀ (by norm_num)]
      congr 1
      push_cast
      ring
    have hbound := mul_lt_mul_of_pos_right h.fine (quarter_pos e)
    rw [hunit]
    linarith
  obtain ⟨k, hk, -⟩ := Interval.exists_onGrid? hnum hden h.low_lt (by simp [Interval.of]) hfine
  obtain ⟨hholds, hexponent⟩ := Interval.holds_search hnum hden top 17 1
    ⟨17, by decide, by decide, _, hk⟩
  rw [hunit] at hholds
  exact ⟨hholds, by omega⟩

end Shortest

end Tabula.Number
