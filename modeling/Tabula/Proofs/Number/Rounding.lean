import Tabula.Number.Shortest
import Tabula.Proofs.Number.Bits

/-!
The numbers that round to a double. They lie between the points halfway to its neighbours, and at
these points if its mantissa is even. Whatever lies there is rounded to the double, as a quotient
and as a decimal.
-/

namespace Tabula.Number

/-! ### Rounded quotients -/

/-- The whole numbers within half a unit of a quotient are what it is rounded to, the even one if
there are two. -/
theorem roundDiv_toEven_eq {num den k : Nat} (hden : 0 < den)
    (hlow : 2 * (k * den) ≤ 2 * num + den) (hhigh : 2 * num ≤ 2 * (k * den) + den)
    (heven : k % 2 = 0 ∨ 2 * (k * den) < 2 * num + den ∧ 2 * num < 2 * (k * den) + den) :
    roundDiv .toEven num den = k := by
  have hsplit := Nat.div_add_mod' num den
  have hrest := Nat.mod_lt num hden
  generalize hq : num / den = q at hsplit
  generalize hr : num % den = r at hsplit hrest
  have hnext : (q + 1) * den = q * den + den := by ring
  have hafter : (q + 2) * den = q * den + 2 * den := by ring
  have hle : q ≤ k := by
    by_contra hlt
    have := Nat.mul_le_mul_right den (show k + 1 ≤ q by omega)
    rw [Nat.add_mul] at this
    omega
  have hge : k ≤ q + 1 := by
    by_contra hlt
    have := Nat.mul_le_mul_right den (show q + 2 ≤ k by omega)
    omega
  simp only [roundDiv, hq, hr]
  obtain rfl | rfl : k = q ∨ k = q + 1 := by omega
  · split
    · rfl
    · rw [if_neg (by omega)]
      omega
  · rw [if_neg (by omega)]
    split
    · rfl
    · omega

/-! ### The interval of a double -/

/-- The numbers in the interval. -/
def Interval.Holds (i : Interval) (x : ℚ) : Prop :=
  if i.closed then i.low ≤ x ∧ x ≤ i.high else i.low < x ∧ x < i.high

theorem Interval.contains_iff (i : Interval) {num den : Nat} (hden : 0 < den) :
    i.contains num den = true ↔ i.Holds (num / den) := by
  have hpos : (0 : ℚ) < den := by exact_mod_cast hden
  simp only [contains, Holds, le_div_iff₀ hpos, div_le_iff₀ hpos, lt_div_iff₀ hpos,
    div_lt_iff₀ hpos]
  cases i.closed <;> simp <;> norm_cast

theorem Interval.Holds.bounds {i : Interval} {x : ℚ} (h : i.Holds x) :
    (i.low : ℚ) ≤ x ∧ x ≤ i.high := by
  rw [Holds] at h
  split at h
  · exact h
  · exact ⟨h.1.le, h.2.le⟩

/-- A quarter of the last place of a mantissa, for an exponent. -/
def quarter (e : Nat) : ℚ := 2 ^ ((e : ℤ) - unitBits - 2)

theorem quarter_pos (e : Nat) : 0 < quarter e := by
  rw [quarter]
  positivity

theorem quarter_eq (e : Nat) : quarter e = 2 ^ e / (4 * 2 ^ unitBits) := by
  rw [quarter, zpow_sub₀ two_ne_zero, zpow_sub₀ two_ne_zero, zpow_natCast, zpow_natCast, div_div,
    mul_comm, zpow_ofNat]
  norm_num

/-- The number is rounded to the double with the mantissa and the exponent. -/
def RoundsTo (m e : Nat) (v : ℚ) : Prop := (Interval.of m e).Holds (v / quarter e)

/-- The mantissa and the exponent of a finite double other than zero. -/
structure IsParts (m e : Nat) : Prop where
  pos : 0 < m
  lt : m < 2 * twoTo 52
  full : e ≠ 0 → twoTo 52 ≤ m
  finite : e < 2046

/-- The double with the mantissa and the exponent. -/
def ofParts (negative : Bool) (m e : Nat) : Float := ofMagnitude negative (e * twoTo 52 + m)

theorem IsParts.magnitude_lt {m e : Nat} (h : IsParts m e) : e * twoTo 52 + m < magnitudes := by
  have hlt := h.lt
  have hfinite := Nat.mul_le_mul_right (twoTo 52) (Nat.le_of_lt_succ h.finite)
  have htop : magnitudes = 2045 * twoTo 52 + 2 * twoTo 52 := by rw [magnitudes]; ring
  omega

/-- A magnitude other than zero has its mantissa and its exponent. -/
theorem exists_parts {magnitude : Nat} (hlt : magnitude < magnitudes) (hne : magnitude ≠ 0) :
    ∃ m e, IsParts m e ∧ ∀ negative, ofMagnitude negative magnitude = ofParts negative m e ∧
      Parts.of (ofMagnitude negative magnitude) = .finite negative m e := by
  by_cases hsmall : magnitude < twoTo 52
  · refine ⟨magnitude, 0, ⟨Nat.pos_of_ne_zero hne, by omega, by simp, by decide⟩,
      fun negative => ⟨?_, ?_⟩⟩
    · rw [ofParts, Nat.zero_mul, Nat.zero_add]
    · rw [Parts.of_ofMagnitude hlt, if_pos hsmall]
  · have hsplit := Nat.div_add_mod' magnitude (twoTo 52)
    have hrest := Nat.mod_lt magnitude (twoTo_pos 52)
    have hfield := field_lt hlt
    have hfull : 1 ≤ magnitude / twoTo 52 := Nat.div_pos (Nat.not_lt.1 hsmall) (twoTo_pos 52)
    refine ⟨twoTo 52 + magnitude % twoTo 52, magnitude / twoTo 52 - 1,
      ⟨?_, by omega, fun _ => by omega, by omega⟩, fun negative => ⟨?_, ?_⟩⟩
    · have := twoTo_pos 52
      omega
    · rw [ofParts]
      congr 1
      obtain ⟨k, hk⟩ : ∃ k, magnitude / twoTo 52 = k + 1 := ⟨_, (Nat.sub_add_cancel hfull).symm⟩
      rw [hk, Nat.add_mul, Nat.one_mul] at hsplit
      rw [hk, Nat.add_sub_cancel]
      omega
    · rw [Parts.of_ofMagnitude hlt, if_neg hsmall]

/-- A finite double is a zero, or that of its mantissa and exponent. -/
theorem exists_parts_of_isFinite {x : Float} (h : x.isFinite = true) : ∃ negative m e,
    Parts.of x = .finite negative m e ∧
      (m = 0 ∧ e = 0 ∧ x = ofMagnitude negative 0 ∨ IsParts m e ∧ x = ofParts negative m e) := by
  obtain ⟨negative, magnitude, hlt, rfl⟩ := exists_ofMagnitude h
  by_cases hzero : magnitude = 0
  · subst hzero
    refine ⟨negative, 0, 0, ?_, .inl ⟨rfl, rfl, rfl⟩⟩
    rw [Parts.of_ofMagnitude hlt, if_pos (twoTo_pos 52)]
  · obtain ⟨m, e, hparts, hof⟩ := exists_parts hlt hzero
    exact ⟨negative, m, e, (hof negative).2, .inr ⟨hparts, (hof negative).1⟩⟩

/-- No two have the same number of units. -/
theorem IsParts.eq_of_shiftLeft {m m' e e' : Nat} (h : IsParts m e) (h' : IsParts m' e')
    (heq : m <<< e = m' <<< e') : m = m' ∧ e = e' := by
  -- a mantissa with a larger exponent is full, so it has more units
  have hlt {m m' e e' : Nat} (h : IsParts m e) (h' : IsParts m' e') (he : e < e') :
      m <<< e < m' <<< e' := by
    have hfull := h'.full (Nat.ne_of_gt (Nat.zero_lt_of_lt he))
    rw [Nat.shiftLeft_eq, Nat.shiftLeft_eq]
    calc m * 2 ^ e < 2 * twoTo 52 * 2 ^ e := Nat.mul_lt_mul_of_pos_right h.lt (Nat.two_pow_pos e)
      _ ≤ 2 * m' * 2 ^ e := Nat.mul_le_mul_right _ (Nat.mul_le_mul_left 2 hfull)
      _ = m' * 2 ^ (e + 1) := by ring
      _ ≤ m' * 2 ^ e' := Nat.mul_le_mul_left m' (Nat.pow_le_pow_right (by decide) he)
  rcases Nat.lt_trichotomy e e' with he | rfl | he
  · exact absurd heq (Nat.ne_of_lt (hlt h h' he))
  · rw [Nat.shiftLeft_eq, Nat.shiftLeft_eq] at heq
    exact ⟨Nat.eq_of_mul_eq_mul_right (Nat.two_pow_pos e) heq, rfl⟩
  · exact absurd heq.symm (Nat.ne_of_lt (hlt h' h he))

section Nearest

variable {m e num den : Nat}

/-- The bounds of a quotient that is rounded to a double, in units. -/
theorem RoundsTo.scaled (h : RoundsTo m e (num / den)) (hden : 0 < den) :
    (Interval.of m e).contains (4 * (num * twoTo unitBits)) (den * twoTo e) = true := by
  have hpos : 0 < den * twoTo e := Nat.mul_pos hden (twoTo_pos e)
  rw [Interval.contains_iff _ hpos]
  rw [RoundsTo, quarter_eq] at h
  have hdenq : (den : ℚ) ≠ 0 := by exact_mod_cast hden.ne'
  convert h using 1
  generalize unitBits = b
  simp only [twoTo, Nat.pow_eq]
  push_cast
  field_simp

/-- The bounds of what is rounded to a double, in its last places. -/
structure Halfway (m e s q : Nat) : Prop where
  low : 2 * (m * q) ≤ 2 * s + q
  high : 2 * s ≤ 2 * (m * q) + q
  odd : m % 2 = 0 ∨ 2 * (m * q) < 2 * s + q ∧ 2 * s < 2 * (m * q) + q
  /-- The neighbour below a power of two is nearer. -/
  near : m = twoTo 52 → e ≠ 0 → 4 * (m * q) ≤ 4 * s + q

theorem halfway_of_contains {s q : Nat} (hm : 0 < m)
    (h : (Interval.of m e).contains (4 * s) q = true) : Halfway m e s q := by
  obtain ⟨k, hk, hwhich⟩ : ∃ k, (if m = twoTo 52 ∧ e ≠ 0 then 1 else 2) = k ∧
      (k = 1 ∧ m = twoTo 52 ∨ k = 2 ∧ ¬(m = twoTo 52 ∧ e ≠ 0)) := by
    by_cases hnear : m = twoTo 52 ∧ e ≠ 0
    · exact ⟨1, if_pos hnear, .inl ⟨rfl, hnear.1⟩⟩
    · exact ⟨2, if_neg hnear, .inr ⟨rfl, hnear⟩⟩
  have hbelow : (4 * m - k) * q = 4 * (m * q) - k * q := by rw [Nat.sub_mul, Nat.mul_assoc]
  have hle : k * q ≤ 4 * (m * q) := by
    rw [← Nat.mul_assoc]
    exact Nat.mul_le_mul_right q (by omega)
  have habove : (4 * m + 2) * q = 4 * (m * q) + 2 * q := by ring
  have heven : twoTo 52 % 2 = 0 := rfl
  simp only [Interval.contains, Interval.of, hk, hbelow, habove, decide_eq_true_eq] at h
  obtain ⟨rfl, hm⟩ | ⟨rfl, hnot⟩ := hwhich
  · rw [if_pos (hm ▸ heven), decide_eq_true_eq] at h
    exact ⟨by omega, by omega, .inl (hm ▸ heven), fun _ _ => by omega⟩
  · by_cases hodd : m % 2 = 0
    · rw [if_pos hodd, decide_eq_true_eq] at h
      exact ⟨by omega, by omega, .inl hodd, fun hm he => absurd ⟨hm, he⟩ hnot⟩
    · rw [if_neg hodd, decide_eq_true_eq] at h
      exact ⟨by omega, by omega, .inr (by omega), fun hm he => absurd ⟨hm, he⟩ hnot⟩

theorem shiftLeft_eq_mul (n k : Nat) : n <<< k = n * twoTo k := Nat.shiftLeft_eq n k

theorem twoTo_add (m n : Nat) : twoTo (m + n) = twoTo m * twoTo n := Nat.pow_add 2 m n

theorem twoTo_succ (n : Nat) : twoTo (n + 1) = 2 * twoTo n := Nat.pow_succ'

theorem log2_le {n k : Nat} (h : n < twoTo (k + 1)) : n.log2 ≤ k := by
  by_cases hn : n = 0
  · subst hn
    exact Nat.zero_le k
  · exact Nat.le_of_lt_succ ((Nat.log2_lt hn).2 h)

theorem le_log2 {n k : Nat} (h : twoTo k ≤ n) : k ≤ n.log2 :=
  (Nat.le_log2 (Nat.ne_of_gt (Nat.lt_of_lt_of_le (twoTo_pos k) h))).2 h

/-- The place at which the mantissa of the nearest double ends: that of the double itself or, below
a power of two, the one below it. -/
theorem Halfway.place {s : Nat} (h : Halfway m e s (den * twoTo e)) (hparts : IsParts m e)
    (hden : 0 < den) :
    (s / den).log2 - 52 = e ∧ roundDiv .toEven s (den * twoTo e) = m ∨
      m = twoTo 52 ∧ e ≠ 0 ∧ (s / den).log2 - 52 = e - 1 ∧
        roundDiv .toEven s (den * twoTo (e - 1)) = 2 * twoTo 52 := by
  obtain ⟨hpos, hlt, hfull, -⟩ := hparts
  have hq : 0 < den * twoTo e := Nat.mul_pos hden (twoTo_pos e)
  have hbelow {k : Nat} (hs : s < twoTo k * (den * twoTo e)) : s / den < twoTo (k + e) := by
    rw [Nat.div_lt_iff_lt_mul hden, twoTo_add]
    calc s < twoTo k * (den * twoTo e) := hs
      _ = twoTo k * twoTo e * den := by ring
  have habove {k : Nat} (hs : twoTo k * (den * twoTo e) ≤ s) : twoTo (k + e) ≤ s / den := by
    rw [Nat.le_div_iff_mul_le hden, twoTo_add]
    calc twoTo k * twoTo e * den = twoTo k * (den * twoTo e) := by ring
      _ ≤ s := hs
  have htop : s < twoTo 53 * (den * twoTo e) := by
    have hmost := Nat.mul_le_mul_right (den * twoTo e) (show m + 1 ≤ twoTo 53 from hlt)
    rw [Nat.add_mul] at hmost
    have := h.high
    omega
  have hmost : (s / den).log2 ≤ 52 + e := log2_le (Nat.add_right_comm 52 e 1 ▸ hbelow htop)
  by_cases hlarge : e = 0 ∨ twoTo 52 * (den * twoTo e) ≤ s
  · refine .inl ⟨?_, roundDiv_toEven_eq hq h.low h.high h.odd⟩
    rcases hlarge with rfl | hlarge
    · omega
    · have := le_log2 (habove hlarge)
      omega
  · rw [not_or, Nat.not_le] at hlarge
    obtain ⟨he, hsmall⟩ := hlarge
    obtain rfl : m = twoTo 52 := by
      refine Nat.le_antisymm (Nat.not_lt.1 fun hgt => ?_) (hfull he)
      have hnext := Nat.mul_le_mul_right (den * twoTo e) (Nat.succ_le_of_lt hgt)
      rw [Nat.succ_mul] at hnext
      have := h.low
      omega
    have hnear := h.near rfl he
    have hhalf : twoTo 52 = 2 * twoTo 51 := rfl
    have hleast : twoTo 51 * (den * twoTo e) ≤ s := by
      rw [hhalf, Nat.mul_assoc] at hnear
      have : den * twoTo e ≤ twoTo 51 * (den * twoTo e) := Nat.le_mul_of_pos_left _ (twoTo_pos 51)
      omega
    have hless : (s / den).log2 ≤ 51 + e := log2_le (Nat.add_right_comm 51 e 1 ▸ hbelow hsmall)
    have hmore := le_log2 (habove hleast)
    refine .inr ⟨rfl, he, by omega, ?_⟩
    have hplace : den * twoTo e = 2 * (den * twoTo (e - 1)) := by
      obtain ⟨k, rfl⟩ := Nat.exists_eq_succ_of_ne_zero he
      rw [Nat.succ_sub_one, twoTo_succ]
      ring
    have hcarried : twoTo 52 * (den * twoTo e) = 2 * twoTo 52 * (den * twoTo (e - 1)) := by
      rw [hplace]
      ring
    rw [hcarried] at hsmall hnear
    refine roundDiv_toEven_eq (Nat.mul_pos hden (twoTo_pos _)) ?_ ?_ (.inl rfl)
    · omega
    · omega

/-- What is rounded to a double is its nearest one. -/
theorem RoundsTo.nearest? (h : RoundsTo m e (num / den)) (hparts : IsParts m e) (hden : 0 < den)
    (negative : Bool) : nearest? negative num den = some (ofParts negative m e) := by
  have hhalf := halfway_of_contains hparts.pos (h.scaled hden)
  have hmagnitude : ((num <<< unitBits / den).log2 - 52) * twoTo 52 +
      roundDiv .toEven (num <<< unitBits) (den <<< ((num <<< unitBits / den).log2 - 52)) =
        e * twoTo 52 + m := by
    simp only [shiftLeft_eq_mul]
    rcases hhalf.place hparts hden with ⟨hplace, hround⟩ | ⟨rfl, he, hplace, hround⟩
    · rw [hplace, hround]
    · rw [hplace, hround]
      obtain ⟨k, rfl⟩ := Nat.exists_eq_add_one_of_ne_zero he
      rw [Nat.add_sub_cancel]
      ring
  have hlt : e * twoTo 52 + m < 2047 * twoTo 52 := hparts.magnitude_lt
  simp only [Number.nearest?, hmagnitude, if_pos hlt]
  rfl

end Nearest

/-! ### Decimals -/

/-- Powers of two and of ten with nearly one value compare like their exponents. -/
theorem pow_two_le_pow_ten {p q k : Nat} (hp : 0 < p) (h : 2 ^ p ≤ 10 ^ q) :
    2 ^ k ≤ 10 ^ (k * q / p + 1) := by
  refine (Nat.pow_le_pow_iff_left hp.ne').1 ?_
  have hexponent : q * k ≤ (k * q / p + 1) * p := by
    have := Nat.div_add_mod' (k * q) p
    have := Nat.mod_lt (k * q) hp
    rw [Nat.add_mul, Nat.mul_comm q k]
    omega
  calc (2 ^ k) ^ p = (2 ^ p) ^ k := Nat.pow_right_comm 2 k p
    _ ≤ (10 ^ q) ^ k := Nat.pow_le_pow_left h k
    _ = 10 ^ (q * k) := (Nat.pow_mul 10 q k).symm
    _ ≤ 10 ^ ((k * q / p + 1) * p) := Nat.pow_le_pow_right (by decide) hexponent
    _ = (10 ^ (k * q / p + 1)) ^ p := Nat.pow_mul 10 _ p

theorem pow_ten_le_pow_two {p q k : Nat} (hp : 0 < p) (h : 10 ^ q ≤ 10 * 2 ^ p) (hk : k ≤ p) :
    10 ^ (k * q / p) ≤ 10 * 2 ^ k := by
  refine (Nat.pow_le_pow_iff_left hp.ne').1 ?_
  have hexponent : k * q / p * p ≤ q * k := by
    rw [Nat.mul_comm q k]
    exact Nat.div_mul_le_self _ p
  calc (10 ^ (k * q / p)) ^ p = 10 ^ (k * q / p * p) := (Nat.pow_mul 10 _ p).symm
    _ ≤ 10 ^ (q * k) := Nat.pow_le_pow_right (by decide) hexponent
    _ = (10 ^ q) ^ k := Nat.pow_mul 10 q k
    _ ≤ (10 * 2 ^ p) ^ k := Nat.pow_le_pow_left h k
    _ = 10 ^ k * (2 ^ k) ^ p := by rw [Nat.mul_pow, Nat.pow_right_comm]
    _ ≤ 10 ^ p * (2 ^ k) ^ p := Nat.mul_le_mul_right _ (Nat.pow_le_pow_right (by decide) hk)
    _ = (10 * 2 ^ k) ^ p := (Nat.mul_pow 10 (2 ^ k) p).symm

/-- The count of decimal digits that a count of bits makes up. -/
def decimalPlaces (bits : Int) : Int := bits * 30103 / 100000

theorem pow_ten_decimalPlaces {k : Nat} (hk : k ≤ 100000) :
    (10 : ℚ) ^ decimalPlaces k ≤ 10 * 2 ^ k ∧ (2 : ℚ) ^ k ≤ 10 ^ (decimalPlaces k + 1) := by
  have hplaces : decimalPlaces k = (k * 30103 / 100000 : Nat) := by
    rw [decimalPlaces]
    norm_cast
  have hlow : 2 ^ 100000 ≤ 10 ^ 30103 := by decide +kernel
  have hhigh : 10 ^ 30103 ≤ 10 * 2 ^ 100000 := by decide +kernel
  have htwo := pow_two_le_pow_ten (k := k) (by decide) hlow
  have hten := pow_ten_le_pow_two (by decide) hhigh hk
  generalize k * 30103 / 100000 = f at htwo hten hplaces
  rw [hplaces]
  constructor
  · rw [zpow_natCast]
    exact_mod_cast hten
  · exact_mod_cast htwo

theorem pow_ten_decimalPlaces_sub_one_le {bits : Int} (hlow : -100000 ≤ bits)
    (hhigh : bits ≤ 100000) : (10 : ℚ) ^ (decimalPlaces bits - 1) ≤ 2 ^ bits := by
  obtain ⟨k, rfl | rfl⟩ := bits.eq_nat_or_neg
  · have hten := (pow_ten_decimalPlaces (k := k) (by omega)).1
    rw [zpow_sub_one₀ (by norm_num), zpow_natCast]
    linarith
  · have htwo := (pow_ten_decimalPlaces (k := k) (by omega)).2
    have hplaces : decimalPlaces (-k) - 1 ≤ -(decimalPlaces k + 1) := by
      rw [decimalPlaces, decimalPlaces]
      omega
    calc (10 : ℚ) ^ (decimalPlaces (-k) - 1) ≤ 10 ^ (-(decimalPlaces k + 1)) :=
          zpow_le_zpow_right₀ (by norm_num) hplaces
      _ = (10 ^ (decimalPlaces k + 1))⁻¹ := zpow_neg _ _
      _ ≤ (2 ^ k)⁻¹ := inv_anti₀ (by positivity) htwo
      _ = 2 ^ (-k : Int) := by rw [zpow_neg, zpow_natCast]

section Decimals

variable {m e digits : Nat} {exponent : Int} {v : ℚ}

/-- What is rounded to a double other than zero lies in the range of doubles. -/
theorem RoundsTo.range (h : RoundsTo m e v) (hparts : IsParts m e) :
    (10 : ℚ) ^ (-324 : Int) ≤ v ∧ v ≤ 10 ^ (309 : Int) := by
  obtain ⟨hlow, hhigh⟩ := h.bounds
  rw [le_div_iff₀ (quarter_pos e)] at hlow
  rw [div_le_iff₀ (quarter_pos e)] at hhigh
  obtain ⟨hpos, hlt, -, hfinite⟩ := hparts
  have hleast : 2 ≤ (Interval.of m e).low := by
    simp only [Interval.of]
    split
    · next hm =>
        rw [hm.1]
        decide
    · omega
  have hmost : (Interval.of m e).high ≤ 2 ^ 55 := by
    have htop : 2 * twoTo 52 = 2 ^ 53 := rfl
    simp only [Interval.of]
    omega
  have hsmall : 2 ^ 1075 ≤ 10 ^ 324 := by decide +kernel
  have hlarge : 2 ^ 1024 ≤ 10 ^ 309 := by decide +kernel
  constructor
  · calc (10 : ℚ) ^ (-324 : Int) ≤ 2 ^ (-1075 : Int) := by
          rw [zpow_neg, zpow_neg]
          exact inv_anti₀ (by positivity) (by exact_mod_cast hsmall)
      _ = 2 * 2 ^ (-1076 : Int) := by rw [← zpow_one_add₀ two_ne_zero]; rfl
      _ ≤ (Interval.of m e).low * quarter e := by
          refine mul_le_mul (by exact_mod_cast hleast) ?_ (by positivity) (by positivity)
          exact zpow_le_zpow_right₀ (by norm_num) (by rw [unitBits]; omega)
      _ ≤ v := hlow
  · calc v ≤ (Interval.of m e).high * quarter e := hhigh
      _ ≤ 2 ^ (55 : Int) * 2 ^ (969 : Int) := by
          refine mul_le_mul (by exact_mod_cast hmost) ?_ (quarter_pos e).le (by positivity)
          exact zpow_le_zpow_right₀ (by norm_num) (by rw [unitBits]; omega)
      _ = 2 ^ (1024 : Int) := by rw [← zpow_add₀ two_ne_zero]; rfl
      _ ≤ 10 ^ (309 : Int) := by exact_mod_cast hlarge

theorem log2_le_of_le_pow_ten {n k : Nat} (h : n ≤ 10 ^ k) : n.log2 ≤ 4 * k := by
  refine log2_le ?_
  calc n ≤ 10 ^ k := h
    _ ≤ (2 ^ 4) ^ k := Nat.pow_le_pow_left (by decide) k
    _ = 2 ^ (4 * k) := (Nat.pow_mul 2 4 k).symm
    _ < twoTo (4 * k + 1) := Nat.pow_lt_pow_succ (by decide)

/-- The count of places of a decimal in the range of doubles is near its order of magnitude. -/
theorem places_range (hdigits : digits ≠ 0) (hexponent : -1000 ≤ exponent)
    (hlow : (10 : ℚ) ^ (-324 : Int) ≤ digits * 10 ^ exponent)
    (hhigh : digits * 10 ^ exponent ≤ (10 : ℚ) ^ (309 : Int)) :
    -340 ≤ decimalPlaces (digits.log2 + 1 : Nat) + exponent ∧
      decimalPlaces (digits.log2 + 1 : Nat) + exponent ≤ 320 := by
  have hten : (0 : ℚ) < 10 ^ exponent := by positivity
  have hone : (1 : ℚ) < 10 := by norm_num
  have hbits : (digits : ℚ) ≤ 2 ^ (digits.log2 + 1) := by exact_mod_cast Nat.lt_log2_self.le
  have hbits' : (2 : ℚ) ^ (digits.log2 + 1) ≤ 2 * digits := by
    rw [pow_succ']
    exact_mod_cast Nat.mul_le_mul_left 2 (Nat.log2_self_le hdigits)
  have hshort : digits.log2 + 1 ≤ 100000 := by
    obtain ⟨k, hk, hmany⟩ : ∃ k : Nat, k ≤ 1309 ∧ (digits : ℚ) ≤ 10 ^ (k : Int) := by
      refine ⟨1309, le_rfl, ?_⟩
      calc (digits : ℚ) = digits * 10 ^ exponent * 10 ^ (-exponent) := by
            rw [zpow_neg, mul_inv_cancel_right₀ hten.ne']
        _ ≤ 10 ^ (309 : Int) * 10 ^ (1000 : Int) := by
            refine mul_le_mul hhigh ?_ (by positivity) (by positivity)
            exact zpow_le_zpow_right₀ hone.le (by omega)
        _ = 10 ^ ((1309 : Nat) : Int) := (zpow_add₀ (by norm_num) _ _).symm
    have := log2_le_of_le_pow_ten (n := digits) (k := k) (by exact_mod_cast hmany)
    omega
  obtain ⟨hless, hmore⟩ := pow_ten_decimalPlaces hshort
  generalize decimalPlaces (digits.log2 + 1 : Nat) = f at hless hmore
  constructor
  · have hle : (10 : ℚ) ^ (-324 : Int) ≤ 10 ^ (f + 1 + exponent) := by
      rw [zpow_add₀ (by norm_num)]
      exact hlow.trans (mul_le_mul_of_nonneg_right (hbits.trans hmore) hten.le)
    have := (zpow_le_zpow_iff_right₀ hone).1 hle
    omega
  · have hle : (10 : ℚ) ^ (f + exponent) ≤ 10 ^ (311 : Int) := by
      calc (10 : ℚ) ^ (f + exponent) = 10 ^ f * 10 ^ exponent := zpow_add₀ (by norm_num) _ _
        _ ≤ 10 * (2 * digits) * 10 ^ exponent := by gcongr; linarith
        _ = 20 * (digits * 10 ^ exponent) := by ring
        _ ≤ 10 ^ 2 * 10 ^ (309 : Int) := by gcongr; norm_num
        _ = 10 ^ (311 : Int) := by
            rw [← zpow_ofNat, ← zpow_add₀ (by norm_num)]
            rfl
    have := (zpow_le_zpow_iff_right₀ hone).1 hle
    omega

/-- A decimal that is rounded to a double is read as the double. -/
theorem RoundsTo.ofDecimal (h : RoundsTo m e (digits * 10 ^ exponent)) (hparts : IsParts m e)
    (hexponent : -1000 ≤ exponent) (negative : Bool) :
    ofDecimal negative digits exponent = ofParts negative m e := by
  obtain ⟨hlow, hhigh⟩ := h.range hparts
  have hdigits : digits ≠ 0 := by
    rintro rfl
    have hpos : (0 : ℚ) < 10 ^ (-324 : Int) := zpow_pos (by norm_num) _
    rw [Nat.cast_zero, zero_mul] at hlow
    exact absurd hlow hpos.not_ge
  obtain ⟨hleast, hmost⟩ := places_range hdigits hexponent hlow hhigh
  have hplaces : ((digits.log2 : Int) + 1) * 30103 / 100000 =
      decimalPlaces (digits.log2 + 1 : Nat) := rfl
  clear hlow hhigh
  simp only [Number.ofDecimal, hplaces, if_neg hdigits, if_neg hleast.not_gt, if_neg hmost.not_gt]
  by_cases hsign : 0 ≤ exponent
  · obtain ⟨k, rfl⟩ := Int.eq_ofNat_of_zero_le hsign
    have hq : RoundsTo m e ((digits * tenTo k : Nat) / (1 : Nat)) := by
      simpa [tenTo] using h
    rw [if_pos hsign, Int.toNat_natCast, hq.nearest? hparts Nat.one_pos]
    rfl
  · obtain ⟨k, rfl⟩ : ∃ k : Nat, exponent = -k := ⟨(-exponent).toNat, by omega⟩
    have hq : RoundsTo m e (digits / (tenTo k : Nat)) := by
      simpa [tenTo, div_eq_mul_inv] using h
    rw [if_neg hsign, neg_neg, Int.toNat_natCast, hq.nearest? hparts (tenTo_pos k)]
    rfl

end Decimals

end Tabula.Number
