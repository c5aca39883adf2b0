import Mathlib.Algebra.Ring.Nat
import Tabula.Value.Operations

/-!
Integers rounded to a power of ten. An integer goes to the multiple within half a step of it, and
from halfway between two multiples to the one further from zero. Integers in order go to multiples
in order, so there is only one such multiple; that rounding is odd and does nothing the second time
is then read off the multiple alone.
-/

namespace Tabula.Number

/-- `r` is the multiple of `step` that `n` is rounded to, halves away from zero. -/
structure HalfAway (step : Nat) (n r : Int) : Prop where
  dvd : (step : Int) ∣ r
  near : 2 * (r - n).natAbs ≤ step
  tie : 2 * (r - n).natAbs = step → n.natAbs < r.natAbs

namespace HalfAway

variable {step : Nat} {n n' r r' : Int}

theorem neg (h : HalfAway step n r) : HalfAway step (-n) (-r) := by
  have hdistance : (-r - -n).natAbs = (r - n).natAbs := by omega
  refine ⟨Int.dvd_neg.2 h.dvd, hdistance ▸ h.near, fun htie => ?_⟩
  rw [Int.natAbs_neg, Int.natAbs_neg]
  exact h.tie (hdistance ▸ htie)

theorem of_dvd (hpos : 0 < step) (h : (step : Int) ∣ n) : HalfAway step n n := by
  have hdistance : (n - n).natAbs = 0 := by omega
  exact ⟨h, by omega, fun htie => by omega⟩

/-- Multiples that are out of order are a whole step apart, and so both halfway: the upper one is
further from zero than what lies below it only if it is positive, and the lower one only if it is
negative. -/
theorem mono (hpos : 0 < step) (h : HalfAway step n r) (h' : HalfAway step n' r') (hle : n ≤ n') :
    r ≤ r' := by
  by_contra hlt
  obtain ⟨a, rfl⟩ := h.dvd
  obtain ⟨b, rfl⟩ := h'.dvd
  have hnear := h.near
  have hnear' := h'.near
  have htie := h.tie
  have htie' := h'.tie
  have hnext : (step : Int) * (b + 1) = step * b + step := by rw [Int.mul_add, Int.mul_one]
  have hapart : (step : Int) * (b + 1) ≤ step * a := by
    refine Int.mul_le_mul_of_nonneg_left ?_ (by omega)
    by_contra hab
    exact hlt (Int.mul_le_mul_of_nonneg_left (by omega) (by omega))
  rw [hnext] at hapart
  by_cases hb : b < 0
  · have hupper : (step : Int) * (b + 1) ≤ step * 0 :=
      Int.mul_le_mul_of_nonneg_left (by omega) (by omega)
    rw [hnext, Int.mul_zero] at hupper
    omega
  · have hlower : 0 ≤ (step : Int) * b := Int.mul_nonneg (by omega) (by omega)
    omega

theorem unique (hpos : 0 < step) (h : HalfAway step n r) (h' : HalfAway step n r') : r = r' :=
  Int.le_antisymm (h.mono hpos h' (Int.le_refl n)) (h'.mono hpos h (Int.le_refl n))

end HalfAway

/-- A quotient whose ties go up stays less than half a unit below the exact value. -/
theorem two_mul_lt_roundDiv_up (num : Nat) {den : Nat} (hden : 0 < den) :
    2 * num < 2 * (roundDiv .up num den * den) + den := by
  have hmod := Nat.div_add_mod' num den
  have hlt := Nat.mod_lt num hden
  simp only [roundDiv]
  split
  · omega
  · split <;> rw [Nat.add_mul] <;> omega

theorem halfAway_roundDiv (num : Nat) {step : Nat} (hpos : 0 < step) :
    HalfAway step num ((roundDiv .up num step * step : Nat) : Int) := by
  have hlow := two_mul_lt_roundDiv_up num hpos
  have hhigh := roundDiv_le_two_mul .up num hpos
  refine ⟨Int.natCast_dvd_natCast.2 (Nat.dvd_mul_left ..), by omega, fun htie => ?_⟩
  omega

/-- Before the point, an integer is rounded to the nearest multiple of a power of ten. -/
theorem halfAway_roundInt (n : Int) {places : Int} (h : places < 0) :
    HalfAway (tenTo (-places).toNat) n (roundInt n places) := by
  have hmagnitude := halfAway_roundDiv n.natAbs (tenTo_pos (-places).toNat)
  rw [roundInt, if_neg (by omega)]
  dsimp only
  by_cases hn : 0 ≤ n
  · rw [if_pos hn]
    have habs : (n.natAbs : Int) = n := by omega
    rwa [habs] at hmagnitude
  · rw [if_neg hn]
    have hneg := hmagnitude.neg
    have habs : -(n.natAbs : Int) = n := by omega
    rwa [habs] at hneg

/-- Rounding an integer keeps it where nothing stands after the point, and takes it to the nearest
multiple of a power of ten before the point, halves away from zero. In either case it is odd, keeps
the order, and changes nothing the second time. This is what an expression computes. -/
theorem roundInt_nearest :
    (∀ n places : Int, Value.roundTo (.int n) (.int places) = .ok (.int (roundInt n places))) ∧
    (∀ n places : Int, 0 ≤ places → roundInt n places = n) ∧
    (∀ n places : Int, places < 0 →
      HalfAway (tenTo (-places).toNat) n (roundInt n places)) ∧
    ∀ places : Int,
      (∀ n, roundInt (-n) places = -roundInt n places) ∧
      (∀ n n', n ≤ n' → roundInt n places ≤ roundInt n' places) ∧
      ∀ n, roundInt (roundInt n places) places = roundInt n places := by
  refine ⟨fun _ _ => rfl, fun n places => roundInt_of_nonneg n, fun n places => halfAway_roundInt n,
    fun places => ?_⟩
  by_cases hplaces : 0 ≤ places
  · simp only [roundInt_of_nonneg _ hplaces]
    exact ⟨fun _ => trivial, fun _ _ h => h, fun _ => trivial⟩
  · have hpos := tenTo_pos (-places).toNat
    have hround (n : Int) : HalfAway (tenTo (-places).toNat) n (roundInt n places) :=
      halfAway_roundInt n (by omega)
    refine ⟨fun n => ?_, fun n n' => ?_, fun n => ?_⟩
    · exact (hround (-n)).unique hpos (hround n).neg
    · exact (hround n).mono hpos (hround n')
    · exact (hround (roundInt n places)).unique hpos (.of_dvd hpos (hround n).dvd)

/-- Halfway between a number of three digits and one of four. -/
theorem roundInt_nearest_carry :
    (-1 : Int) < 0 ∧ HalfAway 10 (-995) (-1000) ∧ (-995 : Int) ≤ -994 ∧
      roundInt (-995) (-1) ≤ roundInt (-994) (-1) := by
  have hround : roundInt (-995) (-1) = -1000 := by decide
  have hnearest := roundInt_nearest.2.2.1 (-995) (-1) (by decide)
  rw [hround] at hnearest
  exact ⟨by decide, hnearest, by decide,
    (roundInt_nearest.2.2.2 (-1)).2.1 (-995) (-994) (by decide)⟩

end Tabula.Number
