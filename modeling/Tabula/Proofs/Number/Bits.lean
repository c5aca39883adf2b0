import Mathlib
import Tabula.Proofs.Value.Standing

/-!
The bits of doubles. Below the exponent that infinities and what is no number have, a double is its
sign and one number, its magnitude, in which the exponent counts pieces of `2 ^ 52`: the larger the
magnitude, the larger the double, and every magnitude is one of a double.
-/

namespace Tabula.Number

open Float.Model

/-- The exponent field is not full. -/
theorem isFinite_unpack (b : BitVec 64) :
    (UnpackedFloat.unpack .binary64 b).isFinite = true ↔ b.toNat / twoTo 52 % twoTo 11 ≠ 2047 := by
  have hfull : @UnpackedFloat.unpackExponent .binary64 b = -1#11 ↔
      b.toNat / twoTo 52 % twoTo 11 = 2047 := by
    rw [BitVec.toNat_eq, unpackExponent_toNat]
    rfl
  rw [ne_eq, ← hfull]
  delta UnpackedFloat.unpack
  dsimp only
  rw [apply_ite UnpackedFloat.isFinite, apply_ite UnpackedFloat.isFinite,
    apply_ite UnpackedFloat.isFinite, apply_dite UnpackedFloat.isFinite]
  show (if _ then if _ then false else false else if _ then if _ then true else true
    else true) = true ↔ _
  simp

theorem isFinite_iff (x : Float) :
    x.isFinite = true ↔ x.toBits.toNat / twoTo 52 % twoTo 11 ≠ 2047 :=
  isFinite_unpack x.toModel.toBits.toBitVec

/-- Bits are kept where they are not those of an infinity or of what is no number. -/
theorem pack_unpack_bits {bits : UInt64} (h : bits.toNat / twoTo 52 % twoTo 11 ≠ 2047) :
    UnpackedFloat.pack .binary64 (UnpackedFloat.unpack .binary64 bits.toBitVec) =
      bits.toBitVec := by
  have hnan : @UnpackedFloat.isNaNBits .binary64 bits.toBitVec = false := by
    rw [UnpackedFloat.isNaNBits, decide_eq_false_iff_not]
    rintro ⟨hfull, -⟩
    have hfield := unpackExponent_toNat bits.toBitVec
    rw [hfull] at hfield
    exact h hfield.symm
  rw [UnpackedFloat.pack_unpack, hnan]
  rfl

theorem toBits_ofBits {bits : UInt64} (h : bits.toNat / twoTo 52 % twoTo 11 ≠ 2047) :
    (Float.ofBits bits).toBits = bits :=
  congrArg UInt64.ofBitVec (pack_unpack_bits h)

/-- The magnitudes of finite doubles. -/
def magnitudes : Nat := 2047 * twoTo 52

/-- The bits of a sign and a magnitude. -/
def signed (negative : Bool) (magnitude : Nat) : Nat :=
  if negative then twoTo 63 + magnitude else magnitude

/-- The double of a sign and a magnitude. -/
def ofMagnitude (negative : Bool) (magnitude : Nat) : Float :=
  Float.ofBits (UInt64.ofNat (signed negative magnitude))

section Magnitude

variable {negative : Bool} {magnitude : Nat}

theorem field_lt (h : magnitude < magnitudes) : magnitude / twoTo 52 < 2047 := by
  rw [magnitudes, Nat.mul_comm] at h
  exact Nat.div_lt_of_lt_mul h

theorem lt_sign (h : magnitude < magnitudes) : magnitude < twoTo 63 := Nat.lt_trans h (by decide)

theorem field_signed (h : magnitude < twoTo 63) :
    signed negative magnitude / twoTo 52 % twoTo 11 = magnitude / twoTo 52 := by
  have h63 : twoTo 63 = twoTo 52 * twoTo 11 := rfl
  have hlt : magnitude / twoTo 52 < twoTo 11 := Nat.div_lt_of_lt_mul h
  cases negative with
  | false => exact Nat.mod_eq_of_lt hlt
  | true =>
      rw [signed, if_pos rfl, h63, Nat.mul_add_div (twoTo_pos 52)]
      rw [Nat.add_mod_left, Nat.mod_eq_of_lt hlt]

theorem fraction_signed : signed negative magnitude % twoTo 52 = magnitude % twoTo 52 := by
  have h63 : twoTo 63 = twoTo 52 * twoTo 11 := rfl
  cases negative with
  | false => rfl
  | true => rw [signed, if_pos rfl, h63, Nat.mul_add_mod]

theorem sign_signed (h : magnitude < twoTo 63) :
    decide (signed negative magnitude / twoTo 63 = 1) = negative := by
  cases negative with
  | false => simp [signed, Nat.div_eq_of_lt h]
  | true => simp [signed, Nat.add_div_left _ (twoTo_pos 63), Nat.div_eq_of_lt h]

theorem toNat_signed (h : magnitude < twoTo 63) :
    (UInt64.ofNat (signed negative magnitude)).toNat = signed negative magnitude := by
  have h64 : 2 ^ 64 = twoTo 63 + twoTo 63 := rfl
  rw [UInt64.toNat_ofNat']
  refine Nat.mod_eq_of_lt ?_
  rw [h64, signed]
  split <;> omega

theorem toBits_ofMagnitude (h : magnitude < magnitudes) :
    (ofMagnitude negative magnitude).toBits.toNat = signed negative magnitude := by
  have hbits : (UInt64.ofNat (signed negative magnitude)).toNat = signed negative magnitude :=
    toNat_signed (lt_sign h)
  rw [ofMagnitude, toBits_ofBits, hbits]
  rw [hbits, field_signed (lt_sign h)]
  exact Nat.ne_of_lt (field_lt h)

/-- A magnitude is taken apart into the mantissa and the exponent. -/
theorem Parts.of_ofMagnitude (h : magnitude < magnitudes) :
    Parts.of (ofMagnitude negative magnitude) =
      if magnitude < twoTo 52 then .finite negative magnitude 0
      else .finite negative (twoTo 52 + magnitude % twoTo 52) (magnitude / twoTo 52 - 1) := by
  rw [Parts.of, toBits_ofMagnitude h, field_signed (lt_sign h), fraction_signed,
    sign_signed (lt_sign h), if_neg (Nat.ne_of_lt (field_lt h))]
  by_cases hsmall : magnitude < twoTo 52
  · rw [if_pos (Nat.div_eq_of_lt hsmall), if_pos hsmall, Nat.mod_eq_of_lt hsmall]
  · have hfield : magnitude / twoTo 52 ≠ 0 :=
      Nat.ne_of_gt (Nat.div_pos (Nat.not_lt.1 hsmall) (twoTo_pos 52))
    rw [if_neg hfield, if_neg hsmall]

theorem isFinite_ofMagnitude (h : magnitude < magnitudes) :
    (ofMagnitude negative magnitude).isFinite = true := by
  rw [isFinite_iff, toBits_ofMagnitude h, field_signed (lt_sign h)]
  exact Nat.ne_of_lt (field_lt h)

end Magnitude

/-- A finite double is that of its sign and its magnitude. -/
theorem exists_ofMagnitude {x : Float} (h : x.isFinite = true) :
    ∃ negative magnitude, magnitude < magnitudes ∧ x = ofMagnitude negative magnitude := by
  have hlt : x.toBits.toNat < twoTo 63 + twoTo 63 := x.toBits.toNat_lt
  have hfield := (isFinite_iff x).1 h
  have hsplit : ∃ (negative : Bool) (magnitude : Nat), magnitude < twoTo 63 ∧
      x.toBits.toNat = signed negative magnitude := by
    by_cases hsign : x.toBits.toNat < twoTo 63
    · exact ⟨false, x.toBits.toNat, hsign, rfl⟩
    · exact ⟨true, x.toBits.toNat - twoTo 63, by omega, by simp [signed]; omega⟩
  obtain ⟨negative, magnitude, hmagnitude, hbits⟩ := hsplit
  have hdiv : magnitude / twoTo 52 < twoTo 11 := Nat.div_lt_of_lt_mul hmagnitude
  rw [hbits, field_signed hmagnitude] at hfield
  refine ⟨negative, magnitude, ?_, ?_⟩
  · have htop : twoTo 11 = 2047 + 1 := rfl
    exact (Nat.div_lt_iff_lt_mul (twoTo_pos 52)).1 (by omega)
  · rw [ofMagnitude, ← hbits, UInt64.ofNat_toNat, Float.ofBits_toBits]

/-! ### The nearest double -/

/-- The magnitude of the double nearest to a quotient. -/
def nearestMagnitude (num den : Nat) : Nat :=
  let scaled := num <<< unitBits
  let exponent := (scaled / den).log2 - 52
  exponent * twoTo 52 + roundDiv .toEven scaled (den <<< exponent)

theorem nearest?_eq (negative : Bool) (num den : Nat) :
    nearest? negative num den =
      if nearestMagnitude num den < magnitudes then
        some (ofMagnitude negative (nearestMagnitude num den))
      else none :=
  rfl

/-! ### Negation -/

theorem ofBitVec_unpackSign (b : BitVec 64) :
    UnpackedFloat.Sign.ofBitVec (@UnpackedFloat.unpackSign .binary64 b) =
      if b.toNat / twoTo 63 % 2 = 0 then .positive else .negative := by
  have hsign : @UnpackedFloat.unpackSign .binary64 b = 0#1 ↔ b.toNat / twoTo 63 % 2 = 0 := by
    rw [BitVec.toNat_eq]
    simp [UnpackedFloat.unpackSign, Nat.shiftRight_eq_div_pow, twoTo]
  rw [UnpackedFloat.Sign.ofBitVec]
  simp only [hsign]

/-- Bits that differ in the sign are those of a number and its negative. -/
theorem unpack_neg {a b : BitVec 64} (ha : a.toNat / twoTo 63 % 2 = 0)
    (hb : b.toNat / twoTo 63 % 2 = 1)
    (hfield : b.toNat / twoTo 52 % twoTo 11 = a.toNat / twoTo 52 % twoTo 11)
    (hfraction : b.toNat % twoTo 52 = a.toNat % twoTo 52) :
    UnpackedFloat.unpack .binary64 b = (UnpackedFloat.unpack .binary64 a).neg := by
  have hsign : UnpackedFloat.Sign.ofBitVec (@UnpackedFloat.unpackSign .binary64 b) =
      -UnpackedFloat.Sign.ofBitVec (@UnpackedFloat.unpackSign .binary64 a) := by
    rw [ofBitVec_unpackSign, ofBitVec_unpackSign, ha, hb]
    rfl
  have hexponent : @UnpackedFloat.unpackExponent .binary64 b =
      @UnpackedFloat.unpackExponent .binary64 a := by
    rw [BitVec.toNat_eq, unpackExponent_toNat, unpackExponent_toNat, hfield]
  have hmantissa : @UnpackedFloat.unpackMantissa .binary64 b =
      @UnpackedFloat.unpackMantissa .binary64 a := by
    rw [BitVec.toNat_eq, unpackMantissa_toNat, unpackMantissa_toNat, hfraction]
  delta UnpackedFloat.unpack
  dsimp only
  rw [apply_ite UnpackedFloat.neg, apply_ite UnpackedFloat.neg, apply_ite UnpackedFloat.neg,
    apply_dite UnpackedFloat.neg]
  simp only [hsign, hexponent, hmantissa, UnpackedFloat.neg]

theorem neg_ofMagnitude {magnitude : Nat} (h : magnitude < magnitudes) :
    -(ofMagnitude false magnitude) = ofMagnitude true magnitude := by
  have hlt := lt_sign h
  have hfield : (UInt64.ofNat (signed false magnitude)).toNat / twoTo 52 % twoTo 11 ≠ 2047 := by
    rw [toNat_signed hlt, field_signed hlt]
    exact Nat.ne_of_lt (field_lt h)
  have hkept := pack_unpack_bits hfield
  have hneg : UnpackedFloat.unpack .binary64 (UInt64.ofNat (signed true magnitude)).toBitVec =
      (UnpackedFloat.unpack .binary64 (UInt64.ofNat (signed false magnitude)).toBitVec).neg := by
    apply unpack_neg <;> simp only [UInt64.toNat_toBitVec, toNat_signed hlt]
    · rw [signed, if_neg Bool.false_ne_true, Nat.div_eq_of_lt hlt]
    · rw [signed, if_pos rfl, Nat.add_div_left _ (twoTo_pos 63), Nat.div_eq_of_lt hlt]
    · rw [field_signed hlt, field_signed hlt]
    · rw [fraction_signed, fraction_signed]
  show Float.ofModel (Float.Model.pack (UnpackedFloat.unpack .binary64
    (UnpackedFloat.pack .binary64 (UnpackedFloat.unpack .binary64
      (UInt64.ofNat (signed false magnitude)).toBitVec))).neg) = _
  rw [hkept, ← hneg]
  rfl

end Tabula.Number
