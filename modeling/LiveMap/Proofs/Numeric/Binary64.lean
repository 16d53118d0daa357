import LiveMap.Proofs.Reals
import Mathlib

/-!
# Binary64 numbers and their bits

A binary64 number is its sign, its exponent and its fraction, and every pattern of bits but those
of undefined numbers is the pattern of its own number.

## Main definitions

* `Binary64.sign`, `Binary64.exponent`, `Binary64.fraction`: the fields of a bit pattern.
* `Binary64.value`: the real number that a finite number stands for.

## Main statements

* `Binary64.unpack_toBitVec`: the number from the fields of its bits.
* `Binary64.toBits_ofBits`: only the patterns of undefined numbers are changed.
-/

namespace LiveMap.Binary64

open Float.Model

/-- The real number that a finite number stands for; the other numbers count as zero. -/
noncomputable def value (x : Float) : ℝ :=
  match x.toModel.unpack with
  | .finite sign significand exponent _ => (sign.apply significand : ℝ) * ((2 : ℕ) : ℝ) ^ exponent
  | _ => 0

def sign (bits : UInt64) : UnpackedFloat.Sign :=
  if 1 <<< 63 ≤ bits.toNat then .negative else .positive

def exponent (bits : UInt64) : Nat := bits.toNat >>> 52 % 2048

def fraction (bits : UInt64) : Nat := bits.toNat % (1 <<< 52)

/-- The patterns that stand for no number. -/
def IsUndefined (bits : UInt64) : Prop := exponent bits = 2047 ∧ fraction bits ≠ 0

/-- The digits of a finite number before its exponent is applied. -/
def significand (bits : UInt64) : Nat :=
  if exponent bits = 0 then fraction bits else 1 <<< 52 + fraction bits

/-- The bits as the model of the format takes them. -/
abbrev pattern (bits : UInt64) : BitVec Format.binary64.numBits := bits.toBitVec

theorem fraction_lt (bits : UInt64) : fraction bits < 1 <<< 52 := Nat.mod_lt _ (by decide)

theorem significand_lt (bits : UInt64) : significand bits < 1 <<< 53 := by
  have hfraction := fraction_lt bits
  unfold significand
  split <;> omega

theorem le_significand {bits : UInt64} (h : exponent bits ≠ 0) : 1 <<< 52 ≤ significand bits := by
  rw [significand, if_neg h]
  omega

/-! ## The fields in the model of the format -/

theorem toNat_unpackExponent (bits : UInt64) :
    (UnpackedFloat.unpackExponent (pattern bits)).toNat = exponent bits := by
  simp [UnpackedFloat.unpackExponent, exponent]

theorem toNat_unpackMantissa (bits : UInt64) :
    (UnpackedFloat.unpackMantissa (pattern bits)).toNat = fraction bits := by
  simp [UnpackedFloat.unpackMantissa, fraction]

theorem unpackExponent_eq_iff (bits : UInt64) (e : BitVec 11) :
    UnpackedFloat.unpackExponent (pattern bits) = e ↔ exponent bits = e.toNat := by
  rw [← toNat_unpackExponent]
  exact BitVec.toNat_inj.symm

theorem unpackMantissa_eq_iff (bits : UInt64) (m : BitVec 52) :
    UnpackedFloat.unpackMantissa (pattern bits) = m ↔ fraction bits = m.toNat := by
  rw [← toNat_unpackMantissa]
  exact BitVec.toNat_inj.symm

theorem ofBitVec_unpackSign (bits : UInt64) :
    UnpackedFloat.Sign.ofBitVec (UnpackedFloat.unpackSign (pattern bits)) = sign bits := by
  have hlt := bits.toNat_lt
  have hsign : (UnpackedFloat.unpackSign (pattern bits)).toNat = bits.toNat >>> 63 := by
    simp only [UnpackedFloat.unpackSign, BitVec.toNat_cast, BitVec.extractLsb_toNat,
      UInt64.toNat_toBitVec]
    omega
  unfold sign
  by_cases h : 1 <<< 63 ≤ bits.toNat
  · have hone : bits.toNat >>> 63 = 1 := by omega
    rw [if_pos h, show _ = 1#1 from BitVec.eq_of_toNat_eq (hsign.trans hone)]
    rfl
  · have hzero : bits.toNat >>> 63 = 0 := by omega
    rw [if_neg h, show _ = 0#1 from BitVec.eq_of_toNat_eq (hsign.trans hzero)]
    rfl

theorem toNat_one_append_unpackMantissa (bits : UInt64) :
    (1#1 ++ UnpackedFloat.unpackMantissa (pattern bits)).toNat = 1 <<< 52 + fraction bits := by
  have hlt : fraction bits < 2 ^ 52 := fraction_lt bits
  rw [BitVec.toNat_append, toNat_unpackMantissa, ← Nat.shiftLeft_add_eq_or_of_lt hlt]
  rfl

theorem isNaNBits_iff (bits : UInt64) :
    UnpackedFloat.isNaNBits (pattern bits) = true ↔ IsUndefined bits := by
  rw [UnpackedFloat.isNaNBits, decide_eq_true_eq, unpackExponent_eq_iff bits (-1#11), Ne,
    unpackMantissa_eq_iff bits 0#52]
  rfl

theorem unpack_toBitVec (bits : UInt64) :
    UnpackedFloat.unpack .binary64 bits.toBitVec =
      if exponent bits = 2047 then
        if fraction bits = 0 then .infinity (sign bits) else .notANumber
      else if exponent bits = 0 then
        if h : fraction bits = 0 then .zero (sign bits)
        else .finite (sign bits) (fraction bits) (-1074) (Nat.pos_of_ne_zero h)
      else .finite (sign bits) (1 <<< 52 + fraction bits) (exponent bits - 1075) (by simp) := by
  have hlast := unpackExponent_eq_iff bits (-1#11)
  have hfirst := unpackExponent_eq_iff bits 0#11
  have hzero := unpackMantissa_eq_iff bits 0#52
  have hbias : Format.binary64.exponentBias = 1023 := rfl
  unfold UnpackedFloat.unpack
  simp only [ofBitVec_unpackSign, toNat_unpackExponent, toNat_unpackMantissa, hbias]
  by_cases hexponent : exponent bits = 2047
  · rw [if_pos (hlast.mpr hexponent), if_pos hexponent]
    by_cases hfraction : fraction bits = 0
    · rw [if_pos (hzero.mpr hfraction), if_pos hfraction]
    · rw [if_neg (mt hzero.mp hfraction), if_neg hfraction]
  rw [if_neg (mt hlast.mp hexponent), if_neg hexponent]
  by_cases hexponent : exponent bits = 0
  · rw [if_pos (hfirst.mpr hexponent), if_pos hexponent]
    by_cases hfraction : fraction bits = 0
    · rw [dif_pos (hzero.mpr hfraction), dif_pos hfraction]
    · rw [dif_neg (mt hzero.mp hfraction), dif_neg hfraction, UnpackedFloat.finite.injEq]
      exact ⟨rfl, rfl, by omega⟩
  · rw [if_neg (mt hfirst.mp hexponent), if_neg hexponent, UnpackedFloat.finite.injEq]
    exact ⟨rfl, toNat_one_append_unpackMantissa bits, rfl⟩

/-! ## From bits to a number and back -/

theorem toBitVec_toBits_ofBits (bits : UInt64) :
    (Float.ofBits bits).toBits.toBitVec =
      if UnpackedFloat.isNaNBits (pattern bits) then UnpackedFloat.packedNaN .binary64
      else bits.toBitVec :=
  UnpackedFloat.pack_unpack (pattern bits)

theorem toBits_ofBits {bits : UInt64} (h : ¬ IsUndefined bits) :
    (Float.ofBits bits).toBits = bits := by
  rw [← UInt64.toBitVec_inj, toBitVec_toBits_ofBits, if_neg (mt (isNaNBits_iff bits).mp h)]

theorem isUndefined_ofBits {bits : UInt64} (h : IsUndefined bits) :
    IsUndefined (Float.ofBits bits).toBits := by
  rw [← isNaNBits_iff, pattern, toBitVec_toBits_ofBits, if_pos ((isNaNBits_iff bits).mpr h)]
  exact UnpackedFloat.isNaNBits_packedNaN

/-- There is one undefined number. -/
theorem toBits_eq_of_isUndefined {x y : Float} (hx : IsUndefined x.toBits)
    (hy : IsUndefined y.toBits) : x.toBits = y.toBits := by
  have hnan (z : Float) (hz : IsUndefined z.toBits) :
      z.toBits.toBitVec = UnpackedFloat.packedNaN .binary64 :=
    z.toModel.valid.eq_packedNaN ((unpackExponent_eq_iff _ _).mpr hz.1)
      (mt (unpackMantissa_eq_iff _ _).mp hz.2)
  exact UInt64.toBitVec_inj.mp ((hnan x hx).trans (hnan y hy).symm)

/-! ## What a number is -/

theorem isNaN_iff (x : Float) : x.isNaN = true ↔ IsUndefined x.toBits := by
  have hunpack : x.isNaN = (UnpackedFloat.unpack .binary64 x.toBits.toBitVec).isNaN := rfl
  rw [hunpack, unpack_toBitVec, IsUndefined]
  split_ifs <;> simp_all [UnpackedFloat.isNaN]

theorem isInf_iff (x : Float) :
    x.isInf = true ↔ exponent x.toBits = 2047 ∧ fraction x.toBits = 0 := by
  have hunpack : x.isInf = (UnpackedFloat.unpack .binary64 x.toBits.toBitVec).isInf := rfl
  rw [hunpack, unpack_toBitVec]
  split_ifs <;> simp_all [UnpackedFloat.isInf]

theorem isFinite_iff (x : Float) : x.isFinite = true ↔ exponent x.toBits ≠ 2047 := by
  have hunpack : x.isFinite = (UnpackedFloat.unpack .binary64 x.toBits.toBitVec).isFinite := rfl
  rw [hunpack, unpack_toBitVec]
  split_ifs <;> simp_all [UnpackedFloat.isFinite]

/-- The factor that the sign stands for. -/
def factor (bits : UInt64) : ℤ := (sign bits).apply 1

theorem value_eq {x : Float} (h : exponent x.toBits ≠ 2047) :
    value x = factor x.toBits *
      (significand x.toBits * 2 ^ ((max (exponent x.toBits) 1 : ℕ) - 1075 : ℤ)) := by
  have happly (n : ℕ) : ((sign x.toBits).apply n : ℝ) = factor x.toBits * n := by
    unfold factor
    cases sign x.toBits <;> simp [UnpackedFloat.Sign.apply]
  have hunpack : value x = match UnpackedFloat.unpack .binary64 x.toBits.toBitVec with
      | .finite sign significand exponent _ =>
        (sign.apply significand : ℝ) * ((2 : ℕ) : ℝ) ^ exponent
      | _ => 0 := rfl
  rw [hunpack, unpack_toBitVec, if_neg h, significand]
  by_cases hexponent : exponent x.toBits = 0
  · rw [if_pos hexponent, if_pos hexponent, hexponent]
    by_cases hfraction : fraction x.toBits = 0
    · rw [dif_pos hfraction, hfraction]
      simp
    · rw [dif_neg hfraction]
      simp only [happly, mul_assoc]
      norm_num
  · rw [if_neg hexponent, if_neg hexponent, max_eq_left (by omega)]
    simp only [happly, mul_assoc, Nat.cast_ofNat]

end LiveMap.Binary64
