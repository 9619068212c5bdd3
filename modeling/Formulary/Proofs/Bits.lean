import Formulary.Number.Binary64
import Mathlib

/-!
# The Fields of a Binary64 Value

A value is a word of 64 bits: the sign, eleven bits of exponent and 52 bits of fraction. The
library's functions read these fields off the word, while the arithmetic of values goes through a
form with the sign, a mantissa and an exponent taken apart. This module relates the two: a value
is determined by its fields, changing the sign changes one field, and putting a mantissa and an
exponent together gives the value with that magnitude.

## Main results

* `eq_of_fields`: a value is determined by its three fields.
* `unpack_eq`: what a value is taken apart into, in terms of its fields.
* `fields_neg`, `neg_neg_eq`: the minus changes the sign alone.
* `ofModel_pack_magnitude`: a positive value is put together from its magnitude.
* `isNaN_ofModel_pack`: putting together neither makes nor hides what is no number.
-/

namespace Formulary.Number

open Float.Model (Format UnpackedFloat)
open Float.Model.UnpackedFloat

/-! ### Fields of a word -/

/-- The exponent of a word as a number. -/
theorem toNat_unpackExponent (b : BitVec Format.binary64.numBits) :
    (unpackExponent b).toNat = b.toNat / 2 ^ 52 % 2 ^ 11 := by
  simp [unpackExponent, Nat.shiftRight_eq_div_pow]

/-- The fraction of a word as a number. -/
theorem toNat_unpackMantissa (b : BitVec Format.binary64.numBits) :
    (unpackMantissa b).toNat = b.toNat % 2 ^ 52 := by
  simp [unpackMantissa]

/-- The sign of a word as a number. -/
theorem toNat_unpackSign (b : BitVec Format.binary64.numBits) :
    (unpackSign b).toNat = b.toNat / 2 ^ 63 := by
  have hb : b.toNat < 2 ^ 64 := b.isLt
  simp only [unpackSign, BitVec.toNat_cast, BitVec.extractLsb_toNat, Nat.shiftRight_eq_div_pow]
  exact Nat.mod_eq_of_lt (by omega)

/-- A word as a number, from its three parts. -/
theorem toNat_packComponents (s : Sign) (e : BitVec 11) (f : BitVec 52) :
    (packComponents Format.binary64 s e f).toNat =
      s.toBitVec.toNat * 2 ^ 63 + e.toNat * 2 ^ 52 + f.toNat := by
  simp only [packComponents, BitVec.toNat_append]
  rw [← Nat.shiftLeft_add_eq_or_of_lt f.isLt, ← Nat.shiftLeft_add_eq_or_of_lt e.isLt,
    Nat.shiftLeft_eq, Nat.shiftLeft_eq]
  ring

/-! ### Values taken apart -/

/-- The value with the given sign, exponent field and fraction field, taken apart. -/
def unpackFields (s : Sign) (e f : ℕ) : UnpackedFloat :=
  if e = 2047 then if f = 0 then .infinity s else .notANumber
  else if h : e = 0 ∧ f = 0 then .zero s
  else .finite s (if e = 0 then f else 2 ^ 52 + f) (max (e : ℤ) 1 - 1075) (by split <;> omega)

/-- A word is taken apart into its fields. -/
theorem unpack_eq_unpackFields (b : BitVec Format.binary64.numBits) :
    unpack Format.binary64 b =
      unpackFields (Sign.ofBitVec (unpackSign b)) (b.toNat / 2 ^ 52 % 2 ^ 11)
        (b.toNat % 2 ^ 52) := by
  have he : unpackExponent b = (-1#_) ↔ b.toNat / 2 ^ 52 % 2 ^ 11 = 2047 := by
    rw [← BitVec.toNat_inj, toNat_unpackExponent]
    rfl
  have he0 : unpackExponent b = 0#_ ↔ b.toNat / 2 ^ 52 % 2 ^ 11 = 0 := by
    rw [← BitVec.toNat_inj, toNat_unpackExponent]
    rfl
  have hf0 : unpackMantissa b = 0#_ ↔ b.toNat % 2 ^ 52 = 0 := by
    rw [← BitVec.toNat_inj, toNat_unpackMantissa]
    rfl
  have hbias : (Format.binary64.exponentBias : ℤ) + Format.binary64.mantissaBitsWithoutImplicit =
      1075 := rfl
  have himplicit : (1#1 ++ unpackMantissa b).toNat = 2 ^ 52 + b.toNat % 2 ^ 52 := by
    rw [BitVec.toNat_append, ← Nat.shiftLeft_add_eq_or_of_lt (unpackMantissa b).isLt,
      toNat_unpackMantissa]
    rfl
  have hexponent := toNat_unpackExponent b
  have hmantissa := toNat_unpackMantissa b
  rw [unpack, unpackFields]
  generalize b.toNat / 2 ^ 52 % 2 ^ 11 = e at *
  generalize b.toNat % 2 ^ 52 = f at *
  simp only [he, he0, hf0, hbias, himplicit, hexponent, hmantissa]
  by_cases hspecial : e = 2047
  · rw [if_pos hspecial, if_pos hspecial]
  rw [if_neg hspecial, if_neg hspecial]
  by_cases hsmall : e = 0
  · by_cases hzero : f = 0
    · rw [if_pos hsmall, dif_pos hzero, dif_pos ⟨hsmall, hzero⟩]
    · rw [if_pos hsmall, dif_neg hzero, dif_neg fun h => hzero h.2]
      simp [hsmall]
  · rw [if_neg hsmall, dif_neg fun h => hsmall h.1]
    have : max (e : ℤ) 1 = e := by omega
    simp [hsmall, this]

/-- The bit of a sign. -/
def signBit : Sign → ℕ
  | .negative => 1
  | .positive => 0

/-- Changing the sign of a value that is taken apart. -/
theorem neg_unpackFields (s : Sign) (e f : ℕ) :
    (unpackFields s e f).neg = unpackFields (-s) e f := by
  unfold unpackFields
  split
  · split <;> rfl
  · split <;> rfl

/-- The sign bit of a sign, as it stands in a word. -/
theorem toNat_toBitVec (s : Sign) : s.toBitVec.toNat = signBit s := by
  cases s <;> rfl

/-- The parts of a value with all 53 bits of its mantissa. -/
theorem unpackFields_normal (s : Sign) {m : ℕ} {q : ℤ} (hpos : 0 < m) (hlow : 2 ^ 52 ≤ m)
    (hq : -1074 ≤ q) (hq' : q ≤ 971) :
    unpackFields s (q + 1075).toNat (m - 2 ^ 52) = .finite s m q hpos := by
  have hspecial : (q + 1075).toNat ≠ 2047 := by omega
  have hsmall : (q + 1075).toNat ≠ 0 := by omega
  have hmantissa : 2 ^ 52 + (m - 2 ^ 52) = m := by omega
  have hexponent : max ((q + 1075).toNat : ℤ) 1 - 1075 = q := by omega
  rw [unpackFields, if_neg hspecial, dif_neg fun h => hsmall h.1]
  simp only [if_neg hsmall, hmantissa, hexponent]

/-- The word of a value with the given fields. Putting together what a word was taken apart into
gives the word back, since it is that of a number. -/
theorem toNat_pack_unpackFields (s : Sign) {e f : ℕ} (he : e < 2 ^ 11) (hf : f < 2 ^ 52)
    (hnumber : ¬ (e = 2047 ∧ f ≠ 0)) :
    (pack Format.binary64 (unpackFields s e f)).toNat = signBit s * 2 ^ 63 + e * 2 ^ 52 + f := by
  have hs : signBit s ≤ 1 := by cases s <;> decide
  have hword := toNat_packComponents s (.ofNat 11 e) (.ofNat 52 f)
  rw [toNat_toBitVec, BitVec.toNat_ofNat, BitVec.toNat_ofNat, Nat.mod_eq_of_lt he,
    Nat.mod_eq_of_lt hf] at hword
  generalize hb : packComponents Format.binary64 s (.ofNat 11 e) (.ofNat 52 f) = b at hword
  have hunpack : unpack Format.binary64 b = unpackFields s e f := by
    rw [unpack_eq_unpackFields, ← hb, unpackSign_packComponents, Sign.ofBitVec_toBitVec, hb, hword]
    congr 1 <;> omega
  have hbits : ¬ isNaNBits b = true := by
    have hones : (-BitVec.ofNat Format.binary64.exponentBits 1).toNat = 2047 := rfl
    have hzero : (BitVec.ofNat Format.binary64.mantissaBitsWithoutImplicit 0).toNat = 0 := rfl
    rw [isNaNBits, decide_eq_true_eq, ← BitVec.toNat_inj, ne_eq, ← BitVec.toNat_inj,
      toNat_unpackExponent, toNat_unpackMantissa, hword, hones, hzero]
    rintro ⟨hexponent, hmantissa⟩
    exact hnumber ⟨by omega, by omega⟩
  rw [← hunpack, pack_unpack b, if_neg hbits, hword]

/-! ### Fields of a value -/

/-- The exponent field from the word. -/
theorem exponentField_eq (x : Float) : exponentField x = x.toBits.toNat / 2 ^ 52 % 2 ^ 11 := by
  have hmask : (0x7FF : ℕ) = 2 ^ 11 - 1 := rfl
  simp only [exponentField, UInt64.toNat_and, UInt64.toNat_shiftRight]
  show (x.toBits.toNat >>> 52) &&& 0x7FF = _
  rw [hmask, Nat.and_two_pow_sub_one_eq_mod, Nat.shiftRight_eq_div_pow]

/-- The fraction field from the word. -/
theorem fractionField_eq (x : Float) : fractionField x = x.toBits.toNat % 2 ^ 52 := by
  have hmask : (0xFFFFFFFFFFFFF : ℕ) = 2 ^ 52 - 1 := rfl
  simp only [fractionField, UInt64.toNat_and]
  show x.toBits.toNat &&& 0xFFFFFFFFFFFFF = _
  rw [hmask, Nat.and_two_pow_sub_one_eq_mod]

/-- The sign from the word. -/
theorem isNegative_eq (x : Float) : isNegative x = decide (2 ^ 63 ≤ x.toBits.toNat) := by
  have hx : x.toBits.toNat < 2 ^ 64 := x.toBits.toNat_lt
  have hshift : (x.toBits >>> 63).toNat = x.toBits.toNat / 2 ^ 63 := by
    rw [UInt64.toNat_shiftRight]
    show x.toBits.toNat >>> 63 = _
    rw [Nat.shiftRight_eq_div_pow]
  rw [isNegative, Bool.eq_iff_iff, beq_iff_eq, decide_eq_true_eq, ← UInt64.toNat_inj, hshift]
  show x.toBits.toNat / 2 ^ 63 = 1 ↔ _
  omega

/-- The sign of a value. -/
def signOf (x : Float) : Sign :=
  if isNegative x then .negative else .positive

/-- The fields of a value make up its word. -/
theorem toNat_toBits (x : Float) :
    x.toBits.toNat = signBit (signOf x) * 2 ^ 63 + exponentField x * 2 ^ 52 + fractionField x := by
  have hx : x.toBits.toNat < 2 ^ 64 := x.toBits.toNat_lt
  rw [exponentField_eq, fractionField_eq, signOf, isNegative_eq]
  by_cases h : 2 ^ 63 ≤ x.toBits.toNat
  · simp only [h, decide_true, if_true, signBit]
    omega
  · simp only [h, decide_false, Bool.false_eq_true, if_false, signBit]
    omega

/-- The exponent field has eleven bits and the fraction field has 52. -/
theorem fields_lt (x : Float) : exponentField x < 2 ^ 11 ∧ fractionField x < 2 ^ 52 := by
  rw [exponentField_eq, fractionField_eq]
  omega

/-- Values with equal words are equal. -/
theorem eq_of_toNat_toBits {x y : Float} (h : x.toBits.toNat = y.toBits.toNat) : x = y :=
  Float.toBits_inj.1 (UInt64.toNat_inj.1 h)

/-- **A value is determined by its fields.** -/
theorem eq_of_fields {x y : Float} (hs : isNegative x = isNegative y)
    (he : exponentField x = exponentField y) (hf : fractionField x = fractionField y) : x = y := by
  refine eq_of_toNat_toBits ?_
  rw [toNat_toBits, toNat_toBits y, he, hf, signOf, signOf, hs]

/-- A value is taken apart into its fields. -/
theorem unpack_eq (x : Float) :
    x.toModel.unpack = unpackFields (signOf x) (exponentField x) (fractionField x) := by
  have hx : x.toBits.toNat < 2 ^ 64 := x.toBits.toNat_lt
  have hsign : Sign.ofBitVec (@unpackSign Format.binary64 x.toModel.toBits.toBitVec) =
      signOf x := by
    have hbit : @unpackSign Format.binary64 x.toModel.toBits.toBitVec = 0#1 ↔
        ¬ 2 ^ 63 ≤ x.toBits.toNat := by
      rw [← BitVec.toNat_inj, toNat_unpackSign]
      show x.toBits.toNat / 2 ^ 63 = 0 ↔ _
      omega
    rw [Sign.ofBitVec, signOf, isNegative_eq]
    by_cases h : 2 ^ 63 ≤ x.toBits.toNat
    · rw [if_neg fun h0 => hbit.1 h0 h, if_pos (decide_eq_true h)]
    · rw [if_pos (hbit.2 h), if_neg (by rw [decide_eq_true_eq]; exact h)]
  rw [Float.Model.unpack, unpack_eq_unpackFields, hsign, exponentField_eq, fractionField_eq]
  rfl

/-- A value is no number exactly when its exponent is full and its fraction is not empty. -/
theorem isNaN_iff (x : Float) :
    x.isNaN = true ↔ exponentField x = 2047 ∧ fractionField x ≠ 0 := by
  show x.toModel.unpack.isNaN = true ↔ _
  rw [unpack_eq, unpackFields]
  by_cases hspecial : exponentField x = 2047
  · by_cases hf : fractionField x = 0
    · simp [hspecial, hf, UnpackedFloat.isNaN]
    · simp [hspecial, hf, UnpackedFloat.isNaN]
  · rw [if_neg hspecial]
    split <;> simp [hspecial, UnpackedFloat.isNaN]

/-- A finite value is a number. -/
theorem isNaN_of_finite {x : Float} (h : isSpecial x = false) : x.isNaN = false := by
  rw [Bool.eq_false_iff, ne_eq, isNaN_iff]
  rintro ⟨hspecial, -⟩
  simp [isSpecial, hspecial] at h

/-- A number is special only if it is infinite. -/
theorem isInfinite_eq_isSpecial {x : Float} (hx : x.isNaN = false) :
    isInfinite x = isSpecial x := by
  have hf : exponentField x = 2047 → fractionField x = 0 := by
    intro he
    by_contra hf
    rw [(isNaN_iff x).2 ⟨he, hf⟩] at hx
    cases hx
  cases hspecial : isSpecial x with
  | false => rw [isInfinite, hspecial, Bool.false_and]
  | true =>
      have he : exponentField x = 2047 := by simpa [isSpecial] using hspecial
      rw [isInfinite, hspecial, hf he]
      rfl

/-- The fields of a value from its word. -/
theorem fields_of_toNat_toBits {x : Float} {s : Sign} {e f : ℕ} (he : e < 2 ^ 11) (hf : f < 2 ^ 52)
    (h : x.toBits.toNat = signBit s * 2 ^ 63 + e * 2 ^ 52 + f) :
    signOf x = s ∧ exponentField x = e ∧ fractionField x = f := by
  rw [signOf, isNegative_eq, exponentField_eq, fractionField_eq, h]
  cases s with
  | negative =>
      have hlow : 2 ^ 63 ≤ signBit .negative * 2 ^ 63 + e * 2 ^ 52 + f := by
        simp only [signBit]
        omega
      rw [decide_eq_true hlow, if_pos rfl]
      simp only [signBit, true_and]
      omega
  | positive =>
      have hhigh : ¬ 2 ^ 63 ≤ signBit .positive * 2 ^ 63 + e * 2 ^ 52 + f := by
        simp only [signBit]
        omega
      rw [decide_eq_false hhigh, if_neg (by decide)]
      simp only [signBit, true_and]
      omega

/-- The word of a value that is put together. -/
theorem toNat_toBits_pack (u : UnpackedFloat) :
    (Float.ofModel (Float.Model.pack u)).toBits.toNat = (pack Format.binary64 u).toNat :=
  rfl

/-- The fields of a number are those that it was put together from. -/
theorem unpack_pack_unpackFields (s : Sign) {e f : ℕ} (he : e < 2 ^ 11) (hf : f < 2 ^ 52)
    (hnumber : ¬ (e = 2047 ∧ f ≠ 0)) :
    (Float.Model.pack (unpackFields s e f)).unpack = unpackFields s e f := by
  have hword := toNat_pack_unpackFields s he hf hnumber
  rw [← toNat_toBits_pack] at hword
  obtain ⟨hs, he', hf'⟩ := fields_of_toNat_toBits he hf hword
  have hunpack := unpack_eq (Float.ofModel (.pack (unpackFields s e f)))
  rw [hs, he', hf'] at hunpack
  exact hunpack

/-- A word is the value with its fields. -/
theorem ofBits_eq (s : Sign) {e f : ℕ} (he : e < 2 ^ 11) (hf : f < 2 ^ 52) :
    Float.ofBits (.ofNat (signBit s * 2 ^ 63 + e * 2 ^ 52 + f)) =
      .ofModel (.pack (unpackFields s e f)) := by
  have hs : signBit s ≤ 1 := by cases s <;> decide
  generalize hb : (UInt64.ofNat (signBit s * 2 ^ 63 + e * 2 ^ 52 + f)).toBitVec = b
  have hword : b.toNat = signBit s * 2 ^ 63 + e * 2 ^ 52 + f := by
    rw [← hb, UInt64.toNat_toBitVec, UInt64.toNat_ofNat']
    exact Nat.mod_eq_of_lt (by omega)
  have hsign : @unpackSign Format.binary64 b = s.toBitVec := by
    rw [← BitVec.toNat_inj, toNat_unpackSign, toNat_toBitVec]
    omega
  have hunpack : unpack Format.binary64 b = unpackFields s e f := by
    rw [unpack_eq_unpackFields, hsign, Sign.ofBitVec_toBitVec]
    congr 1 <;> omega
  rw [Float.ofBits, Float.Model.ofBits, hb, hunpack]

/-! ### The minus -/

/-- **The minus changes the sign alone.** -/
theorem fields_neg {x : Float} (hx : x.isNaN = false) :
    signOf (-x) = -signOf x ∧ exponentField (-x) = exponentField x ∧
      fractionField (-x) = fractionField x := by
  obtain ⟨he, hf⟩ := fields_lt x
  have hnumber : ¬ (exponentField x = 2047 ∧ fractionField x ≠ 0) := by
    rw [← isNaN_iff, hx]
    decide
  refine fields_of_toNat_toBits he hf ?_
  show (Float.ofModel (Float.Model.pack x.toModel.unpack.neg)).toBits.toNat = _
  rw [unpack_eq, neg_unpackFields, toNat_toBits_pack, toNat_pack_unpackFields _ he hf hnumber]

/-- The sign of a value and whether it is negative say the same. -/
theorem isNegative_iff (x : Float) : isNegative x = true ↔ signOf x = .negative := by
  cases h : isNegative x <;> simp [signOf, h]

/-- The minus makes no value no number. -/
theorem isNaN_neg {x : Float} (hx : x.isNaN = false) : (-x).isNaN = false := by
  obtain ⟨-, he, hf⟩ := fields_neg hx
  rw [Bool.eq_false_iff, ne_eq, isNaN_iff, he, hf, ← isNaN_iff, hx]
  decide

/-- The minus of a negative value is not negative. -/
theorem isNegative_neg {x : Float} (hx : x.isNaN = false) :
    isNegative (-x) = !isNegative x := by
  have hs := (fields_neg hx).1
  rw [Bool.eq_iff_iff, isNegative_iff, hs, signOf]
  cases isNegative x with
  | true => exact iff_of_false (by intro h; cases h) (by decide)
  | false => exact iff_of_true rfl rfl

/-- Two minuses cancel. -/
theorem neg_neg_eq {x : Float} (hx : x.isNaN = false) : -(-x) = x := by
  obtain ⟨-, he, hf⟩ := fields_neg hx
  obtain ⟨-, he', hf'⟩ := fields_neg (isNaN_neg hx)
  refine eq_of_fields ?_ (he'.trans he) (hf'.trans hf)
  rw [isNegative_neg (isNaN_neg hx), isNegative_neg hx, Bool.not_not]

/-- The minus keeps the magnitude, and infinite values stay infinite. -/
theorem magnitude_neg {x : Float} (hx : x.isNaN = false) :
    magnitude (-x) = magnitude x ∧ isInfinite (-x) = isInfinite x := by
  obtain ⟨-, he, hf⟩ := fields_neg hx
  simp only [magnitude, isInfinite, isSpecial, he, hf, and_self]

/-! ### Putting a value together -/

/-- The magnitude of a value from its fields. -/
theorem magnitude_eq (x : Float) :
    (magnitude x).m = (if exponentField x = 0 then fractionField x
        else 2 ^ 52 + fractionField x) ∧
      (magnitude x).q = max (exponentField x : ℤ) 1 - 1075 := by
  rw [magnitude]
  by_cases he : exponentField x = 0
  · simp [he]
  · have : max (exponentField x : ℤ) 1 = exponentField x := by omega
    simp [he, this]

/-- A positive value is taken apart into its magnitude. -/
theorem unpack_magnitude {x : Float} (hs : isNegative x = false) (hx : isSpecial x = false)
    (hpos : 0 < (magnitude x).m) :
    x.toModel.unpack = .finite .positive (magnitude x).m (magnitude x).q hpos := by
  obtain ⟨hm, hq⟩ := magnitude_eq x
  have hspecial : exponentField x ≠ 2047 := by
    intro h
    rw [isSpecial, h] at hx
    cases hx
  have hzero : ¬ (exponentField x = 0 ∧ fractionField x = 0) := by
    rintro ⟨h0, h0'⟩
    rw [hm, h0, h0'] at hpos
    exact Nat.lt_irrefl 0 hpos
  rw [unpack_eq, signOf, hs, unpackFields, if_neg hspecial, dif_neg hzero]
  simp only [hm, hq]
  rfl

/-- **A positive value is put together from its magnitude.** -/
theorem ofModel_pack_magnitude {x : Float} (hs : isNegative x = false) (hx : isSpecial x = false)
    (hpos : 0 < (magnitude x).m) :
    Float.ofModel (.pack (.finite .positive (magnitude x).m (magnitude x).q hpos)) = x := by
  obtain ⟨he, hf⟩ := fields_lt x
  have hnumber : ¬ (exponentField x = 2047 ∧ fractionField x ≠ 0) := by
    rintro ⟨h, -⟩
    rw [isSpecial, h] at hx
    cases hx
  refine eq_of_toNat_toBits ?_
  rw [← unpack_magnitude hs hx hpos, toNat_toBits_pack, unpack_eq,
    toNat_pack_unpackFields _ he hf hnumber, toNat_toBits x]

/-- The magnitude of a finite value: all bits of the mantissa are used unless the exponent is the
least one. -/
theorem magnitude_bounds {x : Float} (hx : isSpecial x = false) :
    (magnitude x).m < 2 ^ 53 ∧ -1074 ≤ (magnitude x).q ∧ (magnitude x).q ≤ 971 ∧
      ((magnitude x).q = -1074 ∨ 2 ^ 52 ≤ (magnitude x).m) := by
  obtain ⟨he, hf⟩ := fields_lt x
  obtain ⟨hm, hq⟩ := magnitude_eq x
  have hspecial : exponentField x ≠ 2047 := by
    intro h
    rw [isSpecial, h] at hx
    cases hx
  rw [hm, hq]
  split <;> omega

/-- Whether a value that is taken apart is positive: a number without the negative sign. -/
def IsPositive : UnpackedFloat → Prop
  | .infinity s => s = .positive
  | .notANumber => False
  | .zero s => s = .positive
  | .finite s _ _ _ => s = .positive

/-- The word of a number has its sign, and not the fields of what is no number. -/
theorem exists_pack_eq {u : UnpackedFloat} (h : u.isNaN = false) :
    ∃ (s : Sign) (e : BitVec 11) (f : BitVec 52),
      pack Format.binary64 u = packComponents Format.binary64 s e f ∧
        (IsPositive u → s = .positive) ∧ ¬ (e.toNat = 2047 ∧ f.toNat ≠ 0) := by
  cases u with
  | infinity s => exact ⟨s, _, _, rfl, id, by decide⟩
  | notANumber => cases h
  | zero s => exact ⟨s, _, _, rfl, id, by decide⟩
  | finite s m q hpos =>
      rw [pack]
      simp only
      split
      · exact ⟨s, _, _, rfl, id, by decide⟩
      · rename_i hfinite
        split
        · refine ⟨s, _, _, rfl, id, fun hfull => ?_⟩
          have hexponent := hfull.1
          rw [BitVec.toNat_ofNat] at hexponent
          have : ¬ 2 ^ 11 ≤ (q + Format.binary64.exponentBias +
            Format.binary64.mantissaBitsWithoutImplicit).toNat + 1 := hfinite
          omega
        · exact ⟨s, _, _, rfl, id, fun hfull => absurd hfull.1 (by decide)⟩

/-- **A result is a number if it is one before it is put together**, and it keeps its sign. -/
theorem fields_ofModel_pack {u : UnpackedFloat} (h : u.isNaN = false) :
    (IsPositive u → isNegative (.ofModel (.pack u)) = false) ∧
      (Float.ofModel (.pack u)).isNaN = false := by
  obtain ⟨s, e, f, hpack, hpositive, hnumber⟩ := exists_pack_eq h
  have hword : (Float.ofModel (.pack u)).toBits.toNat =
      signBit s * 2 ^ 63 + e.toNat * 2 ^ 52 + f.toNat := by
    rw [toNat_toBits_pack, hpack, toNat_packComponents, toNat_toBitVec]
  obtain ⟨hs, he, hf⟩ := fields_of_toNat_toBits e.isLt f.isLt hword
  refine ⟨fun hu => ?_, ?_⟩
  · rw [Bool.eq_false_iff, ne_eq, isNegative_iff, hs, hpositive hu]
    exact Sign.noConfusion
  · rw [Bool.eq_false_iff, ne_eq, isNaN_iff, he, hf]
    exact hnumber

/-- A positive result is not negative, and it is a number. -/
theorem isNegative_ofModel_pack {u : UnpackedFloat} (h : IsPositive u) :
    isNegative (.ofModel (.pack u)) = false ∧ (Float.ofModel (.pack u)).isNaN = false := by
  have hnumber : u.isNaN = false := by
    cases u <;> first | rfl | exact h.elim
  obtain ⟨hs, hnan⟩ := fields_ofModel_pack hnumber
  exact ⟨hs h, hnan⟩

/-- Whether a result is a number is decided before it is put together. -/
theorem isNaN_ofModel_pack (u : UnpackedFloat) :
    (Float.ofModel (.pack u)).isNaN = u.isNaN := by
  cases h : u.isNaN with
  | false => exact (fields_ofModel_pack h).2
  | true =>
      obtain rfl : u = .notANumber := by
        cases u <;> first | rfl | cases h
      decide

end Formulary.Number
