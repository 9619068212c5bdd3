import Formulary.Proofs.Overflow

/-!
# Adding Values

The sum of two finite values is a whole number of units of the lesser exponent. It is formed
exactly, and then rounded once. This module says what becomes of it: a sum that is itself a value is
not rounded, and any other sum but zero keeps its sign and overflows only if the exact sum does.

## Main results

* `round_eq`, `add_eq`: a result that is a value is not rounded.
* `roundedOnce_add`: the sum of finite values is rounded once.
* `add_cases`: a sum that is not zero keeps its sign, and is finite unless it overflows.
-/

namespace Formulary.Number

open Float.Model (Format UnpackedFloat totalExponent)
open Float.Model.UnpackedFloat

/-! ### Exact results -/

/-- To a lesser exponent a mantissa is filled up with zeros. -/
theorem decreaseExponent_eq (m : ℕ) {q t : ℤ} {k : ℕ} (h : q = t + k) :
    decreaseExponent m q t = (m * 2 ^ k, t) := by
  have hshift : (q - t).toNat = k := by omega
  have hunit : q - k = t := by omega
  rw [decreaseExponent, hshift, Nat.shiftLeft_eq, hunit]

/-- A mantissa filled up with zeros keeps its value. -/
theorem shifted_value (m k : ℕ) (t : ℤ) :
    ((m * 2 ^ k : ℕ) : ℚ) * 2 ^ t = m * 2 ^ (t + k : ℤ) := by
  rw [zpow_add₀ (by norm_num), zpow_natCast]
  push_cast
  ring

/-- A mantissa is filled up with zeros until it is long enough to be rounded. -/
theorem exists_round_eq (s : Sign) {m : ℕ} (hm : 0 < m) (e : ℤ) :
    ∃ (n : ℕ) (f : ℤ), (n : ℚ) * 2 ^ f = m * 2 ^ e ∧ (f ≤ -1074 ∨ 2 ^ 52 ≤ n) ∧
      UnpackedFloat.round Format.binary64 s m e =
        roundWithAccuracy Format.binary64 s n f .exact := by
  obtain ⟨t, ht⟩ : ∃ t, max ((m.log2 : ℤ) + 1 + e - 53) (-1074) = t := ⟨_, rfl⟩
  obtain ⟨k, hk⟩ : ∃ k, (e - t).toNat = k := ⟨_, rfl⟩
  refine ⟨m * 2 ^ k, e - k, ?_, ?_, ?_⟩
  · rw [shifted_value, Int.sub_add_cancel]
  · by_cases hleast : e - k ≤ -1074
    · exact .inl hleast
    · exact .inr (two_pow_le_mul hm (by omega))
  · rw [UnpackedFloat.round, targetExponent_eq, totalExponent, ht, decreaseExponent, hk,
      Nat.shiftLeft_eq]

/-- A canonical value is rounded to itself. -/
theorem roundWithAccuracy_self (s : Sign) {m n : ℕ} {e q : ℤ} (hlong : e ≤ -1074 ∨ 2 ^ 52 ≤ m)
    (hc : Canonical n q) (h : (m : ℚ) * 2 ^ e = n * 2 ^ q) :
    roundWithAccuracy Format.binary64 s m e .exact = .finite s n q hc.1 := by
  have hmeasures : Measures m .exact (n * 2 ^ q / 2 ^ e) := by
    rw [← h]
    exact measures_exact m e
  exact roundWithAccuracy_eq s hmeasures hlong hc (readsAs_self n q)

/-- **A number that is a value is not rounded.** -/
theorem round_eq (s : Sign) {m n : ℕ} {e q : ℤ} (hm : 0 < m) (hc : Canonical n q)
    (h : (m : ℚ) * 2 ^ e = n * 2 ^ q) :
    UnpackedFloat.round Format.binary64 s m e = .finite s n q hc.1 := by
  obtain ⟨p, f, hvalue, hlong, hround⟩ := exists_round_eq s hm e
  rw [hround]
  exact roundWithAccuracy_self s hlong hc (hvalue.trans h)

/-! ### Numbers that are rounded once -/

/-- A mantissa with a sign. -/
theorem cast_apply (s : Sign) (m : ℕ) : ((s.apply m : ℤ) : ℚ) = signed s m := by
  cases s <;> simp [Sign.apply, signed]

/-- A unit may be taken in front of the sign. -/
theorem signed_mul (s : Sign) (v u : ℚ) : signed s v * u = signed s (v * u) := by
  cases s <;> simp [signed]

/-- Whether a result is **rounded once** from a number: an exact mantissa that is long enough is
rounded, with the sign of the number, which is not smaller than the least value. -/
def RoundedOnce (v : ℚ) (u : UnpackedFloat) : Prop :=
  ∃ (s : Sign) (m : ℕ) (e : ℤ), (e ≤ -1074 ∨ 2 ^ 52 ≤ m) ∧ 2 ^ (-1074 : ℤ) ≤ (m : ℚ) * 2 ^ e ∧
    v = signed s (m * 2 ^ e) ∧ u = roundWithAccuracy Format.binary64 s m e .exact

/-- What has a mantissa and an exponent in the range is not smaller than the least value. -/
theorem least_le {m : ℕ} {e : ℤ} (hm : 0 < m) (he : -1074 ≤ e) :
    2 ^ (-1074 : ℤ) ≤ (m : ℚ) * 2 ^ e := by
  have hone : (1 : ℚ) ≤ m := by exact_mod_cast hm
  calc (2 : ℚ) ^ (-1074 : ℤ) ≤ 1 * 2 ^ e := by
        rw [one_mul]
        exact zpow_le_zpow_right₀ one_le_two he
    _ ≤ m * 2 ^ e := mul_le_mul_of_nonneg_right hone (two_zpow_pos e).le

/-- A mantissa other than zero is rounded once. -/
theorem roundedOnce_round (s : Sign) {m : ℕ} {e : ℤ} (hm : 0 < m) (he : -1074 ≤ e) :
    RoundedOnce (signed s (m * 2 ^ e)) (UnpackedFloat.round Format.binary64 s m e) := by
  obtain ⟨n, f, hvalue, hlong, hround⟩ := exists_round_eq s hm e
  exact ⟨s, n, f, hlong, hvalue ▸ least_le hm he, by rw [hvalue], hround⟩

/-- A whole number of units other than zero is rounded once. -/
theorem roundedOnce_normalize {k e : ℤ} (z : Sign) (hk : k ≠ 0) (he : -1074 ≤ e) :
    RoundedOnce (k * 2 ^ e) (UnpackedFloat.normalize Format.binary64 k e z) := by
  rcases hk.lt_or_gt with hneg | hpos
  · obtain ⟨n, hn⟩ := Int.eq_ofNat_of_zero_le (a := -k) (by omega)
    obtain rfl : k = -n := by omega
    rw [UnpackedFloat.normalize, Int.compare_eq_lt.2 hneg]
    have h := roundedOnce_round .negative (m := n) (by omega) he
    simpa [signed] using h
  · obtain ⟨n, rfl⟩ := Int.eq_ofNat_of_zero_le hpos.le
    rw [UnpackedFloat.normalize, Int.compare_eq_gt.2 hpos]
    exact roundedOnce_round .positive (by omega) he

/-- A finite value other than zero is rounded to itself. -/
theorem roundedOnce_unpack {x : Float} (hx : isSpecial x = false) (hm : 0 < (magnitude x).m) :
    RoundedOnce (toRat x) x.toModel.unpack := by
  have hc := canonical_magnitude hx hm
  obtain ⟨-, hq, -, hfull⟩ := magnitude_bounds hx
  have hlong := hfull.imp_left le_of_eq
  refine ⟨signOf x, _, _, hlong, least_le hm hq, toRat_eq_signed x, ?_⟩
  rw [roundWithAccuracy_self (signOf x) hlong hc rfl]
  rcases unpack_finite_cases hx with ⟨hzero, -⟩ | ⟨_, hu⟩
  · omega
  · exact hu

/-- **What a result becomes that is rounded once**: it keeps its sign, and is finite below the bound
and infinite from it on. -/
theorem RoundedOnce.cases {v : ℚ} {u : UnpackedFloat} (h : RoundedOnce v u) {x : Float}
    (hx : x = .ofModel (.pack u)) :
    isNegative x = decide (v < 0) ∧ (|v| < overflowBound ∧ isSpecial x = false ∨
      overflowBound ≤ |v| ∧ isInfinite x = true) := by
  obtain ⟨s, m, e, hlong, hleast, rfl, rfl⟩ := h
  have hpos : (0 : ℚ) < m * 2 ^ e := (two_zpow_pos _).trans_le hleast
  obtain ⟨hs, hcases⟩ := rounded_cases (measures_exact m e) hlong hleast hx
  refine ⟨?_, by rwa [abs_signed s hpos.le]⟩
  rw [Bool.eq_iff_iff, isNegative_iff, hs, decide_eq_true_eq, signed_neg_iff hpos]

/-! ### Sums -/

/-- **A sum is formed in units of the lesser exponent**, without rounding. -/
theorem exists_add_finite_eq (s t : Sign) {m n : ℕ} (q r : ℤ) (hm : 0 < m) (hn : 0 < n) :
    ∃ k : ℤ, (k : ℚ) * 2 ^ min q r = signed s (m * 2 ^ q) + signed t (n * 2 ^ r) ∧
      UnpackedFloat.add Format.binary64 (.finite s m q hm) (.finite t n r hn) =
        UnpackedFloat.normalize Format.binary64 k (min q r) .positive := by
  obtain ⟨i, hi⟩ : ∃ i : ℕ, q = min q r + i := ⟨(q - min q r).toNat, by omega⟩
  obtain ⟨j, hj⟩ : ∃ j : ℕ, r = min q r + j := ⟨(r - min q r).toNat, by omega⟩
  refine ⟨s.apply (m * 2 ^ i : ℕ) + t.apply (n * 2 ^ j : ℕ), ?_, ?_⟩
  · rw [Int.cast_add, cast_apply, cast_apply, add_mul, signed_mul, signed_mul, shifted_value,
      shifted_value, ← hi, ← hj]
  · simp only [UnpackedFloat.add, decreaseExponent_eq m hi, decreaseExponent_eq n hj]

/-- **A sum that is a value is exact.** -/
theorem add_eq {m n p : ℕ} {q r t : ℤ} (hm : 0 < m) (hn : 0 < n) (hc : Canonical p t)
    (h : (m : ℚ) * 2 ^ q + n * 2 ^ r = p * 2 ^ t) :
    UnpackedFloat.add Format.binary64 (.finite .positive m q hm) (.finite .positive n r hn) =
      .finite .positive p t hc.1 := by
  obtain ⟨k, hvalue, hadd⟩ := exists_add_finite_eq .positive .positive q r hm hn
  have hsum : (k : ℚ) * 2 ^ min q r = p * 2 ^ t := hvalue.trans h
  have hpos : 0 < k := by
    have hp : (0 : ℚ) < p := by exact_mod_cast hc.1
    have : (0 : ℚ) < k * 2 ^ min q r := hsum ▸ mul_pos hp (two_zpow_pos t)
    exact_mod_cast pos_of_mul_pos_left this (two_zpow_pos _).le
  obtain ⟨n, rfl⟩ := Int.eq_ofNat_of_zero_le hpos.le
  rw [hadd, UnpackedFloat.normalize, Int.compare_eq_gt.2 hpos]
  exact round_eq .positive (by omega) hc hsum

/-- **A sum of finite values is rounded once**, unless it is zero. -/
theorem roundedOnce_add {x y : Float} (hx : isSpecial x = false) (hy : isSpecial y = false)
    (hne : toRat x + toRat y ≠ 0) :
    RoundedOnce (toRat x + toRat y)
      (UnpackedFloat.add Format.binary64 x.toModel.unpack y.toModel.unpack) := by
  rcases unpack_finite_cases hx with ⟨hm, hux⟩ | ⟨hm, hux⟩ <;>
    rcases unpack_finite_cases hy with ⟨hn, huy⟩ | ⟨hn, huy⟩
  · rw [toRat_of_zero hm, toRat_of_zero hn, add_zero] at hne
    exact absurd rfl hne
  · have hsum := roundedOnce_unpack hy hn
    rw [huy] at hsum
    rw [toRat_of_zero hm, zero_add, hux, huy]
    exact hsum
  · have hsum := roundedOnce_unpack hx hm
    rw [hux] at hsum
    rw [toRat_of_zero hn, add_zero, hux, huy]
    exact hsum
  · obtain ⟨k, hvalue, hadd⟩ := exists_add_finite_eq (signOf x) (signOf y) (magnitude x).q
      (magnitude y).q hm hn
    rw [← toRat_eq_signed, ← toRat_eq_signed] at hvalue
    rw [hux, huy, hadd, ← hvalue]
    refine roundedOnce_normalize .positive ?_ ?_
    · rintro rfl
      rw [Int.cast_zero, zero_mul] at hvalue
      exact hne hvalue.symm
    · exact le_min (magnitude_bounds hx).2.1 (magnitude_bounds hy).2.1

/-- **A sum that is not zero keeps its sign**, and is finite unless the exact sum overflows. -/
theorem add_cases {x y : Float} (hx : isSpecial x = false) (hy : isSpecial y = false)
    (hne : toRat x + toRat y ≠ 0) :
    isNegative (x + y) = decide (toRat x + toRat y < 0) ∧
      (|toRat x + toRat y| < overflowBound ∧ isSpecial (x + y) = false ∨
        overflowBound ≤ |toRat x + toRat y| ∧ isInfinite (x + y) = true) :=
  (roundedOnce_add hx hy hne).cases rfl

end Formulary.Number
