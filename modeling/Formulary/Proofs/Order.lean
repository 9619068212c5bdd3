import Formulary.Proofs.Rounding

/-!
# Comparing Values

Values of binary64 are compared by their fields: first the signs, then the exponents, then the
mantissas. This module says what that means: finite values compare as the rational numbers that
they stand for, an infinity lies beyond all of them, and what is no number compares with nothing.

## Main results

* `unpack_cases`: the four kinds of values and what they are taken apart into.
* `compare_canonical`: of two canonical values the one with the higher exponent is larger.
* `le_iff`, `lt_iff`: finite values compare as rational numbers.
-/

namespace Formulary.Number

open Float.Model (UnpackedFloat)
open Float.Model.UnpackedFloat

/-- The **rational number** that a finite value stands for. -/
def toRat (x : Float) : ℚ :=
  (if isNegative x then -1 else 1) * ((magnitude x).m * 2 ^ (magnitude x).q)

/-! ### The kinds of values -/

/-- A finite value other than zero is canonical. -/
theorem canonical_magnitude {x : Float} (hx : isSpecial x = false) (hm : 0 < (magnitude x).m) :
    Canonical (magnitude x).m (magnitude x).q := by
  obtain ⟨hlt, hlow, -, hfull⟩ := magnitude_bounds hx
  exact ⟨hm, hlt, hlow, hfull⟩

/-- **The kinds of values**: no number, an infinity, a zero, or any other finite value. -/
theorem unpack_cases (x : Float) :
    (x.isNaN = true ∧ x.toModel.unpack = .notANumber) ∨
      (isInfinite x = true ∧ x.toModel.unpack = .infinity (signOf x)) ∨
      (isSpecial x = false ∧ (magnitude x).m = 0 ∧ x.toModel.unpack = .zero (signOf x)) ∨
      (isSpecial x = false ∧ ∃ hm : 0 < (magnitude x).m,
        x.toModel.unpack = .finite (signOf x) (magnitude x).m (magnitude x).q hm) := by
  obtain ⟨hm, hq⟩ := magnitude_eq x
  rw [isNaN_iff, unpack_eq, unpackFields]
  by_cases hspecial : exponentField x = 2047
  · by_cases hf : fractionField x = 0
    · exact .inr (.inl ⟨by simp [isInfinite, isSpecial, hspecial, hf], by simp [hspecial, hf]⟩)
    · exact .inl ⟨⟨hspecial, hf⟩, by simp [hspecial, hf]⟩
  · have hfinite : isSpecial x = false := by simpa [isSpecial] using hspecial
    rw [if_neg hspecial]
    by_cases hzero : exponentField x = 0 ∧ fractionField x = 0
    · refine .inr (.inr (.inl ⟨hfinite, ?_, dif_pos hzero⟩))
      rw [hm, if_pos hzero.1, hzero.2]
    · have hpos : 0 < (magnitude x).m := by
        rw [hm]
        split <;> omega
      refine .inr (.inr (.inr ⟨hfinite, hpos, ?_⟩))
      rw [dif_neg hzero]
      simp only [hm, hq]

/-- An infinity is not finite. -/
theorem isSpecial_of_isInfinite {x : Float} (h : isInfinite x = true) : isSpecial x = true :=
  (Bool.and_eq_true_iff.1 h).1

/-- A finite value is a zero or has a mantissa. -/
theorem unpack_finite_cases {x : Float} (hx : isSpecial x = false) :
    ((magnitude x).m = 0 ∧ x.toModel.unpack = .zero (signOf x)) ∨
      ∃ hm : 0 < (magnitude x).m,
        x.toModel.unpack = .finite (signOf x) (magnitude x).m (magnitude x).q hm := by
  rcases unpack_cases x with ⟨h, -⟩ | ⟨h, -⟩ | ⟨-, h⟩ | ⟨-, h⟩
  · rw [isNaN_of_finite hx] at h
    cases h
  · rw [isSpecial_of_isInfinite h] at hx
    cases hx
  · exact .inl h
  · exact .inr h

/-- What a finite value other than zero is taken apart into is its sign and magnitude. -/
theorem magnitude_of_unpack {x : Float} {s : Sign} {m : ℕ} {q : ℤ} {hm : 0 < m}
    (h : x.toModel.unpack = .finite s m q hm) :
    isSpecial x = false ∧ signOf x = s ∧ (magnitude x).m = m ∧ (magnitude x).q = q := by
  rcases unpack_cases x with ⟨-, hx⟩ | ⟨-, hx⟩ | ⟨-, -, hx⟩ | ⟨hfinite, _, hx⟩ <;> rw [h] at hx
  · cases hx
  · cases hx
  · cases hx
  · injection hx with hs hm hq
    exact ⟨hfinite, hs.symm, hm.symm, hq.symm⟩

/-- What a zero is taken apart into is its sign. -/
theorem magnitude_of_unpack_zero {x : Float} {s : Sign} (h : x.toModel.unpack = .zero s) :
    isSpecial x = false ∧ signOf x = s ∧ (magnitude x).m = 0 := by
  rcases unpack_cases x with ⟨-, hx⟩ | ⟨-, hx⟩ | ⟨hfinite, hm, hx⟩ | ⟨-, _, hx⟩ <;> rw [h] at hx
  · cases hx
  · cases hx
  · injection hx with hs
    exact ⟨hfinite, hs.symm, hm⟩
  · cases hx

/-! ### What values stand for -/

/-- The zeros stand for zero. -/
theorem toRat_of_zero {x : Float} (hm : (magnitude x).m = 0) : toRat x = 0 := by
  rw [toRat, hm]
  simp

/-- A positive value stands for its magnitude. -/
theorem toRat_of_positive {x : Float} (hs : signOf x = .positive) :
    toRat x = (magnitude x).m * 2 ^ (magnitude x).q := by
  have hsign : isNegative x = false := by
    rw [Bool.eq_false_iff, ne_eq, isNegative_iff, hs]
    exact Sign.noConfusion
  rw [toRat, hsign, if_neg Bool.false_ne_true, one_mul]

/-- A negative value stands for its magnitude with a minus. -/
theorem toRat_of_negative {x : Float} (hs : signOf x = .negative) :
    toRat x = -((magnitude x).m * 2 ^ (magnitude x).q) := by
  rw [toRat, (isNegative_iff x).2 hs, if_pos rfl, neg_one_mul]

/-- A rational number with a **sign**. -/
def signed (s : Sign) (v : ℚ) : ℚ :=
  match s with
  | .negative => -v
  | .positive => v

/-- A sign does not change the magnitude. -/
theorem abs_signed (s : Sign) {v : ℚ} (hv : 0 ≤ v) : |signed s v| = v := by
  cases s with
  | negative => rw [signed, abs_neg, abs_of_nonneg hv]
  | positive => rw [signed, abs_of_nonneg hv]

/-- A number is negative if its sign is, unless it is zero. -/
theorem signed_neg_iff {s : Sign} {v : ℚ} (hv : 0 < v) : signed s v < 0 ↔ s = .negative := by
  cases s with
  | negative => exact iff_of_true (neg_neg_of_pos hv) rfl
  | positive => exact iff_of_false (not_lt.2 hv.le) Sign.noConfusion

/-- A value stands for its magnitude with its sign. -/
theorem toRat_eq_signed (x : Float) :
    toRat x = signed (signOf x) ((magnitude x).m * 2 ^ (magnitude x).q) := by
  cases hs : signOf x with
  | negative => exact toRat_of_negative hs
  | positive => exact toRat_of_positive hs

/-- A value stands for zero only if it has no mantissa. -/
theorem toRat_ne_zero_iff {x : Float} : toRat x ≠ 0 ↔ 0 < (magnitude x).m := by
  refine ⟨fun h => Nat.pos_of_ne_zero fun hm => h (toRat_of_zero hm), fun hm => abs_pos.1 ?_⟩
  rw [toRat_eq_signed, abs_signed _ (by positivity)]
  positivity

/-- A value that is not negative stands for no negative number. -/
theorem toRat_nonneg {x : Float} (h : isNegative x = false) : 0 ≤ toRat x := by
  rw [toRat, h, if_neg Bool.false_ne_true, one_mul]
  positivity

/-- A negative value stands for no positive number. -/
theorem toRat_nonpos {x : Float} (h : isNegative x = true) : toRat x ≤ 0 := by
  rw [toRat, h, if_pos rfl, neg_one_mul, neg_nonpos]
  positivity

/-- The sign of a finite value other than zero is that of its number. -/
theorem isNegative_eq_decide {x : Float} (hne : toRat x ≠ 0) :
    isNegative x = decide (toRat x < 0) := by
  have hpos : (0 : ℚ) < (magnitude x).m * 2 ^ (magnitude x).q :=
    mul_pos (by exact_mod_cast toRat_ne_zero_iff.1 hne) (two_zpow_pos _)
  rw [Bool.eq_iff_iff, isNegative_iff, decide_eq_true_eq, toRat_eq_signed, signed_neg_iff hpos]

/-! ### Comparing -/

/-- **The higher exponent decides.** Canonical values compare as the numbers that they stand for. -/
theorem compare_canonical {m n : ℕ} {q r : ℤ} (hm : Canonical m q) (hn : Canonical n r) :
    (compare q r).then (compare m n) = compare ((m : ℚ) * 2 ^ q) (n * 2 ^ r) := by
  -- above a lower exponent the mantissa is full, so a mantissa of 53 bits does not reach it
  have higher {m n : ℕ} {q r : ℤ} (hm : Canonical m q) (hn : Canonical n r) (hqr : q < r) :
      (m : ℚ) * 2 ^ q < n * 2 ^ r := by
    obtain ⟨-, hlt, hlow, -⟩ := hm
    have hfull : (2 : ℚ) ^ 52 ≤ n := by exact_mod_cast hn.2.2.2.resolve_left (by omega)
    calc (m : ℚ) * 2 ^ q < 2 ^ 53 * 2 ^ q :=
          mul_lt_mul_of_pos_right (by exact_mod_cast hlt) (two_zpow_pos q)
      _ = 2 ^ 52 * 2 ^ (q + 1) := by rw [zpow_add_one₀ (by norm_num)]; ring
      _ ≤ 2 ^ 52 * 2 ^ r :=
          mul_le_mul_of_nonneg_left (zpow_le_zpow_right₀ (by norm_num) hqr) (by norm_num)
      _ ≤ n * 2 ^ r := mul_le_mul_of_nonneg_right hfull (two_zpow_pos r).le
  rcases lt_trichotomy q r with hqr | rfl | hqr
  · rw [compare_lt_iff_lt.2 hqr, compare_lt_iff_lt.2 (higher hm hn hqr)]
    rfl
  · have hunit := two_zpow_pos q
    rw [compare_eq_iff_eq.2 rfl, Ordering.then]
    rcases lt_trichotomy m n with hmn | rfl | hmn
    · rw [compare_lt_iff_lt.2 hmn, compare_lt_iff_lt.2]
      exact mul_lt_mul_of_pos_right (by exact_mod_cast hmn) hunit
    · rw [compare_eq_iff_eq.2 rfl, compare_eq_iff_eq.2 rfl]
    · rw [compare_gt_iff_gt.2 hmn, compare_gt_iff_gt.2]
      exact mul_lt_mul_of_pos_right (by exact_mod_cast hmn) hunit
  · rw [compare_gt_iff_gt.2 hqr, compare_gt_iff_gt.2 (higher hn hm hqr)]
    rfl

/-- Minuses turn a comparison round. -/
theorem compare_neg_neg (a b : ℚ) : compare (-a) (-b) = (compare a b).swap := by
  rcases lt_trichotomy a b with h | rfl | h
  · rw [compare_lt_iff_lt.2 h, compare_gt_iff_gt.2 (neg_lt_neg h)]
    rfl
  · rw [compare_eq_iff_eq.2 rfl, compare_eq_iff_eq.2 rfl]
    rfl
  · rw [compare_gt_iff_gt.2 h, compare_lt_iff_lt.2 (neg_lt_neg h)]
    rfl

/-- **Finite values compare as rational numbers.** -/
theorem compare_eq {x y : Float} (hx : isSpecial x = false) (hy : isSpecial y = false) :
    x.toModel.unpack.compare y.toModel.unpack = some (compare (toRat x) (toRat y)) := by
  have positive {x : Float} (hm : 0 < (magnitude x).m) :
      (0 : ℚ) < (magnitude x).m * 2 ^ (magnitude x).q :=
    mul_pos (by exact_mod_cast hm) (two_zpow_pos _)
  rcases unpack_finite_cases hx with ⟨hm, hux⟩ | ⟨hm, hux⟩ <;>
    rcases unpack_finite_cases hy with ⟨hn, huy⟩ | ⟨hn, huy⟩ <;> rw [hux, huy]
  · rw [toRat_of_zero hm, toRat_of_zero hn, compare_eq_iff_eq.2 rfl]
    rfl
  · have hpos := positive hn
    rw [toRat_of_zero hm]
    cases hs : signOf y with
    | positive => rw [toRat_of_positive hs, compare_lt_iff_lt.2 hpos]; rfl
    | negative => rw [toRat_of_negative hs, compare_gt_iff_gt.2 (neg_neg_of_pos hpos)]; rfl
  · have hpos := positive hm
    rw [toRat_of_zero hn]
    cases hs : signOf x with
    | positive => rw [toRat_of_positive hs, compare_gt_iff_gt.2 hpos]; rfl
    | negative => rw [toRat_of_negative hs, compare_lt_iff_lt.2 (neg_neg_of_pos hpos)]; rfl
  · have hposx := positive hm
    have hposy := positive hn
    have hcompare := compare_canonical (canonical_magnitude hx hm) (canonical_magnitude hy hn)
    cases hsx : signOf x with
    | positive =>
        rw [toRat_of_positive hsx]
        cases hsy : signOf y with
        | positive => rw [toRat_of_positive hsy, ← hcompare]; rfl
        | negative => rw [toRat_of_negative hsy, compare_gt_iff_gt.2 (by linarith)]; rfl
    | negative =>
        rw [toRat_of_negative hsx]
        cases hsy : signOf y with
        | positive => rw [toRat_of_positive hsy, compare_lt_iff_lt.2 (by linarith)]; rfl
        | negative => rw [toRat_of_negative hsy, compare_neg_neg, ← hcompare]; rfl

/-! ### The orders of values -/

/-- What `≤` goes by. -/
theorem le_iff_compare (x y : Float) :
    x ≤ y ↔ (x.toModel.unpack.compare y.toModel.unpack).any (·.isLE) = true := by
  show decide (_ = true) = true ↔ _
  rw [decide_eq_true_eq]
  rfl

/-- What `<` goes by. -/
theorem lt_iff_compare (x y : Float) :
    x < y ↔ (x.toModel.unpack.compare y.toModel.unpack == some .lt) = true := by
  show decide (_ = true) = true ↔ _
  rw [decide_eq_true_eq]
  rfl

/-- Finite values are ordered as rational numbers. -/
theorem le_iff {x y : Float} (hx : isSpecial x = false) (hy : isSpecial y = false) :
    x ≤ y ↔ toRat x ≤ toRat y := by
  rw [le_iff_compare, compare_eq hx hy, Option.any_some, ← compare_le_iff_le,
    Ordering.isLE_iff_ne_gt]

/-- Finite values are strictly ordered as rational numbers. -/
theorem lt_iff {x y : Float} (hx : isSpecial x = false) (hy : isSpecial y = false) :
    x < y ↔ toRat x < toRat y := by
  rw [lt_iff_compare, compare_eq hx hy, ← compare_lt_iff_lt]
  simp

/-- Only numbers are ordered. -/
theorem isNaN_of_le {x y : Float} (h : x ≤ y) : x.isNaN = false ∧ y.isNaN = false := by
  rw [le_iff_compare] at h
  show x.toModel.unpack.isNaN = false ∧ y.toModel.unpack.isNaN = false
  cases hx : x.toModel.unpack <;> cases hy : y.toModel.unpack <;> rw [hx, hy] at h <;>
    first | exact ⟨rfl, rfl⟩ | cases h

/-- An infinity is taken apart into its sign. -/
theorem unpack_of_isInfinite {x : Float} (h : isInfinite x = true) :
    x.toModel.unpack = .infinity (signOf x) := by
  have hspecial := isSpecial_of_isInfinite h
  rcases unpack_cases x with ⟨hx, -⟩ | ⟨-, hx⟩ | ⟨hx, -⟩ | ⟨hx, -⟩
  · simp only [isInfinite, Bool.and_eq_true, beq_iff_eq] at h
    exact absurd h.2 ((isNaN_iff x).1 hx).2
  · exact hx
  · rw [hspecial] at hx
    cases hx
  · rw [hspecial] at hx
    cases hx

/-- The values that are taken apart into an infinity. -/
theorem unpack_eq_infinity_iff {x : Float} {s : Sign} :
    x.toModel.unpack = .infinity s ↔ isInfinite x = true ∧ signOf x = s := by
  constructor
  · intro h
    rcases unpack_cases x with ⟨-, hx⟩ | ⟨hinfinite, hx⟩ | ⟨-, -, hx⟩ | ⟨-, _, hx⟩ <;>
      rw [h] at hx
    · cases hx
    · injection hx with hs
      exact ⟨hinfinite, hs.symm⟩
    · cases hx
    · cases hx
  · rintro ⟨hinfinite, rfl⟩
    exact unpack_of_isInfinite hinfinite

/-- Of the infinities, the positive one lies above all finite values and the other one below. -/
theorem le_of_isInfinite {x y : Float} (hx : isSpecial x = false) (hy : isInfinite y = true) :
    x ≤ y ↔ signOf y = .positive := by
  rw [le_iff_compare, unpack_of_isInfinite hy]
  rcases unpack_finite_cases hx with ⟨-, hux⟩ | ⟨_, hux⟩ <;> rw [hux] <;>
    cases signOf y <;> simp [UnpackedFloat.compare, Ordering.isLE]

/-- Only the negative infinity lies strictly below finite values. -/
theorem lt_of_isInfinite {x y : Float} (hx : isInfinite x = true) (hy : isSpecial y = false) :
    x < y ↔ signOf x = .negative := by
  rw [lt_iff_compare, unpack_of_isInfinite hx]
  rcases unpack_finite_cases hy with ⟨-, huy⟩ | ⟨_, huy⟩ <;> rw [huy] <;>
    cases signOf x <;> simp [UnpackedFloat.compare]

end Formulary.Number
