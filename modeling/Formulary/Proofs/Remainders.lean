import Formulary.Proofs.Frame
import Formulary.Proofs.SafeMode
import Formulary.Proofs.Sums

/-!
# Remainders and the Range

The modulo of two values is a remainder with the sign of the divisor. It is taken in three steps:
the truncated remainder has the sign of the dividend, the divisor is added to it, and the truncated
remainder of the sum has the sign of the divisor. Both remainders are exact. The sum is rounded, and
where the signs agree it is larger than the divisor, which may itself be the greatest value. This
module proves that the result is finite, smaller than the divisor and of its sign, exactly if the
sum does not overflow. Where it does, the result is no number.

## Conventions

Remainders are stated on rational numbers, and do not look at how they are computed.

## Main results

* `Number.toRat_ofMagnitude`: a mantissa of 53 bits in the range is a value.
* `Number.remainder_spec`: the truncated remainder is exact.
* `Formula.run_modulo`: when the modulo is that of the divisor.
-/

namespace Formulary.Number

open Float.Model.UnpackedFloat

/-! ### Remainders of rational numbers -/

/-- A rational number **without its fraction**. -/
def truncated (x : ℚ) : ℤ :=
  if 0 ≤ x then ⌊x⌋ else ⌈x⌉

/-- The **truncated remainder**: what the quotient without its fraction leaves of the dividend. -/
def truncatedRemainder (x y : ℚ) : ℚ :=
  x - y * truncated (x / y)

/-- The quotient of natural numbers without its fraction. -/
theorem truncated_div (k n : ℕ) : truncated (k / n) = (k / n : ℕ) := by
  have hnonneg : (0 : ℚ) ≤ k / n := by positivity
  rw [truncated, if_pos hnonneg, ← Int.natCast_floor_eq_floor hnonneg, Nat.floor_div_eq_div]

/-- Truncating goes by the magnitude. -/
theorem truncated_neg (x : ℚ) : truncated (-x) = -truncated x := by
  rcases lt_trichotomy x 0 with hneg | rfl | hpos
  · rw [truncated, if_pos (by linarith), truncated, if_neg (by linarith), Int.floor_neg]
  · simp [truncated]
  · rw [truncated, if_neg (by linarith), truncated, if_pos hpos.le, Int.ceil_neg]

/-- The sign of the divisor does not matter. -/
theorem truncatedRemainder_neg_right (x y : ℚ) :
    truncatedRemainder x (-y) = truncatedRemainder x y := by
  rw [truncatedRemainder, truncatedRemainder, div_neg, truncated_neg]
  push_cast
  ring

/-- The remainder has the sign of the dividend. -/
theorem truncatedRemainder_neg_left (x y : ℚ) :
    truncatedRemainder (-x) y = -truncatedRemainder x y := by
  rw [truncatedRemainder, truncatedRemainder, neg_div, truncated_neg]
  push_cast
  ring

/-- The remainder of two counts of one unit is that of the counts. -/
theorem truncatedRemainder_mul (k n : ℕ) {u : ℚ} (hu : 0 < u) :
    truncatedRemainder (k * u) (n * u) = (k % n : ℕ) * u := by
  have hsplit : (n : ℚ) * (k / n : ℕ) + (k % n : ℕ) = k := by exact_mod_cast Nat.div_add_mod k n
  rw [truncatedRemainder, mul_div_mul_right _ _ hu.ne', truncated_div, Int.cast_natCast]
  linear_combination -u * hsplit

/-- **The truncated remainder of counts of one unit** is that of the counts, with the sign of the
dividend. -/
theorem truncatedRemainder_signed (s t : Sign) (k n : ℕ) {u : ℚ} (hu : 0 < u) :
    truncatedRemainder (signed s (k * u)) (signed t (n * u)) = signed s ((k % n : ℕ) * u) := by
  cases s <;> cases t <;>
    simp only [signed, truncatedRemainder_neg_left, truncatedRemainder_neg_right,
      truncatedRemainder_mul k n hu]

/-! ### A value from its magnitude -/

/-- A magnitude in the range has its leading bit there. -/
theorem log2_add_le {m : ℕ} {q : ℤ} (hm : 0 < m) (h : (m : ℚ) * 2 ^ q < 2 ^ (1024 : ℤ)) :
    (m.log2 : ℤ) + q < 1024 := by
  have hlow : (2 : ℚ) ^ m.log2 ≤ m := by exact_mod_cast Nat.log2_self_le hm.ne'
  rw [← zpow_lt_zpow_iff_right₀ (one_lt_two : (1 : ℚ) < 2), zpow_add₀ (by norm_num), zpow_natCast]
  exact (mul_le_mul_of_nonneg_right hlow (two_zpow_pos q).le).trans_lt h

/-- A mantissa of 53 bits in the range is put together to a canonical value of the same number. -/
theorem exists_ofMagnitude_eq (negative : Bool) {m : ℕ} {q : ℤ} (hm : 0 < m) (hm' : m < 2 ^ 53)
    (hq : -1074 ≤ q) (hv : (m : ℚ) * 2 ^ q < 2 ^ (1024 : ℤ)) :
    ∃ n r, ∃ hc : Canonical n r, r ≤ 971 ∧ (n : ℚ) * 2 ^ r = m * 2 ^ q ∧
      ofMagnitude negative m q =
        .ofModel (.pack (.finite (if negative then .negative else .positive) n r hc.1)) := by
  obtain ⟨s, hs⟩ : ∃ s : Sign, (if negative then .negative else .positive) = s := ⟨_, rfl⟩
  have hsign : (if negative then 0x8000000000000000 else 0 : ℕ) = signBit s * 2 ^ 63 := by
    rw [← hs]
    cases negative <;> rfl
  have hlog := log2_add_le hm hv
  have hshort : m.log2 < 53 := (Nat.log2_lt hm.ne').2 hm'
  rw [ofMagnitude, hs]
  simp only [if_neg hm.ne', hsign, Nat.pow_eq]
  by_cases hsmall : q + m.log2 < -1022
  · obtain ⟨k, rfl⟩ : ∃ k : ℕ, q = -1074 + k := ⟨(q + 1074).toNat, by omega⟩
    have hn : m * 2 ^ k < 2 ^ 52 := mul_two_pow_lt (by omega)
    have hpos : 0 < m * 2 ^ k := by positivity
    refine ⟨m * 2 ^ k, -1074, ⟨hpos, by omega, le_rfl, .inl rfl⟩, by decide, shifted_value .., ?_⟩
    have hword := ofBits_eq s (e := 0) (by decide) hn
    have hk : (-1074 + (k : ℤ) + 1074).toNat = k := by omega
    rw [if_pos hsmall, hk, ← unpackFields_subnormal s hpos, ← hword]
    simp
  · obtain ⟨k, hk⟩ : ∃ k, 52 - m.log2 = k := ⟨_, rfl⟩
    have hlow : 2 ^ 52 ≤ m * 2 ^ k := two_pow_le_mul hm (by omega)
    have hhigh : m * 2 ^ k < 2 ^ 53 := mul_two_pow_lt (by omega)
    have hpos : 0 < m * 2 ^ k := by omega
    refine ⟨m * 2 ^ k, q - k, ⟨hpos, hhigh, by omega, .inr hlow⟩, by omega, ?_, ?_⟩
    · rw [shifted_value, Int.sub_add_cancel]
    · have hword := ofBits_eq s (e := (q - k + 1075).toNat) (f := m * 2 ^ k - 2 ^ 52) (by omega)
        (by omega)
      have he : (q + m.log2 + 1023).toNat = (q - k + 1075).toNat := by omega
      rw [if_neg hsmall, if_neg (by omega), hk, he, ← unpackFields_normal s hpos hlow (by omega)
        (by omega), ← hword]
      norm_num

/-- A mantissa of zero is put together to a zero. -/
theorem ofMagnitude_zero (negative : Bool) (q : ℤ) :
    ofMagnitude negative 0 q =
      .ofModel (.pack (.zero (if negative then .negative else .positive))) := by
  cases negative
  · exact ofBits_eq .positive (e := 0) (f := 0) (by decide) (by decide)
  · exact ofBits_eq .negative (e := 0) (f := 0) (by decide) (by decide)

/-- **A mantissa of 53 bits in the range is a value**, with the given sign. -/
theorem toRat_ofMagnitude (negative : Bool) {m : ℕ} {q : ℤ} (hm : m < 2 ^ 53) (hq : -1074 ≤ q)
    (hv : (m : ℚ) * 2 ^ q < 2 ^ (1024 : ℤ)) :
    isSpecial (ofMagnitude negative m q) = false ∧
      signOf (ofMagnitude negative m q) = (if negative then .negative else .positive) ∧
      toRat (ofMagnitude negative m q) =
        signed (if negative then .negative else .positive) (m * 2 ^ q) := by
  rcases Nat.eq_zero_or_pos m with rfl | hpos
  · have hunpack : (ofMagnitude negative 0 q).toModel.unpack =
        .zero (if negative then .negative else .positive) := by
      rw [ofMagnitude_zero]
      cases negative <;> rfl
    obtain ⟨hfinite, hs, hm⟩ := magnitude_of_unpack_zero hunpack
    refine ⟨hfinite, hs, ?_⟩
    rw [toRat_of_zero hm, Nat.cast_zero, zero_mul]
    cases negative <;> simp [signed]
  · obtain ⟨n, r, hc, hr, hvalue, heq⟩ := exists_ofMagnitude_eq negative hpos hm hq hv
    rw [← hvalue]
    exact toRat_of_eq_pack hc hr heq

/-! ### The truncated remainder of two values -/

/-- A magnitude in a lesser unit keeps its number. -/
theorem align_value (a : Magnitude) {unit : ℤ} (h : unit ≤ a.q) :
    (a.align unit : ℚ) * 2 ^ unit = a.m * 2 ^ a.q := by
  obtain ⟨k, hk⟩ := Int.le.dest h
  rw [Magnitude.align_eq a hk.symm, Nat.pow_eq, shifted_value, hk]

/-- A magnitude in its own unit is its mantissa. -/
theorem align_self (a : Magnitude) : a.align a.q = a.m := by
  rw [Magnitude.align_eq a (k := 0) (by omega), Nat.pow_eq, pow_zero, mul_one]

/-- A remainder of finite values counts in the lesser unit of the two. -/
theorem remainder_eq {a b : Float} (ha : isSpecial a = false) (hb : isSpecial b = false)
    (hne : toRat b ≠ 0) :
    remainder a b = ofMagnitude (isNegative a)
      ((magnitude a).align (min (magnitude a).q (magnitude b).q) %
        (magnitude b).align (min (magnitude a).q (magnitude b).q))
      (min (magnitude a).q (magnitude b).q) := by
  have infinite {x : Float} (hx : isSpecial x = false) : isInfinite x = false :=
    (isInfinite_eq_isSpecial (isNaN_of_finite hx)).trans hx
  have hzero : (b == 0) = false := by
    have hliteral : (0 : Float) = 0.0 := by decide +kernel
    rw [hliteral, Bool.eq_false_iff, ne_eq, beq_zero_iff]
    rintro ⟨s, hs⟩
    exact hne (toRat_of_zero (magnitude_of_unpack_zero hs).2.2)
  rw [remainder, isNaN_of_finite ha, isNaN_of_finite hb, infinite ha, infinite hb, hzero]
  simp only [Bool.or_self, Bool.false_eq_true, if_false]

/-- **A remainder of finite values is that of two counts of one unit.** One of the values has this
unit, and so the remainder has no more than 53 bits. -/
theorem exists_remainder_eq {a b : Float} (ha : isSpecial a = false) (hb : isSpecial b = false)
    (hne : toRat b ≠ 0) :
    ∃ (k n : ℕ) (u : ℤ), 0 < n ∧ k % n < 2 ^ 53 ∧ -1074 ≤ u ∧
      toRat a = signed (signOf a) (k * 2 ^ u) ∧ toRat b = signed (signOf b) (n * 2 ^ u) ∧
      remainder a b = ofMagnitude (isNegative a) (k % n) u := by
  obtain ⟨hm, hleast, -⟩ := magnitude_bounds ha
  obtain ⟨hm', hleast', -⟩ := magnitude_bounds hb
  have hrest := remainder_eq ha hb hne
  generalize hu : min (magnitude a).q (magnitude b).q = u at hrest
  generalize hk : (magnitude a).align u = k at hrest
  generalize hn : (magnitude b).align u = n at hrest
  have hdividend : toRat a = signed (signOf a) (k * 2 ^ u) := by
    rw [toRat_eq_signed, ← hk, align_value _ (by omega)]
  have hdivisor : toRat b = signed (signOf b) (n * 2 ^ u) := by
    rw [toRat_eq_signed, ← hn, align_value _ (by omega)]
  have hpos : 0 < n := by
    refine Nat.pos_of_ne_zero fun hzero => hne ?_
    rw [hdivisor, hzero, Nat.cast_zero, zero_mul]
    cases signOf b <;> simp [signed]
  have hshort : k % n < 2 ^ 53 := by
    rcases min_choice (magnitude a).q (magnitude b).q with hmin | hmin <;> rw [hu] at hmin
    · rw [hmin, align_self] at hk
      exact (Nat.mod_le k n).trans_lt (hk ▸ hm)
    · rw [hmin, align_self] at hn
      exact (Nat.mod_lt k hpos).trans (hn ▸ hm')
  exact ⟨k, n, u, hpos, hshort, by omega, hdividend, hdivisor, hrest⟩

/-- **The truncated remainder is exact.** It is finite, it has the sign of the dividend, and it is
smaller than the divisor. -/
theorem remainder_spec {a b : Float} (ha : isSpecial a = false) (hb : isSpecial b = false)
    (hne : toRat b ≠ 0) :
    isSpecial (remainder a b) = false ∧ isNegative (remainder a b) = isNegative a ∧
      |toRat (remainder a b)| < |toRat b| ∧
      toRat (remainder a b) = truncatedRemainder (toRat a) (toRat b) := by
  obtain ⟨k, n, u, hpos, hshort, hleast, hdividend, hdivisor, hrest⟩ :=
    exists_remainder_eq ha hb hne
  have hunit := two_zpow_pos u
  have hlt : ((k % n : ℕ) : ℚ) * 2 ^ u < |toRat b| := by
    rw [hdivisor, abs_signed _ (by positivity)]
    exact mul_lt_mul_of_pos_right (by exact_mod_cast Nat.mod_lt k hpos) hunit
  obtain ⟨hfinite, hs, hvalue⟩ := toRat_ofMagnitude (isNegative a) hshort hleast
    (hlt.trans ((abs_toRat_lt hb).trans overflowBound_lt))
  rw [← hrest] at hfinite hs hvalue
  have hs : signOf (remainder a b) = signOf a := hs
  have hvalue : toRat (remainder a b) = signed (signOf a) ((k % n : ℕ) * 2 ^ u) := hvalue
  refine ⟨hfinite, ?_, ?_, ?_⟩
  · rw [Bool.eq_iff_iff, isNegative_iff, isNegative_iff, hs]
  · rw [hvalue, abs_signed _ (by positivity)]
    exact hlt
  · rw [hvalue, hdividend, hdivisor, truncatedRemainder_signed _ _ _ _ hunit]

/-- A remainder of an infinity is no number. -/
theorem remainder_isNaN {a : Float} (ha : isInfinite a = true) (b : Float) :
    (remainder a b).isNaN = true := by
  rw [remainder, ha, Bool.or_true, Bool.true_or, if_pos rfl]
  decide

/-- A larger number keeps its sign when a smaller one is added. -/
theorem add_of_abs_lt {x y : ℚ} (h : |x| < |y|) : x + y ≠ 0 ∧ (x + y < 0 ↔ y < 0) := by
  rcases lt_trichotomy y 0 with hy | rfl | hy
  · rw [abs_of_neg hy] at h
    have hsum : x + y < 0 := by linarith [le_abs_self x]
    exact ⟨hsum.ne, iff_of_true hsum hy⟩
  · rw [abs_zero] at h
    exact absurd h (not_lt.2 (abs_nonneg x))
  · rw [abs_of_pos hy] at h
    have hsum : 0 < x + y := by linarith [neg_abs_le x]
    exact ⟨hsum.ne', iff_of_false (not_lt.2 hsum.le) (not_lt.2 hy.le)⟩

/-- A sum of different signs is not larger than the larger number. -/
theorem abs_add_le_of_signs {x y : ℚ} (h : |x| < |y|) (hsign : 0 ≤ x ∧ y ≤ 0 ∨ x ≤ 0 ∧ 0 ≤ y) :
    |x + y| ≤ |y| := by
  rcases hsign with ⟨hx, hy⟩ | ⟨hx, hy⟩
  · rw [abs_of_nonneg hx, abs_of_nonpos hy] at h
    rw [abs_of_nonpos hy, abs_le]
    constructor <;> linarith
  · rw [abs_of_nonpos hx, abs_of_nonneg hy] at h
    rw [abs_of_nonneg hy, abs_le]
    constructor <;> linarith

end Formulary.Number

namespace Formulary

open Number (isSpecial isNegative toRat truncatedRemainder overflowBound)
open Number (isNaN_of_finite toRat_nonneg toRat_nonpos toRat_ne_zero_iff isNegative_eq_decide
  abs_toRat_lt add_cases add_of_abs_lt abs_add_le_of_signs remainder_spec remainder_isNaN)

/-! ### The modulo of two values -/

/-- Whether a result is **within the divisor**: it is finite, smaller than the divisor, and has its
sign. -/
def WithinDivisor (r b : Float) : Prop :=
  isSpecial r = false ∧ |toRat r| < |toRat b| ∧ isNegative r = isNegative b

/-- In strict mode the modulo is not settled. -/
theorem value_mod_strict (a b : Float) : BinaryOp.mod.value .strict a b = modulo a b := by
  simp [BinaryOp.value, BinaryOp.isComparison, settle, BinaryOp.apply]

/-- **The modulo is within the divisor, or it is no number.** Which of the two goes by the sum of
the truncated remainder and the divisor. -/
theorem modulo_cases {a b : Float} (ha : isSpecial a = false) (hb : isSpecial b = false)
    (hne : toRat b ≠ 0) :
    |truncatedRemainder (toRat a) (toRat b) + toRat b| < overflowBound ∧
        WithinDivisor (modulo a b) b ∨
      overflowBound ≤ |truncatedRemainder (toRat a) (toRat b) + toRat b| ∧
        (modulo a b).isNaN = true := by
  obtain ⟨hfinite, -, hlt, hvalue⟩ := remainder_spec ha hb hne
  obtain ⟨hsum, hsign⟩ := add_of_abs_lt hlt
  rw [← hvalue]
  obtain ⟨hs, ⟨hbound, hsum⟩ | ⟨hbound, hinfinite⟩⟩ := add_cases hfinite hb hsum
  · obtain ⟨hfinite', hs', hlt', -⟩ := remainder_spec hsum hb hne
    refine .inl ⟨hbound, hfinite', hlt', ?_⟩
    rw [isNegative_eq_decide hne, ← decide_eq_decide.2 hsign, ← hs]
    exact hs'
  · exact .inr ⟨hbound, remainder_isNaN hinfinite b⟩

/-- The sum does not overflow if the signs differ, or if twice the divisor does not. -/
theorem lt_overflowBound_of {a b : Float} (ha : isSpecial a = false) (hb : isSpecial b = false)
    (hne : toRat b ≠ 0) (h : isNegative a ≠ isNegative b ∨ 2 * |toRat b| ≤ overflowBound) :
    |truncatedRemainder (toRat a) (toRat b) + toRat b| < overflowBound := by
  obtain ⟨-, hs, hlt, hvalue⟩ := remainder_spec ha hb hne
  rw [← hvalue]
  rcases h with hsign | htwice
  · rw [← hs] at hsign
    refine (abs_add_le_of_signs hlt ?_).trans_lt (abs_toRat_lt hb)
    cases hnegative : isNegative (Number.remainder a b) with
    | false =>
        rw [hnegative] at hsign
        exact .inl ⟨toRat_nonneg hnegative, toRat_nonpos (by simpa using hsign.symm)⟩
    | true =>
        rw [hnegative] at hsign
        exact .inr ⟨toRat_nonpos hnegative, toRat_nonneg (by simpa using hsign.symm)⟩
  · calc |toRat (Number.remainder a b) + toRat b|
        ≤ |toRat (Number.remainder a b)| + |toRat b| := abs_add_le _ _
      _ < 2 * |toRat b| := by linarith
      _ ≤ overflowBound := htwice

/-- **When the modulo is that of the divisor.** Let two subformulas have finite values, the right
one other than zero. In strict mode their modulo is finite, smaller than the divisor and of its sign
exactly if the truncated remainder and the divisor add up to less than the number that overflows,
and else it is no number. In particular it is within the divisor if the signs of the two values
differ, or if twice the divisor does not overflow. -/
theorem Formula.run_modulo {samples : Samples} {left right : Formula} {w u v : Workspace}
    {a b : Float} (hleft : left.run .strict samples w = (.ok a, u))
    (hright : right.run .strict samples u = (.ok b, v)) (ha : isSpecial a = false)
    (hb : isSpecial b = false) (hne : toRat b ≠ 0) :
    ∃ r, (binary .mod left right).run .strict samples w = (.ok r, v) ∧
      (WithinDivisor r b ↔
        |truncatedRemainder (toRat a) (toRat b) + toRat b| < overflowBound) ∧
      (overflowBound ≤ |truncatedRemainder (toRat a) (toRat b) + toRat b| → r.isNaN = true) ∧
      (isNegative a ≠ isNegative b ∨ 2 * |toRat b| ≤ overflowBound → WithinDivisor r b) := by
  refine ⟨_, run_binary hleft hright .mod, ?_⟩
  rw [value_mod_strict]
  obtain ⟨hbound, hwithin⟩ | ⟨hbound, hnan⟩ := modulo_cases ha hb hne
  · exact ⟨iff_of_true hwithin hbound, fun h => absurd hbound (not_lt.2 h), fun _ => hwithin⟩
  · refine ⟨iff_of_false (fun hwithin => ?_) (not_lt.2 hbound), fun _ => hnan, fun h => ?_⟩
    · rw [isNaN_of_finite hwithin.1] at hnan
      cases hnan
    · exact absurd (lt_overflowBound_of ha hb hne h) (not_lt.2 hbound)

/-- Two huge values of different signs: the divisor may exceed half of the range. -/
theorem Formula.run_modulo_opposite :
    let w : Workspace := { store := .ofList [("x", 1e308), ("y", -1.5e308)] }
    (var "x").run .strict (fun _ => 0.5) w = (.ok 1e308, w) ∧
      (var "y").run .strict (fun _ => 0.5) w = (.ok (-1.5e308), w) ∧
      isSpecial 1e308 = false ∧ isSpecial (-1.5e308) = false ∧ toRat (-1.5e308) ≠ 0 ∧
      ∃ r, (binary .mod (var "x") (var "y")).run .strict (fun _ => 0.5) w = (.ok r, w) ∧
        WithinDivisor r (-1.5e308) := by
  intro w
  have hleft : (var "x").run .strict (fun _ => 0.5) w = (.ok 1e308, w) := rfl
  have hright : (var "y").run .strict (fun _ => 0.5) w = (.ok (-1.5e308), w) := rfl
  have hx : isSpecial 1e308 = false := by decide +kernel
  have hy : isSpecial (-1.5e308) = false := by decide +kernel
  have hne : toRat (-1.5e308) ≠ 0 := toRat_ne_zero_iff.2 (by decide +kernel)
  have hsign : isNegative 1e308 ≠ isNegative (-1.5e308) := by decide +kernel
  obtain ⟨r, hrun, -, -, hwithin⟩ := run_modulo hleft hright hx hy hne
  exact ⟨hleft, hright, hx, hy, hne, r, hrun, hwithin (.inl hsign)⟩

/-- **The modulo of huge values is no number**: half as much again as the dividend is a divisor that
is larger and of the same sign, but the two of them add up to an infinity. -/
theorem Formula.not_withinDivisor_modulo :
    let w : Workspace := { store := .ofList [("x", 1e308), ("y", 1.5e308)] }
    isSpecial 1e308 = false ∧ isSpecial 1.5e308 = false ∧ toRat 1.5e308 ≠ 0 ∧
      ∃ r, (binary .mod (var "x") (var "y")).run .strict (fun _ => 0.5) w = (.ok r, w) ∧
        r.isNaN = true ∧ ¬ WithinDivisor r 1.5e308 := by
  intro w
  have hne : toRat 1.5e308 ≠ 0 := toRat_ne_zero_iff.2 (by decide +kernel)
  have hnan : (BinaryOp.mod.value .strict 1e308 1.5e308).isNaN = true := by decide +kernel
  refine ⟨by decide +kernel, by decide +kernel, hne, _, rfl, hnan, fun hwithin => ?_⟩
  rw [isNaN_of_finite hwithin.1] at hnan
  cases hnan

end Formulary
