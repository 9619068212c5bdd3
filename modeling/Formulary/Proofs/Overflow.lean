import Formulary.Proofs.Order

/-!
# When a Result Overflows

A result is rounded to the nearest value as if there were no greatest one, and becomes an infinity
only when it is put together. This module says which numbers that happens to: exactly those that are
no smaller than the number half a unit above the greatest value. The tie goes to the infinity, since
the mantissa of the greatest value is odd.

## Main results

* `exists_hasExponent`: every positive number has an exponent.
* `exists_roundWithAccuracy_eq`: what a number is rounded to.
* `lt_overflowBound_iff`: the bound by exponent and mantissa.
* `rounded_cases`: a rounded number keeps its sign, and is finite below the bound and infinite from
  it on.
-/

namespace Formulary.Number

open Float.Model (Format UnpackedFloat)
open Float.Model.UnpackedFloat

/-! ### Putting a result together -/

/-- The parts of a value with less than 53 bits. -/
theorem unpackFields_subnormal (s : Sign) {m : ℕ} (hpos : 0 < m) :
    unpackFields s 0 m = .finite s m (-1074) hpos := by
  rw [unpackFields, if_neg (by decide), dif_neg (by omega)]
  simp

/-- **A canonical value in the range is taken apart into what it was put together from.** -/
theorem unpack_pack_canonical (s : Sign) {m : ℕ} {q : ℤ} (hc : Canonical m q) (hq : q ≤ 971) :
    (Float.Model.pack (.finite s m q hc.1)).unpack = .finite s m q hc.1 := by
  obtain ⟨hpos, hlt, hlow, hfull⟩ := hc
  rcases Nat.lt_or_ge m (2 ^ 52) with hshort | hlong
  · obtain rfl : q = -1074 := hfull.resolve_right (by omega)
    rw [← unpackFields_subnormal s hpos]
    exact unpack_pack_unpackFields s (by omega) hshort (by omega)
  · rw [← unpackFields_normal s hpos hlong hlow hq]
    exact unpack_pack_unpackFields s (by omega) (by omega) (by omega)

/-- A canonical value in the range is finite, and stands for its number. -/
theorem toRat_of_eq_pack {x : Float} {s : Sign} {m : ℕ} {q : ℤ} {hpos : 0 < m}
    (hc : Canonical m q) (hq : q ≤ 971) (hx : x = .ofModel (.pack (.finite s m q hpos))) :
    isSpecial x = false ∧ signOf x = s ∧ toRat x = signed s (m * 2 ^ q) := by
  have hunpack : x.toModel.unpack = .finite s m q hpos := by
    rw [hx]
    exact unpack_pack_canonical s hc hq
  obtain ⟨hfinite, hs, hm, hq⟩ := magnitude_of_unpack hunpack
  exact ⟨hfinite, hs, by rw [toRat_eq_signed, hs, hm, hq]⟩

/-- A value beyond the range is put together to an infinity. -/
theorem pack_of_large (s : Sign) {m : ℕ} {q : ℤ} (hpos : 0 < m) (hq : 971 < q) :
    pack Format.binary64 (.finite s m q hpos) = pack Format.binary64 (.infinity s) := by
  have hlarge : 2 ^ Format.binary64.exponentBits ≤ (q + Format.binary64.exponentBias +
      Format.binary64.mantissaBitsWithoutImplicit).toNat + 1 := by
    show 2048 ≤ (q + (1023 : ℕ) + (52 : ℕ)).toNat + 1
    omega
  exact if_pos hlarge

/-- A value beyond the range is an infinity with its sign. -/
theorem isInfinite_of_eq_pack {x : Float} {s : Sign} {m : ℕ} {q : ℤ} {hpos : 0 < m}
    (hq : 971 < q) (hx : x = .ofModel (.pack (.finite s m q hpos))) :
    isInfinite x = true ∧ signOf x = s := by
  have heq : x = .ofModel (.pack (.infinity s)) := by
    refine hx.trans (eq_of_toNat_toBits ?_)
    rw [toNat_toBits_pack, toNat_toBits_pack, pack_of_large s hpos hq]
  refine unpack_eq_infinity_iff.1 ?_
  rw [heq]
  cases s <;> rfl

/-! ### Rounding -/

/-- Every number of units rounds to a whole one. -/
theorem exists_roundsTo {u : ℚ} (hu : 0 ≤ u) : ∃ m, RoundsTo u m := by
  obtain ⟨n, hn⟩ : ∃ n, ⌊u⌋₊ = n := ⟨_, rfl⟩
  have hlow : (n : ℚ) ≤ u := hn ▸ Nat.floor_le hu
  have hhigh : u < n + 1 := hn ▸ Nat.lt_floor_add_one u
  rcases lt_trichotomy u (n + 1 / 2) with hlt | heq | hgt
  · exact ⟨n, .inl (by linarith), .inl hlt⟩
  · -- at the half the even neighbour is taken
    rcases Nat.mod_two_eq_zero_or_one n with heven | hodd
    · exact ⟨n, .inl (by linarith), .inr ⟨heq, heven⟩⟩
    · refine ⟨n + 1, .inr ⟨?_, by omega⟩, .inl ?_⟩ <;> push_cast <;> linarith
  · refine ⟨n + 1, .inl ?_, .inl ?_⟩ <;> push_cast <;> linarith

/-- A number is no further than one half from what it rounds to. -/
theorem RoundsTo.bounds {u : ℚ} {n : ℕ} (h : RoundsTo u n) :
    (n : ℚ) - 1 / 2 ≤ u ∧ u ≤ n + 1 / 2 :=
  ⟨h.1.elim le_of_lt fun h => h.1.le, h.2.elim le_of_lt fun h => h.1.le⟩

/-- **Every positive number has an exponent.** -/
theorem exists_hasExponent {v : ℚ} (hv : 0 < v) : ∃ q, HasExponent v q := by
  by_cases hsmall : v < 2 ^ 53 * 2 ^ (-1074 : ℤ)
  · exact ⟨-1074, le_rfl, hsmall, .inl rfl⟩
  obtain ⟨n, hlow, hhigh⟩ := exists_mem_Ico_zpow hv (one_lt_two : (1 : ℚ) < 2)
  have hsplit (k : ℕ) (t : ℤ) : (2 : ℚ) ^ k * 2 ^ t = 2 ^ (k + t : ℤ) := by
    rw [zpow_add₀ (by norm_num), zpow_natCast]
  refine ⟨n - 52, ?_, ?_, .inr ?_⟩
  · rw [hsplit, not_lt] at hsmall
    have := (zpow_lt_zpow_iff_right₀ (one_lt_two : (1 : ℚ) < 2)).1 (hsmall.trans_lt hhigh)
    omega
  · have hexponent : ((53 : ℕ) + (n - 52) : ℤ) = n + 1 := by omega
    rw [hsplit, hexponent]
    exact hhigh
  · have hexponent : ((52 : ℕ) + (n - 52) : ℤ) = n := by omega
    rw [hsplit, hexponent]
    exact hlow

/-- **What a number is rounded to**: the whole number of units that is nearest, halved if it has
54 bits. Nothing but zero is rounded to zero. -/
theorem exists_roundWithAccuracy_eq (s : Sign) {m : ℕ} {e q : ℤ} {a : Accuracy} {v : ℚ}
    (hm : Measures m a (v / 2 ^ e)) (hlong : e ≤ -1074 ∨ 2 ^ 52 ≤ m) (hv : HasExponent v q)
    (hleast : 2 ^ (-1074 : ℤ) ≤ v) :
    ∃ n p r, ∃ hc : Canonical p r, RoundsTo (v / 2 ^ q) n ∧
      (n < 2 ^ 53 ∧ p = n ∧ r = q ∨ n = 2 ^ 53 ∧ p = 2 ^ 52 ∧ r = q + 1) ∧
      roundWithAccuracy Format.binary64 s m e a = .finite s p r hc.1 := by
  obtain ⟨em, hshift, hresidue⟩ := exists_shift hm hlong hv
  obtain ⟨hq, hhigh, hlow⟩ := hv
  rw [← div_lt_iff₀ (two_zpow_pos q)] at hhigh
  have hunits : 1 ≤ v / 2 ^ q ∧ (q = -1074 ∨ 2 ^ 52 ≤ v / 2 ^ q) := by
    rcases hlow with rfl | hlow
    · exact ⟨(one_le_div (two_zpow_pos _)).2 hleast, .inl rfl⟩
    · rw [← le_div_iff₀ (two_zpow_pos q)] at hlow
      exact ⟨le_trans (by norm_num) hlow, .inr hlow⟩
  obtain ⟨n, hn⟩ := exists_roundsTo (zero_le_one.trans hunits.1)
  have hround := hresidue.roundedMantissa_eq hn
  obtain ⟨hbelow, habove⟩ := hn.bounds
  have hpos : 0 < n := by
    have : (0 : ℚ) < n := by linarith [hunits.1]
    exact_mod_cast this
  have hupper : n ≤ 2 ^ 53 := by
    have : (n : ℚ) < (2 ^ 53 : ℕ) + 1 := by
      push_cast
      linarith
    exact Nat.lt_succ_iff.1 (by exact_mod_cast this)
  rcases hupper.lt_or_eq with hlt | rfl
  · have hfull : q = -1074 ∨ 2 ^ 52 ≤ n := by
      refine hunits.2.imp_right fun hlow => ?_
      have : ((2 ^ 52 : ℕ) : ℚ) < n + 1 := by
        push_cast
        linarith
      exact Nat.lt_succ_iff.1 (by exact_mod_cast this)
    exact ⟨n, n, q, ⟨hpos, hlt, hq, hfull⟩, hn, .inl ⟨hlt, rfl, rfl⟩,
      roundWithAccuracy_of_lt s hshift hround hpos hlt hq⟩
  · exact ⟨2 ^ 53, 2 ^ 52, q + 1, ⟨by decide, by decide, by omega, .inr le_rfl⟩, hn,
      .inr ⟨rfl, rfl, rfl⟩, roundWithAccuracy_of_carry s hshift hround hq⟩

/-! ### The bound -/

/-- A binade ends where the next one begins. -/
theorem binade_end (q : ℤ) : (2 : ℚ) ^ 53 * 2 ^ q = 2 ^ 52 * 2 ^ (q + 1) := by
  rw [zpow_add_one₀ (by norm_num)]
  ring

/-- The least number that **overflows**: half a unit above the greatest value. -/
def overflowBound : ℚ :=
  (2 ^ 53 - 1 / 2) * 2 ^ (971 : ℤ)

/-- The bound lies below the next power of two. -/
theorem overflowBound_lt : overflowBound < 2 ^ (1024 : ℤ) := by
  calc overflowBound < 2 ^ 53 * 2 ^ (971 : ℤ) :=
        mul_lt_mul_of_pos_right (by norm_num) (two_zpow_pos _)
    _ = 2 ^ (1024 : ℤ) := by rw [← zpow_natCast, ← zpow_add₀ (by norm_num)]; norm_num

/-- Finite values lie below the bound. -/
theorem abs_toRat_lt {x : Float} (hx : isSpecial x = false) : |toRat x| < overflowBound := by
  obtain ⟨hm, -, hq, -⟩ := magnitude_bounds hx
  have hm' : ((magnitude x).m : ℚ) + 1 ≤ 2 ^ 53 := by exact_mod_cast hm
  rw [toRat_eq_signed, abs_signed _ (by positivity)]
  calc ((magnitude x).m : ℚ) * 2 ^ (magnitude x).q ≤ (magnitude x).m * 2 ^ (971 : ℤ) :=
        mul_le_mul_of_nonneg_left (zpow_le_zpow_right₀ one_le_two hq) (Nat.cast_nonneg _)
    _ < overflowBound := mul_lt_mul_of_pos_right (by linarith) (two_zpow_pos _)

/-- The bound lies in the binade of the greatest exponent, and all that rounds up to the next one
lies above it. -/
theorem lt_overflowBound_iff {v : ℚ} {q : ℤ} {n : ℕ} (hv : HasExponent v q)
    (hn : RoundsTo (v / 2 ^ q) n) : v < overflowBound ↔ q < 971 ∨ q = 971 ∧ n < 2 ^ 53 := by
  obtain ⟨-, hhigh, hlow⟩ := hv
  rcases lt_trichotomy q 971 with hq | rfl | hq
  · refine iff_of_true ?_ (.inl hq)
    calc v < 2 ^ 53 * 2 ^ q := hhigh
      _ ≤ 2 ^ 53 * 2 ^ (970 : ℤ) :=
          mul_le_mul_of_nonneg_left (zpow_le_zpow_right₀ one_le_two (by omega)) (by norm_num)
      _ = 2 ^ 52 * 2 ^ (971 : ℤ) := binade_end 970
      _ < overflowBound := mul_lt_mul_of_pos_right (by norm_num) (two_zpow_pos _)
  · rw [overflowBound, ← div_lt_iff₀ (two_zpow_pos _)]
    constructor
    · intro hlt
      refine .inr ⟨rfl, ?_⟩
      have : (n : ℚ) < (2 ^ 53 : ℕ) := by
        push_cast
        linarith [hn.bounds.1]
      exact_mod_cast this
    · -- at the tie the mantissa of the greatest value is odd
      rintro (hq | ⟨-, hlt⟩)
      · omega
      · have hle : (n : ℚ) + 1 ≤ (2 ^ 53 : ℕ) := by exact_mod_cast hlt
        push_cast at hle
        rcases hn.2 with hbelow | ⟨htie, heven⟩
        · linarith
        · have hle' : (n : ℚ) + 2 ≤ (2 ^ 53 : ℕ) := by
            have : n + 2 ≤ 2 ^ 53 := by omega
            exact_mod_cast this
          push_cast at hle'
          linarith
  · refine iff_of_false (not_lt.2 ?_) (by omega)
    calc overflowBound ≤ 2 ^ 53 * 2 ^ (971 : ℤ) :=
          mul_le_mul_of_nonneg_right (by norm_num) (two_zpow_pos _).le
      _ = 2 ^ 52 * 2 ^ (972 : ℤ) := binade_end 971
      _ ≤ 2 ^ 52 * 2 ^ q :=
          mul_le_mul_of_nonneg_left (zpow_le_zpow_right₀ one_le_two (by omega)) (by norm_num)
      _ ≤ v := hlow.resolve_left (by omega)

/-- **A rounded number keeps its sign, is finite below the bound, and infinite from it on.** -/
theorem rounded_cases {x : Float} {s : Sign} {m : ℕ} {e : ℤ} {a : Accuracy} {v : ℚ}
    (hm : Measures m a (v / 2 ^ e)) (hlong : e ≤ -1074 ∨ 2 ^ 52 ≤ m)
    (hleast : 2 ^ (-1074 : ℤ) ≤ v)
    (hx : x = .ofModel (.pack (roundWithAccuracy Format.binary64 s m e a))) :
    signOf x = s ∧ (v < overflowBound ∧ isSpecial x = false ∨
      overflowBound ≤ v ∧ isInfinite x = true) := by
  obtain ⟨q, hv⟩ := exists_hasExponent ((two_zpow_pos _).trans_le hleast)
  obtain ⟨n, p, r, hc, hn, hcases, hround⟩ := exists_roundWithAccuracy_eq s hm hlong hv hleast
  have hbound : v < overflowBound ↔ r ≤ 971 := by
    rw [lt_overflowBound_iff hv hn]
    omega
  rw [hround] at hx
  by_cases hr : r ≤ 971
  · obtain ⟨hfinite, hs, -⟩ := toRat_of_eq_pack hc hr hx
    exact ⟨hs, .inl ⟨hbound.2 hr, hfinite⟩⟩
  · obtain ⟨hinfinite, hs⟩ := isInfinite_of_eq_pack (by omega) hx
    exact ⟨hs, .inr ⟨not_lt.1 fun h => hr (hbound.1 h), hinfinite⟩⟩

end Formulary.Number
