import Formulary.Number.Reader
import Formulary.Proofs.Bits

/-!
# Decimals Round to the Nearest Value

The reader rounds a decimal once, to the nearest value of binary64, a half to the even one. How it
gets there depends on the size of the decimal: small ones by a product or quotient of two exact
values, all others through whole numbers of any size. This module shows that both ways do the
same, and says which decimals become a given value.

## Conventions

Numbers are compared as rationals. A value `m · 2^q` is **canonical** if all 53 bits of `m` are used
unless `q` is the least exponent. `ReadsAs v m q` says that the rational `v` lies in the interval
of the numbers that round to it; the interval is shorter below a power of two, where the values
lie denser, and its ends belong to it when `m` is even.

## Main results

* `Residue.roundedMantissa_eq`: what the last bits of a mantissa say about rounding.
* `roundWithAccuracy_eq`: rounding takes every number of the interval to the value.
* `nearest_eq`: so does reading a decimal.
-/

namespace Formulary.Number

open Float.Model (Format UnpackedFloat totalExponent)
open Float.Model.UnpackedFloat

/-! ### The last bits of a mantissa -/

/-- What an extended mantissa says about a number of units: the two bits behind the mantissa tell
where the number lies between the mantissa and the next one. -/
def Residue (em : ExtendedMantissa) (u : ℚ) : Prop :=
  match em.roundBit, em.stickyBit with
  | false, false => u = em.mantissa
  | false, true => em.mantissa < u ∧ u < em.mantissa + 1 / 2
  | true, false => u = em.mantissa + 1 / 2
  | true, true => em.mantissa + 1 / 2 < u ∧ u < em.mantissa + 1

/-- A mantissa with its accuracy **measures** a number of units. -/
def Measures (m : ℕ) (a : Accuracy) (u : ℚ) : Prop :=
  Residue (.ofMantissaAndAccuracy m a) u

/-- Whether a number of units rounds to `m`: it is no further than one half away, and less than
that unless `m` is even. -/
def RoundsTo (u : ℚ) (m : ℕ) : Prop :=
  (m - 1 / 2 < u ∨ m - 1 / 2 = u ∧ m % 2 = 0) ∧ (u < m + 1 / 2 ∨ u = m + 1 / 2 ∧ m % 2 = 0)

/-- The mantissa is the whole part. -/
theorem Residue.bounds {em : ExtendedMantissa} {u : ℚ} (h : Residue em u) :
    (em.mantissa : ℚ) ≤ u ∧ u < em.mantissa + 1 := by
  obtain ⟨n, roundBit, stickyBit⟩ := em
  cases roundBit <;> cases stickyBit <;> simp only [Residue] at h <;> constructor <;> linarith

/-- **Rounding is decided by the last bits.** -/
theorem Residue.roundedMantissa_eq {em : ExtendedMantissa} {u : ℚ} {m : ℕ} (h : Residue em u)
    (hm : RoundsTo u m) : em.roundedMantissa = m := by
  obtain ⟨n, roundBit, stickyBit⟩ := em
  have hle : (m : ℚ) - 1 / 2 ≤ u := hm.1.elim le_of_lt fun h => h.1.le
  have hge : u ≤ (m : ℚ) + 1 / 2 := hm.2.elim le_of_lt fun h => h.1.le
  cases roundBit with
  | false =>
      -- below the half: `u` lies in `[n, n + 1/2)`, so the mantissa stays
      have hn : (n : ℚ) ≤ u ∧ u < n + 1 / 2 := by
        cases stickyBit <;> simp only [Residue] at h <;> constructor <;> linarith
      have h₁ : (m : ℚ) < n + 1 := by linarith
      have h₂ : (n : ℚ) < m + 1 := by linarith
      norm_cast at h₁ h₂
      have : n = m := by omega
      cases stickyBit <;> exact this
  | true =>
      cases stickyBit with
      | false =>
          -- exactly at the half: the even neighbour is the one that `u` rounds to
          have hu : u = n + 1 / 2 := h
          have h₁ : (m : ℚ) ≤ n + 1 := by linarith
          have h₂ : (n : ℚ) ≤ m := by linarith
          norm_cast at h₁ h₂
          show n + n % 2 = m
          rcases Nat.lt_or_ge n m with hlt | hge
          · obtain rfl : m = n + 1 := by omega
            rcases hm.1 with hlow | hlow
            · push_cast at hlow
              linarith
            · omega
          · obtain rfl : m = n := by omega
            rcases hm.2 with hhigh | hhigh
            · linarith
            · omega
      | true =>
          obtain ⟨hlow, hhigh⟩ : (n : ℚ) + 1 / 2 < u ∧ u < n + 1 := h
          have h₁ : (n : ℚ) < m := by linarith
          have h₂ : (m : ℚ) < n + 2 := by linarith
          norm_cast at h₁ h₂
          show n + 1 = m
          omega

/-- Halving keeps what the last bits say. -/
theorem Residue.shiftRightOne {em : ExtendedMantissa} {u : ℚ} (h : Residue em u) :
    Residue em.shiftRightOne (u / 2) := by
  obtain ⟨n, roundBit, stickyBit⟩ := em
  have hsplit : ((n % 2 : ℕ) : ℚ) + 2 * ((n / 2 : ℕ) : ℚ) = n := by
    exact_mod_cast Nat.mod_add_div n 2
  rcases Nat.mod_two_eq_zero_or_one n with hn | hn
  · have hbit : (n % 2 != 0) = false := by simp [hn]
    rw [hn] at hsplit
    push_cast at hsplit
    cases roundBit <;> cases stickyBit <;>
      simp only [Residue, ExtendedMantissa.shiftRightOne, hbit, Bool.or_false, Bool.or_true] at h ⊢
    all_goals first | linarith | (constructor <;> linarith)
  · have hbit : (n % 2 != 0) = true := by simp [hn]
    rw [hn] at hsplit
    push_cast at hsplit
    cases roundBit <;> cases stickyBit <;>
      simp only [Residue, ExtendedMantissa.shiftRightOne, hbit, Bool.or_false, Bool.or_true] at h ⊢
    all_goals first | linarith | (constructor <;> linarith)

/-- Halving many times keeps what the last bits say. -/
theorem Residue.shiftRight {em : ExtendedMantissa} {u : ℚ} (h : Residue em u) (n : ℕ) :
    Residue (em >>> n) (u / 2 ^ n) := by
  show Residue (n.repeat ExtendedMantissa.shiftRightOne em) _
  induction n with
  | zero => simpa [Nat.repeat] using h
  | succ n ih =>
      have hhalf := ih.shiftRightOne
      rw [div_div, ← pow_succ] at hhalf
      exact hhalf

/-! ### Shifting to the exponent of the result -/

/-- A mantissa filled up with zeros stays as short as its leading bit says. -/
theorem mul_two_pow_lt {m k l : ℕ} (h : m.log2 + k < l) : m * 2 ^ k < 2 ^ l := by
  calc m * 2 ^ k < 2 ^ (m.log2 + 1) * 2 ^ k :=
        Nat.mul_lt_mul_of_pos_right Nat.lt_log2_self (Nat.two_pow_pos k)
    _ = 2 ^ (m.log2 + 1 + k) := (pow_add _ _ _).symm
    _ ≤ 2 ^ l := Nat.pow_le_pow_right (by decide) (by omega)

/-- A mantissa filled up with zeros is as long as its leading bit says. -/
theorem two_pow_le_mul {m k l : ℕ} (hm : 0 < m) (h : l ≤ m.log2 + k) : 2 ^ l ≤ m * 2 ^ k := by
  calc 2 ^ l ≤ 2 ^ (m.log2 + k) := Nat.pow_le_pow_right (by decide) h
    _ = 2 ^ m.log2 * 2 ^ k := pow_add _ _ _
    _ ≤ m * 2 ^ k := Nat.mul_le_mul_right _ (Nat.log2_self_le hm.ne')

/-- The least exponent that leaves 53 bits to a mantissa, or the least one of the format. -/
theorem targetExponent_eq (t : ℤ) : Format.binary64.targetExponent t = max (t - 53) (-1074) :=
  rfl

/-- A mantissa with its accuracy is the mantissa. -/
@[simp] theorem mantissa_ofMantissaAndAccuracy (m : ℕ) (a : Accuracy) :
    (ExtendedMantissa.ofMantissaAndAccuracy m a).mantissa = m := by
  unfold ExtendedMantissa.ofMantissaAndAccuracy
  split <;> rfl

/-- Shifting to an exponent that lies `k` higher. -/
theorem shiftToTargetExponent_eq {m k : ℕ} {e : ℤ} (a : Accuracy)
    (h : max ((m.log2 : ℤ) + 1 + e - 53) (-1074) = e + k) :
    shiftToTargetExponent Format.binary64 m e a =
      (ExtendedMantissa.ofMantissaAndAccuracy m a >>> k, e + k) := by
  have hk : (e + k - e : ℤ).toNat = k := by omega
  rw [shiftToTargetExponent, targetExponent_eq, totalExponent, h, shiftToExponent, hk]

/-- Nothing is shifted when the mantissa is short enough already. -/
theorem shiftToTargetExponent_of_le {m : ℕ} {e : ℤ} (a : Accuracy)
    (h : max ((m.log2 : ℤ) + 1 + e - 53) (-1074) ≤ e) :
    shiftToTargetExponent Format.binary64 m e a = (.ofMantissaAndAccuracy m a, e) := by
  have hk : (max ((m.log2 : ℤ) + 1 + e - 53) (-1074) - e).toNat = 0 := by omega
  rw [shiftToTargetExponent, targetExponent_eq, totalExponent, shiftToExponent, hk]
  simp only [Nat.cast_zero, Int.add_zero]
  rfl

/-- Whether `q` is the **exponent** of the result for a number: 53 bits in front of it hold the
number, and 52 do not unless `q` is the least exponent. -/
def HasExponent (v : ℚ) (q : ℤ) : Prop :=
  -1074 ≤ q ∧ v < 2 ^ 53 * 2 ^ q ∧ (q = -1074 ∨ 2 ^ 52 * 2 ^ q ≤ v)

/-- A power of two is positive. -/
theorem two_zpow_pos (q : ℤ) : (0 : ℚ) < 2 ^ q :=
  zpow_pos (by norm_num) q

/-- A mantissa that is long enough has an exponent below that of the result. -/
theorem le_of_hasExponent {m : ℕ} {e q : ℤ} {a : Accuracy} {v : ℚ}
    (hm : Measures m a (v / 2 ^ e)) (hlong : e ≤ -1074 ∨ 2 ^ 52 ≤ m) (hv : HasExponent v q) :
    e ≤ q := by
  rcases hlong with hlow | hlong
  · exact Int.le_trans hlow hv.1
  have hfloor : ((2 : ℚ) ^ 52) ≤ v / 2 ^ e := by
    have hle := hm.bounds.1
    rw [mantissa_ofMantissaAndAccuracy] at hle
    exact le_trans (by exact_mod_cast hlong) hle
  rw [le_div_iff₀ (two_zpow_pos e)] at hfloor
  have hlt : (2 : ℚ) ^ (52 + e) < 2 ^ (53 + q) := by
    rw [zpow_add₀ (by norm_num), zpow_add₀ (by norm_num)]
    exact lt_of_le_of_lt hfloor hv.2.1
  have := (zpow_lt_zpow_iff_right₀ (by norm_num : (1 : ℚ) < 2)).1 hlt
  omega

/-- **The first shift.** A mantissa that is long enough is shifted to the exponent of the result,
and its last bits still tell where the number lies. -/
theorem exists_shift {m : ℕ} {e q : ℤ} {a : Accuracy} {v : ℚ} (hm : Measures m a (v / 2 ^ e))
    (hlong : e ≤ -1074 ∨ 2 ^ 52 ≤ m) (hv : HasExponent v q) :
    ∃ em, shiftToTargetExponent Format.binary64 m e a = (em, q) ∧ Residue em (v / 2 ^ q) := by
  obtain ⟨k, rfl⟩ := Int.le.dest (le_of_hasExponent hm hlong hv)
  obtain ⟨hlow, hhigh⟩ := hm.bounds
  rw [mantissa_ofMantissaAndAccuracy] at hlow hhigh
  obtain ⟨hleast, hupper, hlower⟩ := hv
  have hsplit : (2 : ℚ) ^ (e + k) = 2 ^ e * 2 ^ k := by
    rw [zpow_add₀ (by norm_num), zpow_natCast]
  rw [hsplit, ← mul_assoc, mul_right_comm] at hupper hlower
  have hlog : m.log2 ≤ 52 + k := by
    have hlt : m < 2 ^ (53 + k) := by
      have : (m : ℚ) < 2 ^ 53 * 2 ^ k :=
        lt_of_le_of_lt hlow ((div_lt_iff₀ (two_zpow_pos e)).2 hupper)
      rw [pow_add]
      exact_mod_cast this
    rcases Nat.eq_zero_or_pos m with rfl | hpos
    · simp
    · have := (Nat.log2_lt hpos.ne').2 hlt
      omega
  have htarget : max ((m.log2 : ℤ) + 1 + e - 53) (-1074) = e + k := by
    rcases hlower with hmin | hlower
    · omega
    · have hle : 2 ^ (52 + k) ≤ m := by
        have : (2 : ℚ) ^ 52 * 2 ^ k < m + 1 :=
          lt_of_le_of_lt ((le_div_iff₀ (two_zpow_pos e)).2 hlower) hhigh
        have hnat : 2 ^ (52 + k) < m + 1 := by
          rw [pow_add]
          exact_mod_cast this
        omega
      have hpos : m ≠ 0 := by
        rintro rfl
        exact absurd hle (by simp)
      have := (Nat.le_log2 hpos).2 hle
      omega
  refine ⟨_, shiftToTargetExponent_eq a htarget, ?_⟩
  rw [hsplit, ← div_div]
  exact Residue.shiftRight hm k

/-! ### Rounding -/

/-- A rounded mantissa of at most 53 bits is not shifted again. -/
theorem roundWithAccuracy_of_lt (s : Sign) {m n : ℕ} {e q : ℤ} {a : Accuracy}
    {em : ExtendedMantissa} (hshift : shiftToTargetExponent Format.binary64 m e a = (em, q))
    (hround : em.roundedMantissa = n) (hpos : 0 < n) (hn : n < 2 ^ 53) (hq : -1074 ≤ q) :
    roundWithAccuracy Format.binary64 s m e a = .finite s n q hpos := by
  have hlog : n.log2 < 53 := (Nat.log2_lt hpos.ne').2 hn
  have hagain := shiftToTargetExponent_of_le .exact (by omega : max ((n.log2 : ℤ) + 1 + q - 53)
    (-1074) ≤ q)
  rw [roundWithAccuracy, hshift]
  simp only [hround, hagain, mantissa_ofMantissaAndAccuracy, dif_neg hpos.ne']

/-- A mantissa that is rounded up to 54 bits is halved. -/
theorem roundWithAccuracy_of_carry (s : Sign) {m : ℕ} {e q : ℤ} {a : Accuracy}
    {em : ExtendedMantissa} (hshift : shiftToTargetExponent Format.binary64 m e a = (em, q))
    (hround : em.roundedMantissa = 2 ^ 53) (hq : -1074 ≤ q) :
    roundWithAccuracy Format.binary64 s m e a = .finite s (2 ^ 52) (q + 1) (by decide) := by
  have hlog : (2 ^ 53 : ℕ).log2 = 53 := Nat.log2_two_pow
  have htarget : max (((2 ^ 53 : ℕ).log2 : ℤ) + 1 + q - 53) (-1074) = q + (1 : ℕ) := by
    rw [hlog]
    omega
  have hagain := shiftToTargetExponent_eq .exact htarget
  rw [roundWithAccuracy, hshift]
  simp only [hround, hagain]
  rfl

/-- Whether a value is **canonical**: it is positive, and all 53 bits of its mantissa are used
unless its exponent is the least one. -/
def Canonical (m : ℕ) (q : ℤ) : Prop :=
  0 < m ∧ m < 2 ^ 53 ∧ -1074 ≤ q ∧ (q = -1074 ∨ 2 ^ 52 ≤ m)

/-- The lower end of the interval that rounds to a value, in its units. Below a power of two the
values lie twice as dense. -/
def lowerEnd (m : ℕ) (q : ℤ) : ℚ :=
  if m = 2 ^ 52 ∧ -1074 < q then m - 1 / 4 else m - 1 / 2

/-- Whether a number **reads as** a value: it lies in the interval of the numbers that round to
it, whose ends belong to it when `m` is even. -/
def ReadsAs (v : ℚ) (m : ℕ) (q : ℤ) : Prop :=
  (lowerEnd m q < v / 2 ^ q ∨ lowerEnd m q = v / 2 ^ q ∧ m % 2 = 0) ∧
    (v / 2 ^ q < m + 1 / 2 ∨ v / 2 ^ q = m + 1 / 2 ∧ m % 2 = 0)

/-- The numbers of the interval lie below the next binade. -/
theorem ReadsAs.lt {v : ℚ} {m : ℕ} {q : ℤ} (h : ReadsAs v m q) (hm : m < 2 ^ 53) :
    v < 2 ^ 53 * 2 ^ q := by
  have hle : v / 2 ^ q ≤ m + 1 / 2 := h.2.elim le_of_lt fun h => h.1.le
  have hm' : (m : ℚ) + 1 ≤ 2 ^ 53 := by exact_mod_cast hm
  rw [← div_lt_iff₀ (two_zpow_pos q)]
  linarith

/-- A value at least as large as its binade has a number in its interval rounded to its mantissa,
in its own units. -/
theorem ReadsAs.roundsTo {v : ℚ} {m : ℕ} {q : ℤ} (h : ReadsAs v m q) : RoundsTo (v / 2 ^ q) m := by
  refine ⟨?_, h.2⟩
  have hend : (m : ℚ) - 1 / 2 ≤ lowerEnd m q := by
    rw [lowerEnd]
    split <;> linarith
  rcases h.1 with hlow | ⟨hlow, heven⟩
  · exact .inl (lt_of_le_of_lt hend hlow)
  · rcases hend.lt_or_eq with hlt | heq
    · exact .inl (hlow ▸ hlt)
    · exact .inr ⟨heq.trans hlow, heven⟩

/-- A number of the interval that lies below the binade of the value is less than a quarter below
a power of two. -/
theorem ReadsAs.of_lt {v : ℚ} {m : ℕ} {q : ℤ} (h : ReadsAs v m q) (hm : 2 ^ 52 ≤ m)
    (hq : -1074 < q) (hv : v < 2 ^ 52 * 2 ^ q) :
    m = 2 ^ 52 ∧ (2 : ℚ) ^ 52 - 1 / 4 ≤ v / 2 ^ q ∧ v / 2 ^ q < 2 ^ 52 := by
  have hlow : lowerEnd m q ≤ v / 2 ^ q := h.1.elim le_of_lt fun h => h.1.le
  have hhigh : v / 2 ^ q < 2 ^ 52 := (div_lt_iff₀ (two_zpow_pos q)).2 hv
  rcases hm.lt_or_eq with hlt | heq
  · have hm' : ((2 : ℚ) ^ 52) + 1 ≤ m := by exact_mod_cast hlt
    rw [lowerEnd, if_neg fun h => hlt.ne' h.1] at hlow
    linarith
  · rw [lowerEnd, if_pos ⟨heq.symm, hq⟩] at hlow
    refine ⟨heq.symm, ?_, hhigh⟩
    rw [← heq] at hlow
    push_cast at hlow
    exact hlow

/-- **Rounding takes every number of the interval to the value.** -/
theorem roundWithAccuracy_eq (s : Sign) {m n : ℕ} {e q : ℤ} {a : Accuracy} {v : ℚ}
    (hm : Measures m a (v / 2 ^ e)) (hlong : e ≤ -1074 ∨ 2 ^ 52 ≤ m) (hc : Canonical n q)
    (hv : ReadsAs v n q) :
    roundWithAccuracy Format.binary64 s m e a = .finite s n q hc.1 := by
  obtain ⟨hpos, hn, hq, hfull⟩ := hc
  have hlt : v < 2 ^ 53 * 2 ^ q := hv.lt hn
  by_cases hbinade : q = -1074 ∨ 2 ^ 52 * 2 ^ q ≤ v
  · obtain ⟨em, hshift, hresidue⟩ := exists_shift hm hlong ⟨hq, hlt, hbinade⟩
    exact roundWithAccuracy_of_lt s hshift (hresidue.roundedMantissa_eq hv.roundsTo) hpos hn hq
  · -- below the power of two `2^52 · 2^q` the units are halved, and rounding carries
    push Not at hbinade
    obtain ⟨hne, hbelow⟩ := hbinade
    obtain ⟨hpower, hlow, hhigh⟩ := hv.of_lt (hfull.resolve_left hne) (by omega) hbelow
    obtain ⟨p, rfl⟩ : ∃ p, q = p + 1 := ⟨q - 1, by omega⟩
    subst hpower
    have hdouble : v / 2 ^ p = 2 * (v / 2 ^ (p + 1)) := by
      rw [zpow_add_one₀ (by norm_num), mul_comm ((2 : ℚ) ^ p), ← div_div, mul_div_assoc']
      ring
    have hexponent : HasExponent v p := by
      refine ⟨by omega, ?_, .inr ?_⟩
      · rw [← div_lt_iff₀ (two_zpow_pos p), hdouble]
        linarith
      · rw [← le_div_iff₀ (two_zpow_pos p), hdouble]
        linarith
    obtain ⟨em, hshift, hresidue⟩ := exists_shift hm hlong hexponent
    have hround : em.roundedMantissa = 2 ^ 53 := by
      refine hresidue.roundedMantissa_eq ⟨?_, .inl ?_⟩
      · rw [hdouble]
        rcases hlow.lt_or_eq with hlt | heq
        · exact .inl (by push_cast; linarith)
        · exact .inr ⟨by push_cast; linarith, by decide⟩
      · rw [hdouble]
        push_cast
        linarith
    exact roundWithAccuracy_of_carry s hshift hround (by omega)

/-! ### Products and quotients -/

/-- Whether a number **is rounded** from a mantissa that measures it and is long enough: the result
is the value that a single rounding gives. -/
def RoundedFrom (v : ℚ) (u : UnpackedFloat) : Prop :=
  ∃ m e a, Measures m a (v / 2 ^ e) ∧ (e ≤ -1074 ∨ 2 ^ 52 ≤ m) ∧
    u = roundWithAccuracy Format.binary64 .positive m e a

/-- An exact mantissa measures its number. -/
theorem measures_exact (m : ℕ) (e : ℤ) : Measures m .exact (m * 2 ^ e / 2 ^ e) := by
  show (m * 2 ^ e / 2 ^ e : ℚ) = m
  rw [mul_div_cancel_right₀ _ (two_zpow_pos e).ne']

/-- The whole part of a quotient measures the quotient, with the accuracy of its remainder. -/
theorem measures_div (m : ℕ) {n : ℕ} (hn : 0 < n) :
    Measures (m / n) (accuracyOfFraction (m % n) n) (m / n) := by
  have hpos : (0 : ℚ) < n := by exact_mod_cast hn
  have hsplit : (n : ℚ) * (m / n : ℕ) + (m % n : ℕ) = m := by exact_mod_cast Nat.div_add_mod m n
  have hmod : ((m % n : ℕ) : ℚ) < n := by exact_mod_cast Nat.mod_lt m hn
  have hquotient : (m : ℚ) / n = (m / n : ℕ) + (m % n : ℕ) / n := by
    rw [← hsplit]
    field_simp
  rw [accuracyOfFraction, hquotient]
  split
  · rename_i hzero
    show ((m / n : ℕ) : ℚ) + (m % n : ℕ) / n = (m / n : ℕ)
    rw [hzero]
    simp
  · rename_i hne
    have hrest : (0 : ℚ) < (m % n : ℕ) / n := by
      have : (0 : ℚ) < (m % n : ℕ) := by exact_mod_cast Nat.pos_of_ne_zero hne
      exact div_pos this hpos
    have hone : ((m % n : ℕ) : ℚ) / n < 1 := by
      rw [div_lt_iff₀ hpos]
      linarith
    cases hcompare : compare (2 * (m % n)) n with
    | lt =>
        have hlt : (2 : ℚ) * (m % n : ℕ) < n := by exact_mod_cast Nat.compare_eq_lt.1 hcompare
        have hhalf : ((m % n : ℕ) : ℚ) / n < 1 / 2 := by
          rw [div_lt_iff₀ hpos]
          linarith
        show ((m / n : ℕ) : ℚ) < _ + _ ∧ _ + _ < ((m / n : ℕ) : ℚ) + 1 / 2
        exact ⟨by linarith, by linarith⟩
    | eq =>
        have heq : (2 : ℚ) * (m % n : ℕ) = n := by exact_mod_cast Nat.compare_eq_eq.1 hcompare
        have hhalf : ((m % n : ℕ) : ℚ) / n = 1 / 2 := by
          rw [div_eq_iff hpos.ne']
          linarith
        show ((m / n : ℕ) : ℚ) + (m % n : ℕ) / n = (m / n : ℕ) + 1 / 2
        rw [hhalf]
    | gt =>
        have hgt : (n : ℚ) < 2 * (m % n : ℕ) := by exact_mod_cast Nat.compare_eq_gt.1 hcompare
        have hhalf : 1 / 2 < ((m % n : ℕ) : ℚ) / n := by
          rw [lt_div_iff₀ hpos]
          linarith
        show ((m / n : ℕ) : ℚ) + 1 / 2 < _ + _ ∧ _ + _ < ((m / n : ℕ) : ℚ) + 1
        exact ⟨by linarith, by linarith⟩

/-- A product is rounded once. -/
theorem roundedFrom_mul {m n : ℕ} {e f : ℤ} {hm : 0 < m} {hn : 0 < n}
    (hlong : 2 ^ 52 ≤ m * n) :
    RoundedFrom (m * 2 ^ e * (n * 2 ^ f))
      (mul Format.binary64 (.finite .positive m e hm) (.finite .positive n f hn)) := by
  refine ⟨m * n, e + f, .exact, ?_, .inr hlong, rfl⟩
  have hproduct : (m * 2 ^ e * (n * 2 ^ f) : ℚ) = (m * n : ℕ) * 2 ^ (e + f) := by
    rw [zpow_add₀ (by norm_num)]
    push_cast
    ring
  rw [hproduct]
  exact measures_exact (m * n) (e + f)

/-- A quotient is rounded once: the dividend is shifted until the quotient is long enough. -/
theorem roundedFrom_div {m n : ℕ} {e f : ℤ} {hm : 0 < m} {hn : 0 < n} :
    RoundedFrom (m * 2 ^ e / (n * 2 ^ f))
      (div Format.binary64 (.finite .positive m e hm) (.finite .positive n f hn)) := by
  have hpos : (0 : ℚ) < n := by exact_mod_cast hn
  obtain ⟨t, ht⟩ : ∃ t : ℤ, t = min (e - f)
      (max ((m.log2 : ℤ) + 1 + e - (n.log2 + 1 + f) - 53) (-1074)) := ⟨_, rfl⟩
  obtain ⟨k, hk⟩ : ∃ k : ℕ, t + k = e - f := Int.le.dest (by omega)
  have hcore : divCore Format.binary64 m e n f =
      (m * 2 ^ k / n, t, accuracyOfFraction (m * 2 ^ k % n) n) := by
    have hshift : (e - f - t).toNat = k := by omega
    rw [divCore]
    simp only [targetExponent_eq, totalExponent, ← ht, hshift, Nat.shiftLeft_eq]
  refine ⟨m * 2 ^ k / n, t, accuracyOfFraction (m * 2 ^ k % n) n, ?_, ?_, ?_⟩
  · have hquotient : (m * 2 ^ e / (n * 2 ^ f) / 2 ^ t : ℚ) = (m * 2 ^ k : ℕ) / n := by
      have he : e = t + k + f := by omega
      rw [he, zpow_add₀ (by norm_num), zpow_add₀ (by norm_num), zpow_natCast]
      have := (two_zpow_pos f).ne'
      have := (two_zpow_pos t).ne'
      push_cast
      field_simp
    rw [hquotient]
    exact measures_div (m * 2 ^ k) hn
  · by_cases hleast : t ≤ -1074
    · exact .inl hleast
    · right
      have hbits : 52 + (n.log2 + 1) ≤ m.log2 + k := by omega
      rw [Nat.le_div_iff_mul_le hn]
      calc 2 ^ 52 * n ≤ 2 ^ 52 * 2 ^ (n.log2 + 1) :=
            Nat.mul_le_mul_left _ Nat.lt_log2_self.le
        _ = 2 ^ (52 + (n.log2 + 1)) := (pow_add _ _ _).symm
        _ ≤ m * 2 ^ k := two_pow_le_mul hm hbits
  · rw [div, hcore]
    rfl

/-! ### Decimals -/

/-- A decimal with whole numbers of any size is rounded once, unless its exponent is far beyond the
range of the format. -/
theorem roundedFrom_ofScientific {d : ℕ} {e : ℤ} (hd : 0 < d) (hlow : -(2048 + (d.log2 : ℤ)) ≤ e)
    (hhigh : e ≤ 2048) :
    RoundedFrom (d * 10 ^ e) (UnpackedFloat.ofScientific Format.binary64 d e) := by
  have hbits : (2 ^ Format.binary64.exponentBits : ℤ) = 2048 := rfl
  have hmantissa : Format.binary64.mantissaBits = 53 := rfl
  rw [UnpackedFloat.ofScientific, dif_neg hd.ne', if_neg (by rw [hbits]; omega),
    if_neg (by rw [hbits]; omega)]
  split
  · rename_i hsign
    obtain ⟨k, rfl⟩ := Int.eq_ofNat_of_zero_le hsign
    have hlong : 2 ^ 52 ≤ (d <<< 53) * 10 ^ k := by
      rw [Nat.shiftLeft_eq]
      calc 2 ^ 52 ≤ 1 * 2 ^ 53 * 1 := by decide
        _ ≤ d * 2 ^ 53 * 10 ^ k :=
            Nat.mul_le_mul (Nat.mul_le_mul_right _ hd) (Nat.one_le_pow _ _ (by decide))
    have hvalue : (d * 10 ^ (k : ℤ) : ℚ) =
        (d <<< 53 : ℕ) * 2 ^ (-53 : ℤ) * ((10 ^ k : ℕ) * 2 ^ (0 : ℤ)) := by
      rw [Nat.shiftLeft_eq]
      push_cast
      rw [zpow_natCast]
      norm_num
      ring
    rw [hvalue]
    exact roundedFrom_mul hlong
  · rename_i hsign
    obtain ⟨k, hk⟩ : ∃ k : ℕ, e = -k := ⟨(-e).toNat, by omega⟩
    have hvalue : (d * 10 ^ e : ℚ) = d * 2 ^ (0 : ℤ) / ((10 ^ (-e).toNat : ℕ) * 2 ^ (0 : ℤ)) := by
      have : (-e).toNat = k := by omega
      rw [this, hk, zpow_neg, zpow_natCast]
      push_cast
      field_simp
    rw [hvalue]
    exact roundedFrom_div

/-- A canonical value with all its bits is taken apart into what it was put together from. -/
theorem unpack_pack {m : ℕ} {q : ℤ} (hpos : 0 < m) (hlow : 2 ^ 52 ≤ m) (hhigh : m < 2 ^ 53)
    (hq : -1074 ≤ q) (hq' : q ≤ 971) :
    (Float.Model.pack (.finite .positive m q hpos)).unpack = .finite .positive m q hpos := by
  rw [← unpackFields_normal .positive hpos hlow hq hq']
  exact unpack_pack_unpackFields .positive (by omega) (by omega) (by omega)

/-- The value itself reads as the value. -/
theorem readsAs_self (m : ℕ) (q : ℤ) : ReadsAs (m * 2 ^ q) m q := by
  have hself : (m * 2 ^ q / 2 ^ q : ℚ) = m := mul_div_cancel_right₀ _ (two_zpow_pos q).ne'
  rw [ReadsAs, hself, lowerEnd]
  refine ⟨.inl ?_, .inl (by linarith)⟩
  split <;> linarith

/-- A whole number of at most 53 bits is not rounded: its mantissa is filled up with zeros. -/
theorem exists_ofNat_eq {d : ℕ} (hd : 0 < d) (hd' : d < 2 ^ 53) :
    ∃ (k : ℕ) (hpos : 0 < d * 2 ^ k), k ≤ 52 ∧ 2 ^ 52 ≤ d * 2 ^ k ∧ d * 2 ^ k < 2 ^ 53 ∧
      UnpackedFloat.ofNat Format.binary64 d = .finite .positive (d * 2 ^ k) (-k) hpos := by
  have hlog : d.log2 < 53 := (Nat.log2_lt hd.ne').2 hd'
  obtain ⟨k, hk⟩ : ∃ k, k + d.log2 = 52 := ⟨52 - d.log2, by omega⟩
  have hlow : 2 ^ 52 ≤ d * 2 ^ k := two_pow_le_mul hd (by omega)
  have hhigh : d * 2 ^ k < 2 ^ 53 := mul_two_pow_lt (by omega)
  have hpos : 0 < d * 2 ^ k := by omega
  refine ⟨k, hpos, by omega, hlow, hhigh, ?_⟩
  have hcompare : compare (d : ℤ) 0 = .gt := Int.compare_eq_gt.2 (by omega)
  have htarget : Format.binary64.targetExponent (totalExponent d 0) = -k := by
    rw [targetExponent_eq, totalExponent]
    omega
  have hdecrease : decreaseExponent d 0 (-k) = (d * 2 ^ k, (-k : ℤ)) := by
    have hshift : (0 - (-k : ℤ)).toNat = k := by omega
    rw [decreaseExponent, hshift, Nat.shiftLeft_eq, Int.zero_sub]
  have hcanonical : Canonical (d * 2 ^ k) (-k) := ⟨hpos, hhigh, by omega, .inr hlow⟩
  have hexact := roundWithAccuracy_eq .positive (measures_exact (d * 2 ^ k) (-k)) (.inr hlow)
    hcanonical (readsAs_self (d * 2 ^ k) (-k))
  rw [UnpackedFloat.ofNat, UnpackedFloat.ofInt, UnpackedFloat.normalize, hcompare]
  simp only [Int.toNat_natCast]
  rw [UnpackedFloat.round, htarget, hdecrease]
  exact hexact

/-- A whole number of at most 53 bits is a value. -/
theorem exists_toFloat_eq {d : ℕ} (hd : 0 < d) (hd' : d < 2 ^ 53) :
    ∃ (m : ℕ) (q : ℤ) (hpos : 0 < m), (d : ℚ) = m * 2 ^ q ∧ 2 ^ 52 ≤ m ∧
      d.toUInt64.toFloat.toModel.unpack = .finite .positive m q hpos := by
  obtain ⟨k, hpos, hk, hlow, hhigh, hround⟩ := exists_ofNat_eq hd hd'
  refine ⟨d * 2 ^ k, -k, hpos, ?_, hlow, ?_⟩
  · rw [zpow_neg, zpow_natCast]
    push_cast
    field_simp
  have hnat : d.toUInt64.toNat = d := by
    rw [Nat.toUInt64, UInt64.toNat_ofNat']
    exact Nat.mod_eq_of_lt (by omega)
  have hmodel : d.toUInt64.toFloat.toModel = .pack (.finite .positive (d * 2 ^ k) (-k) hpos) := by
    show Float.Model.pack (UnpackedFloat.ofNat Format.binary64 d.toUInt64.toNat) = _
    rw [hnat, hround]
  rw [hmodel]
  exact unpack_pack hpos hlow hhigh (by omega) (by omega)

/-- A power with a whole exponent, freed of its denominator. -/
theorem zpow_mul_toNat {b : ℚ} (hb : b ≠ 0) (q : ℤ) : b ^ q * b ^ (-q).toNat = b ^ q.toNat := by
  rcases Int.eq_nat_or_neg q with ⟨k, rfl | rfl⟩
  · simp
  · simp [hb]

/-- The table of powers of ten holds their exact values. -/
theorem powersOfTen_exact : ∀ i : Fin Float.exactlyRepresentablePowersOfTen.size,
    let x := Float.exactlyRepresentablePowersOfTen[i]
    isNegative x = false ∧ isSpecial x = false ∧ 0 < (magnitude x).m ∧
      (magnitude x).m * 2 ^ (magnitude x).q.toNat =
        10 ^ (i : ℕ) * 2 ^ (-(magnitude x).q).toNat := by
  decide +kernel

/-- A power of ten in the table is taken apart into its exact value. -/
theorem exists_unpack_powerOfTen {n : ℕ} (hn : n < Float.exactlyRepresentablePowersOfTen.size) :
    ∃ (m : ℕ) (q : ℤ) (hpos : 0 < m), (10 ^ n : ℚ) = m * 2 ^ q ∧
      Float.exactlyRepresentablePowersOfTen[n].toModel.unpack = .finite .positive m q hpos := by
  obtain ⟨hs, hx, hpos, hvalue⟩ := powersOfTen_exact ⟨n, hn⟩
  refine ⟨_, _, hpos, ?_, unpack_magnitude hs hx hpos⟩
  have hvalue' : ((magnitude Float.exactlyRepresentablePowersOfTen[n]).m : ℚ) *
      2 ^ (magnitude Float.exactlyRepresentablePowersOfTen[n]).q.toNat =
      10 ^ n * 2 ^ (-(magnitude Float.exactlyRepresentablePowersOfTen[n]).q).toNat := by
    exact_mod_cast hvalue
  rw [← zpow_mul_toNat (by norm_num), ← mul_assoc] at hvalue'
  exact (mul_right_cancel₀ (pow_ne_zero _ (by norm_num)) hvalue').symm

/-- A small decimal is the product of two exact values, or their quotient. -/
theorem exists_combined_eq {d n : ℕ} (hd : 0 < d) (hd' : d < 2 ^ 53)
    (hn : n < Float.exactlyRepresentablePowersOfTen.size) :
    (∃ u, RoundedFrom (d * 10 ^ n) u ∧
        d.toUInt64.toFloat * Float.exactlyRepresentablePowersOfTen[n] = .ofModel (.pack u)) ∧
      ∃ u, RoundedFrom (d / 10 ^ n) u ∧
        d.toUInt64.toFloat / Float.exactlyRepresentablePowersOfTen[n] = .ofModel (.pack u) := by
  obtain ⟨m, q, hpos, hvalue, hlong, hunpack⟩ := exists_toFloat_eq hd hd'
  obtain ⟨k, r, hpos', hpower, hunpack'⟩ := exists_unpack_powerOfTen hn
  rw [hvalue, hpower]
  constructor
  · refine ⟨mul Format.binary64 (.finite .positive m q hpos) (.finite .positive k r hpos'), ?_, ?_⟩
    · exact roundedFrom_mul (Nat.le_trans hlong (Nat.le_mul_of_pos_right m hpos'))
    · rw [← hunpack, ← hunpack']
      rfl
  · refine ⟨div Format.binary64 (.finite .positive m q hpos) (.finite .positive k r hpos'), ?_, ?_⟩
    · exact roundedFrom_div
    · rw [← hunpack, ← hunpack']
      rfl

/-- **A decimal is rounded once**, whichever way the library takes. -/
theorem exists_ofScientific_eq {d : ℕ} {e : ℤ} (hd : 0 < d) (hlow : -(2048 + (d.log2 : ℤ)) ≤ e)
    (hhigh : e ≤ 2048) :
    ∃ u, RoundedFrom (d * 10 ^ e) u ∧
      Float.ofScientific d (decide (e < 0)) e.natAbs = .ofModel (.pack u) := by
  rw [Float.ofScientific]
  split
  · rename_i hsmall
    have hsize : e.natAbs < Float.exactlyRepresentablePowersOfTen.size := by
      show e.natAbs < 23
      omega
    obtain ⟨hproduct, hquotient⟩ := exists_combined_eq hd hsmall.1 hsize
    by_cases hsign : e < 0
    · have hpower : (10 : ℚ) ^ e = (10 ^ e.natAbs)⁻¹ := by
        have habs : e = -(e.natAbs : ℤ) := by omega
        rw [habs, zpow_neg, zpow_natCast, Int.natAbs_neg, Int.natAbs_natCast]
      rw [hpower, ← div_eq_mul_inv]
      simpa only [hsign, decide_true, if_true] using hquotient
    · have hpower : (10 : ℚ) ^ e = 10 ^ e.natAbs := by
        have habs : e = (e.natAbs : ℤ) := by omega
        rw [habs, zpow_natCast, Int.natAbs_natCast]
      rw [hpower]
      simpa only [hsign, decide_false, Bool.false_eq_true, if_false] using hproduct
  · refine ⟨_, roundedFrom_ofScientific hd hlow hhigh, ?_⟩
    have hexponent :
        (if decide (e < 0) then Int.negOfNat e.natAbs else Int.ofNat e.natAbs) = e := by
      by_cases hsign : e < 0
      · rw [if_pos (by simpa using hsign), Int.negOfNat_eq]
        show -(e.natAbs : ℤ) = e
        omega
      · rw [if_neg (by simpa using hsign)]
        show (e.natAbs : ℤ) = e
        omega
    simp only [hexponent]
    rfl

/-! ### Reading a decimal -/

/-- A decimal that is neither zero nor far beyond the range of the format is rounded once. -/
theorem exists_nearest_eq {d : ℕ} {e : ℤ} (hd : 0 < d) (hhigh : e ≤ 400)
    (hlow : -400 ≤ e + (d.log2 + 1)) :
    ∃ u, RoundedFrom (d * 10 ^ e) u ∧ nearest d e = .ofModel (.pack u) := by
  obtain ⟨u, hu, heq⟩ := exists_ofScientific_eq (e := e) hd (by omega) (by omega)
  refine ⟨u, hu, ?_⟩
  rw [nearest, if_neg hd.ne']
  simp only
  rw [if_neg (by omega), if_neg (by omega), heq]

/-- A number that reads as a finite value lies in the range of the format. -/
theorem ReadsAs.range {v : ℚ} {n : ℕ} {q : ℤ} (hv : ReadsAs v n q) (hc : Canonical n q)
    (hq : q ≤ 971) : (2 : ℚ) ^ (-1075 : ℤ) ≤ v ∧ v < 2 ^ (1024 : ℤ) := by
  obtain ⟨hpos, hn, hleast, -⟩ := hc
  refine ⟨?_, ?_⟩
  · have hend : (1 : ℚ) / 2 ≤ lowerEnd n q := by
      have hone : (1 : ℚ) ≤ n := by exact_mod_cast hpos
      rw [lowerEnd]
      split <;> linarith
    have hunits : (1 : ℚ) / 2 ≤ v / 2 ^ q :=
      hend.trans (hv.1.elim le_of_lt fun h => h.1.le)
    rw [le_div_iff₀ (two_zpow_pos q)] at hunits
    calc (2 : ℚ) ^ (-1075 : ℤ) ≤ 2 ^ (q - 1) := zpow_le_zpow_right₀ (by norm_num) (by omega)
      _ = 1 / 2 * 2 ^ q := by rw [zpow_sub_one₀ (by norm_num)]; ring
      _ ≤ v := hunits
  · calc v < 2 ^ 53 * 2 ^ q := hv.lt hn
      _ = 2 ^ (53 + q) := by rw [zpow_add₀ (by norm_num)]; rfl
      _ ≤ 2 ^ (1024 : ℤ) := zpow_le_zpow_right₀ (by norm_num) (by omega)

/-- The cut of the reader for large decimals lies beyond the range of the format. -/
theorem two_pow_lt_ten_pow : (2 : ℚ) ^ (1024 : ℤ) < 10 ^ (401 : ℤ) := by
  have hnat : (2 : ℕ) ^ 1024 < 10 ^ 401 := by decide +kernel
  exact_mod_cast hnat

/-- The cut of the reader for small decimals lies below the range of the format. -/
theorem ten_pow_lt_two_pow : (10 : ℚ) ^ (-401 : ℤ) < 2 ^ (-1075 : ℤ) := by
  have hnat : (2 : ℕ) ^ 1075 < 10 ^ 401 := by decide +kernel
  have hcast : (2 : ℚ) ^ (1075 : ℤ) < 10 ^ (401 : ℤ) := by exact_mod_cast hnat
  rw [zpow_neg, zpow_neg]
  exact (inv_lt_inv₀ (zpow_pos (by norm_num) _) (zpow_pos (by norm_num) _)).2 hcast

/-- **Reading rounds to the value.** Every decimal of the interval reads as the value. -/
theorem nearest_eq {d n : ℕ} {e q : ℤ} (hd : 0 < d) (hc : Canonical n q) (hq : q ≤ 971)
    (hv : ReadsAs (d * 10 ^ e) n q) :
    nearest d e = .ofModel (.pack (.finite .positive n q hc.1)) := by
  obtain ⟨hlow, hhigh⟩ := hv.range hc hq
  have hten : (0 : ℚ) < 10 ^ e := zpow_pos (by norm_num) e
  have hupper : e ≤ 400 := by
    by_contra hlarge
    have hpow : (10 : ℚ) ^ (401 : ℤ) ≤ 10 ^ e := zpow_le_zpow_right₀ (by norm_num) (by omega)
    have hone : (1 : ℚ) ≤ d := by exact_mod_cast hd
    have hle : (10 : ℚ) ^ e ≤ d * 10 ^ e := le_mul_of_one_le_left hten.le hone
    exact absurd (hpow.trans (hle.trans hhigh.le)) (not_le.2 two_pow_lt_ten_pow)
  have hlower : -400 ≤ e + (d.log2 + 1) := by
    by_contra hsmall
    have hlog : (d : ℚ) < 10 ^ ((d.log2 : ℤ) + 1) := by
      have hnat : d < 10 ^ (d.log2 + 1) :=
        Nat.lt_of_lt_of_le Nat.lt_log2_self (Nat.pow_le_pow_left (by decide) _)
      exact_mod_cast hnat
    have hlt : (d : ℚ) * 10 ^ e < 10 ^ ((d.log2 : ℤ) + 1) * 10 ^ e :=
      mul_lt_mul_of_pos_right hlog hten
    rw [← zpow_add₀ (by norm_num)] at hlt
    have hpow : (10 : ℚ) ^ ((d.log2 : ℤ) + 1 + e) ≤ 10 ^ (-401 : ℤ) :=
      zpow_le_zpow_right₀ (by norm_num) (by omega)
    exact absurd (hlow.trans (hlt.le.trans hpow)) (not_le.2 ten_pow_lt_two_pow)
  obtain ⟨u, ⟨m, f, a, hm, hlong, rfl⟩, heq⟩ := exists_nearest_eq hd hupper hlower
  rw [heq, roundWithAccuracy_eq .positive hm hlong hc hv]

/-- A positive number is rounded to a positive value. -/
theorem RoundedFrom.isPositive {v : ℚ} {u : UnpackedFloat} (h : RoundedFrom v u) :
    IsPositive u := by
  obtain ⟨m, e, a, -, -, rfl⟩ := h
  unfold roundWithAccuracy
  simp only
  split
  · rfl
  · rfl

/-- What is read from a decimal without a sign is not negative, and it is a number. -/
theorem isNegative_nearest (d : ℕ) (e : ℤ) :
    isNegative (nearest d e) = false ∧ (nearest d e).isNaN = false := by
  rcases Nat.eq_zero_or_pos d with rfl | hd
  · have heq : nearest 0 e = Float.ofBits 0 := rfl
    rw [heq]
    exact ⟨by decide, by decide⟩
  by_cases hhigh : 400 < e
  · have heq : nearest d e = Float.ofBits 0x7FF0000000000000 := by
      rw [nearest, if_neg hd.ne']
      simp only
      rw [if_pos hhigh]
    rw [heq]
    exact ⟨by decide, by decide⟩
  by_cases hlow : e + ((d.log2 : ℤ) + 1) < -400
  · have heq : nearest d e = Float.ofBits 0 := by
      rw [nearest, if_neg hd.ne']
      simp only
      rw [if_neg hhigh, if_pos hlow]
    rw [heq]
    exact ⟨by decide, by decide⟩
  obtain ⟨u, hu, heq⟩ := exists_nearest_eq hd (by omega) (by omega : -400 ≤ e + (d.log2 + 1))
  rw [heq]
  exact isNegative_ofModel_pack hu.isPositive

end Formulary.Number
