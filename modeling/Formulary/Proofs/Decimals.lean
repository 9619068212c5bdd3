import Formulary.Formula.Render
import Formulary.Proofs.Numerals
import Formulary.Proofs.Rounding

/-!
# Written Numbers Read Back

A number in formula text is the shortest decimal that reads back as the value, written without an
exponent: with as many zeros as it takes, and with or without a point. This module follows a value
through the search for its shortest decimal, through the layout and through the reader, and finds
it unchanged. It shows that the text of a positive value is one number, and that the text of a
negative one is the same behind a minus.

## Conventions

The search compares decimals with binary values in whole numbers, by bringing both sides to a
common unit (`compareScaled`). Here the comparison is read as one of rationals, so that what the
search accepts (`Magnitude.readsBack`) is what `ReadsAs` says.

## Main results

* `readsAs_of_readsBack`: what the search accepts reads as the value.
* `readsAs_shortest`: the shortest decimal reads as the value.
* `IsPositional.spells`: positional notation is a number and reads as what it is the notation for.
* `isPositional_positional`: every layout of a decimal without an exponent is positional notation
  for it.
* `read?_literalText`: the text of a value that is not negative reads as the value.
* `literalText_of_isNegative`: the text of a negative value has a minus in front.
-/

namespace Formulary

open Text

namespace Number

/-! ### Comparing decimals with binary values -/

/-- Both sides of a scaled comparison, in a common unit. -/
theorem scaled_eq (a : ℕ) (i : ℤ) (n : ℕ) (j : ℤ) :
    ∃ c : ℚ, 0 < c ∧
      ((a * Nat.pow 10 i.toNat * Nat.pow 2 (-j).toNat : ℕ) : ℚ) = a * 10 ^ i * c ∧
      ((n * Nat.pow 2 j.toNat * Nat.pow 10 (-i).toNat : ℕ) : ℚ) = n * 2 ^ j * c := by
  refine ⟨10 ^ (-i).toNat * 2 ^ (-j).toNat, by positivity, ?_, ?_⟩
  · have hten := zpow_mul_toNat (by norm_num : (10 : ℚ) ≠ 0) i
    push_cast [Nat.pow_eq]
    rw [← hten]
    ring
  · have htwo := zpow_mul_toNat (by norm_num : (2 : ℚ) ≠ 0) j
    push_cast [Nat.pow_eq]
    rw [← htwo]
    ring

/-- **A scaled comparison compares the numbers.** -/
theorem compareScaled_iff (a : ℕ) (i : ℤ) (n : ℕ) (j : ℤ) :
    (compareScaled a i n j = .lt ↔ (a : ℚ) * 10 ^ i < n * 2 ^ j) ∧
      (compareScaled a i n j = .eq ↔ (a : ℚ) * 10 ^ i = n * 2 ^ j) ∧
      (compareScaled a i n j = .gt ↔ (n : ℚ) * 2 ^ j < a * 10 ^ i) := by
  obtain ⟨c, hc, hleft, hright⟩ := scaled_eq a i n j
  rw [compareScaled, Nat.compare_eq_lt, Nat.compare_eq_eq, Nat.compare_eq_gt]
  refine ⟨?_, ?_, ?_⟩
  · rw [← Nat.cast_lt (α := ℚ), hleft, hright]
    exact mul_lt_mul_iff_left₀ hc
  · rw [← Nat.cast_inj (R := ℚ), hleft, hright]
    exact mul_left_inj' hc.ne'
  · rw [← Nat.cast_lt (α := ℚ), hleft, hright]
    exact mul_lt_mul_iff_left₀ hc

/-- The value of a decimal. -/
def Decimal.value (d : Decimal) : ℚ :=
  d.digits * 10 ^ d.exponent

/-- The mark of a magnitude tells where the values below lie denser. -/
theorem narrowBelow_iff (x : Float) :
    (magnitude x).narrowBelow = true ↔
      (magnitude x).m = 2 ^ 52 ∧ -1074 < (magnitude x).q := by
  obtain ⟨-, hf⟩ := fields_lt x
  rw [magnitude]
  by_cases he : exponentField x = 0
  · simp only [he, if_true]
    constructor
    · intro h
      cases h
    · rintro ⟨hm, -⟩
      omega
  · simp only [he, if_false, Bool.and_eq_true, beq_iff_eq, decide_eq_true_eq]
    omega

/-- The ends of the interval in the unit of the search, a quarter of the value's own. -/
theorem interval_eq (x : Float) (hpos : 0 < (magnitude x).m) :
    let a := magnitude x
    let low := if a.narrowBelow then 4 * a.m - 1 else 4 * a.m - 2
    (low : ℚ) * 2 ^ (a.q - 2) = lowerEnd a.m a.q * 2 ^ a.q ∧
      ((4 * a.m + 2 : ℕ) : ℚ) * 2 ^ (a.q - 2) = (a.m + 1 / 2) * 2 ^ a.q := by
  intro a low
  have hm : 0 < a.m := hpos
  have hquarter : (2 : ℚ) ^ (a.q - 2) = 2 ^ a.q / 4 := by
    rw [zpow_sub₀ (by norm_num)]
    norm_num
  have hlow : (low : ℚ) = 4 * lowerEnd a.m a.q := by
    by_cases hn : a.narrowBelow = true
    · have hlow : low = 4 * a.m - 1 := if_pos hn
      rw [hlow, lowerEnd, if_pos ((narrowBelow_iff x).1 hn), Nat.cast_sub (by omega)]
      push_cast
      ring
    · have hlow : low = 4 * a.m - 2 := if_neg hn
      rw [hlow, lowerEnd, if_neg fun h => hn ((narrowBelow_iff x).2 h), Nat.cast_sub (by omega)]
      push_cast
      ring
  rw [hquarter, hlow]
  push_cast
  constructor <;> ring

/-- **What the search accepts reads as the value.** -/
theorem readsAs_of_readsBack {x : Float} {d : Decimal} (hpos : 0 < (magnitude x).m)
    (h : (magnitude x).readsBack d = true) :
    ReadsAs d.value (magnitude x).m (magnitude x).q := by
  obtain ⟨hlow, hhigh⟩ := interval_eq x hpos
  have hunit := two_zpow_pos (magnitude x).q
  simp only [Magnitude.readsBack, Bool.and_eq_true, Bool.or_eq_true, beq_iff_eq] at h
  obtain ⟨hbelow, habove⟩ := h
  rw [(compareScaled_iff _ _ _ _).2.2, (compareScaled_iff _ _ _ _).2.1, hlow,
    ← lt_div_iff₀ hunit, ← div_eq_iff hunit.ne'] at hbelow
  rw [(compareScaled_iff _ _ _ _).1, (compareScaled_iff _ _ _ _).2.1, hhigh,
    ← div_lt_iff₀ hunit, ← div_eq_iff hunit.ne'] at habove
  refine ⟨hbelow.imp_right fun h => ⟨h.2.symm, h.1⟩, habove.imp_right fun h => ⟨h.2, h.1⟩⟩

/-- The value written out in full is the value. -/
theorem value_exact (a : Magnitude) : a.exact.value = a.m * 2 ^ a.q := by
  rw [Magnitude.exact]
  split
  · rename_i hq
    have htwo := zpow_mul_toNat (by norm_num : (2 : ℚ) ≠ 0) a.q
    rw [show (-a.q).toNat = 0 by omega, pow_zero, mul_one] at htwo
    simp [Decimal.value, htwo]
  · rename_i hq
    obtain ⟨n, hn⟩ : ∃ n : ℕ, a.q = -n := ⟨(-a.q).toNat, by omega⟩
    simp only [Decimal.value, hn, neg_neg, Int.toNat_natCast, Nat.pow_eq, zpow_neg, zpow_natCast]
    have hten : (10 : ℚ) ^ n = 2 ^ n * 5 ^ n := by rw [← mul_pow]; norm_num
    push_cast
    rw [hten]
    field_simp

/-- Dropping zeros at the end of the digits keeps the value. -/
theorem value_strip (fuel : ℕ) (d : Decimal) : (d.strip fuel).value = d.value := by
  induction fuel generalizing d with
  | zero => rfl
  | succ fuel ih =>
      rw [Decimal.strip]
      split
      · rename_i hzero
        obtain ⟨n, hn⟩ : ∃ n, d.digits = n * 10 := ⟨d.digits / 10, by omega⟩
        rw [ih, Decimal.value, Decimal.value, hn, Nat.mul_div_cancel _ (by decide),
          zpow_add_one₀ (by norm_num)]
        push_cast
        ring
      · rfl

/-- **The shortest decimal reads as the value.** -/
theorem readsAs_shortest {x : Float} (hpos : 0 < (magnitude x).m) :
    ReadsAs (shortest x).value (magnitude x).m (magnitude x).q := by
  rw [shortest]
  simp only
  rw [if_neg hpos.ne', value_strip]
  cases hd : (magnitude x).shortest? with
  | none =>
      rw [Option.getD_none, value_exact]
      exact readsAs_self _ _
  | some d =>
      rw [Option.getD_some]
      exact readsAs_of_readsBack hpos (Magnitude.shortest?_readsBack hd)

/-- A value that is neither negative nor special is read from every decimal that is equal to its
shortest one. -/
theorem nearest_eq_of_value {x : Float} (hs : isNegative x = false) (hx : isSpecial x = false)
    {d : ℕ} {e : ℤ} (hd : (d : ℚ) * 10 ^ e = (shortest x).value) : nearest d e = x := by
  have hten : (10 : ℚ) ^ e ≠ 0 := zpow_ne_zero e (by norm_num)
  rcases Nat.eq_zero_or_pos (magnitude x).m with hm | hpos
  · have hvalue : (shortest x).value = 0 := by
      rw [shortest]
      simp [hm, Decimal.value]
    have hzero : d = 0 := by
      rw [hvalue, mul_eq_zero, Nat.cast_eq_zero] at hd
      exact hd.resolve_right hten
    subst hzero
    obtain ⟨hmantissa, -⟩ := magnitude_eq x
    have hfields : exponentField x = 0 ∧ fractionField x = 0 := by
      rw [hm] at hmantissa
      split at hmantissa <;> omega
    have hnearest : nearest 0 e = Float.ofBits 0 := rfl
    rw [hnearest]
    exact eq_of_fields (by rw [hs]; decide) (by rw [hfields.1]; decide) (by rw [hfields.2]; decide)
  · obtain ⟨hm, hleast, hq, hfull⟩ := magnitude_bounds hx
    have hreads := readsAs_shortest hpos
    rw [← hd] at hreads
    have hc : Canonical (magnitude x).m (magnitude x).q := ⟨hpos, hm, hleast, hfull⟩
    have hdpos : 0 < d := by
      rcases Nat.eq_zero_or_pos d with rfl | hdpos
      · have hrange := (hreads.range hc hq).1
        rw [Nat.cast_zero, zero_mul] at hrange
        exact absurd hrange (not_le.2 (two_zpow_pos _))
      · exact hdpos
    rw [nearest_eq hdpos hc hq hreads]
    exact ofModel_pack_magnitude hs hx hpos

/-! ### Digits -/

/-- The digits of a number are decimal digits, and they are plain already. -/
theorem isDecimalDigit_of_isDigit {c : Char} (h : c.isDigit = true) :
    isDecimalDigit c = true ∧ plainDigit c = c := by
  have hdigits : ∀ k < 10, isDecimalDigit (Char.ofNat (48 + k)) = true ∧
      plainDigit (Char.ofNat (48 + k)) = Char.ofNat (48 + k) := by
    decide +kernel
  obtain ⟨hlow, hhigh⟩ : 48 ≤ c.toNat ∧ c.toNat ≤ 57 := by
    simpa [Char.isDigit, UInt32.le_iff_toNat_le] using h
  have hc : c = Char.ofNat (48 + (c.toNat - 48)) := by
    rw [Nat.add_sub_cancel' hlow, Char.ofNat_toNat]
  rw [hc]
  exact hdigits _ (by omega)

/-- Digits that are plain stay as they are. -/
theorem map_plainDigit {ds : List Char} (h : ∀ c ∈ ds, c.isDigit = true) :
    AllDigits ds ∧ ds.map plainDigit = ds := by
  refine ⟨fun c hc => (isDecimalDigit_of_isDigit (h c hc)).1, ?_⟩
  rw [List.map_congr_left fun c hc => (isDecimalDigit_of_isDigit (h c hc)).2, List.map_id']

/-- The value of a digit sequence is the one of the library. -/
theorem digitsValue_eq (n : ℕ) (ds : List Char) : digitsValue n ds = Nat.ofDigitChars 10 ds n := by
  rw [digitsValue, Nat.ofDigitChars_eq_foldl]
  simp only [Nat.mul_comm 10]
  rfl

/-- The digits of a number are plain digits, and there is at least one. -/
theorem digitsOf_spec (n : ℕ) :
    (∀ c ∈ digitsOf n, c.isDigit = true) ∧ digitsOf n ≠ [] ∧ digitsValue 0 (digitsOf n) = n := by
  refine ⟨fun c hc => Nat.isDigit_of_mem_toDigits (by decide) (by decide) hc, ?_, ?_⟩
  · exact Nat.toDigits_ne_nil
  · rw [digitsValue_eq, digitsOf, Nat.ofDigitChars_ten_toDigits]

/-- Zeros are plain digits, and behind a number they multiply it. -/
theorem zeros_spec (n k : ℕ) :
    (∀ c ∈ zeros k, c.isDigit = true) ∧ digitsValue n (zeros k) = n * 10 ^ k := by
  constructor
  · intro c hc
    obtain ⟨-, rfl⟩ := List.mem_replicate.1 hc
    decide
  · rw [digitsValue_eq, zeros, Nat.ofDigitChars_replicate_zero, Nat.mul_comm]

/-- Two digit sequences are read one after the other. -/
theorem digitsValue_append (n : ℕ) (ds es : List Char) :
    digitsValue n (ds ++ es) = digitsValue (digitsValue n ds) es :=
  List.foldl_append

/-! ### The layout -/

/-- Whether a text **spells** a value: it is a number and reads as a decimal with that value. -/
def Spells (cs : List Char) (v : ℚ) : Prop :=
  isNumber (String.ofList cs) = true ∧
    ∃ (d : ℕ) (e : ℤ), (d : ℚ) * 10 ^ e = v ∧ read? (String.ofList cs) = some (nearest d e)

/-- Whether a text is **positional notation** for a value: digits alone, or digits around a point
with at least one in front of it. -/
inductive IsPositional : List Char → ℚ → Prop
  | whole {ds : List Char} (hds : ∀ c ∈ ds, c.isDigit = true) (hne : ds ≠ []) :
      IsPositional ds (digitsValue 0 ds)
  | fraction {ds fs : List Char} {v : ℚ} (hds : ∀ c ∈ ds, c.isDigit = true)
      (hfs : ∀ c ∈ fs, c.isDigit = true) (hne : ds ≠ [])
      (hv : (digitsValue 0 (ds ++ fs) : ℚ) * 10 ^ (-fs.length : ℤ) = v) :
      IsPositional (ds ++ '.' :: fs) v

namespace IsPositional

variable {cs : List Char} {v : ℚ}

/-- Positional notation consists of plain digits and points. -/
theorem isDigit_or_point (h : IsPositional cs v) : ∀ c ∈ cs, c.isDigit = true ∨ c = '.' := by
  intro c hc
  cases h with
  | whole hds => exact .inl (hds c hc)
  | fraction hds hfs =>
      rcases List.mem_append.1 hc with hc | hc
      · exact .inl (hds c hc)
      rcases List.mem_cons.1 hc with rfl | hc
      · exact .inr rfl
      · exact .inl (hfs c hc)

/-- Positional notation is a number. -/
theorem isNumber (h : IsPositional cs v) : isNumber (String.ofList cs) = true := by
  rw [isNumber_iff, String.toList_ofList]
  cases h with
  | whole hds hne => exact .inl ⟨(map_plainDigit hds).1, hne⟩
  | @fraction ds fs _ hds hfs hne =>
      exact .inr ⟨ds, fs, rfl, (map_plainDigit hds).1, (map_plainDigit hfs).1,
        fun hnil => hne hnil.1⟩

/-- Positional notation is a numeral with the value. -/
theorem exists_decimal?_eq (h : IsPositional cs v) : ∃ d, decimal? cs = some d ∧ d.value = v := by
  cases h with
  | whole hds hne => exact ⟨_, decimal?_digits hds hne, by simp [Decimal.value]⟩
  | fraction hds hfs hne hv =>
      refine ⟨_, decimal?_fraction hds hfs fun hnil => hne hnil.1, ?_⟩
      rw [Decimal.value, ← digitsValue_append, hv]

/-- Positional notation for a value spells it. -/
theorem spells (h : IsPositional cs v) : Spells cs v := by
  obtain ⟨d, hd, hvalue⟩ := h.exists_decimal?_eq
  have hplain : cs.map plainDigit = cs := by
    refine (List.map_congr_left fun c hc => ?_).trans cs.map_id
    rcases h.isDigit_or_point c hc with hdigit | rfl
    · exact (isDecimalDigit_of_isDigit hdigit).2
    · exact plainDigit_point
  refine ⟨h.isNumber, d.digits, d.exponent, hvalue, ?_⟩
  rw [read?_eq_of_isNumber h.isNumber, String.toList_ofList, hplain, readNumeral_eq, hd]
  rfl

end IsPositional

/-- A whole number with zeros behind its digits, and perhaps a fraction of zero. -/
theorem isPositional_whole {ds : List Char} (hds : ∀ c ∈ ds, c.isDigit = true) (hne : ds ≠ [])
    (k : ℕ) (point : Bool) :
    IsPositional (ds ++ zeros k ++ if point then ['.', '0'] else [])
      (digitsValue 0 ds * 10 ^ k) := by
  have hall : ∀ c ∈ ds ++ zeros k, c.isDigit = true :=
    fun c hc => (List.mem_append.1 hc).elim (hds c) ((zeros_spec 0 k).1 c)
  have hvalue : digitsValue 0 (ds ++ zeros k) = digitsValue 0 ds * 10 ^ k := by
    rw [digitsValue_append, (zeros_spec _ k).2]
  cases point with
  | false =>
      have h := IsPositional.whole hall (by simp [hne])
      rw [hvalue] at h
      simpa using h
  | true =>
      refine .fraction hall (zeros_spec 0 1).1 (by simp [hne]) ?_
      have hzero : digitsValue (digitsValue 0 ds * 10 ^ k) ['0'] = digitsValue 0 ds * 10 ^ k * 10 :=
        rfl
      rw [digitsValue_append, hvalue, hzero, List.length_singleton, Nat.cast_one, zpow_neg_one]
      push_cast
      field_simp

/-- A number with its point between its digits. -/
theorem isPositional_inner {ds : List Char} (hds : ∀ c ∈ ds, c.isDigit = true) {places k : ℕ}
    (hplaces : 0 < places) (hlength : ds.length = places + k) :
    IsPositional (ds.take places ++ '.' :: ds.drop places)
      (digitsValue 0 ds * 10 ^ (-k : ℤ)) := by
  refine .fraction (fun c hc => hds c (List.mem_of_mem_take hc))
    (fun c hc => hds c (List.mem_of_mem_drop hc)) ?_ ?_
  · rw [ne_eq, ← List.length_eq_zero_iff, List.length_take]
    omega
  · rw [List.take_append_drop, List.length_drop, hlength, Nat.add_sub_cancel_left]

/-- A number with its point in front of its digits, and zeros between them. -/
theorem isPositional_leading {ds : List Char} (hds : ∀ c ∈ ds, c.isDigit = true) (k : ℕ) :
    IsPositional ('0' :: '.' :: (zeros k ++ ds))
      (digitsValue 0 ds * 10 ^ (-(k + ds.length : ℕ) : ℤ)) := by
  show IsPositional (['0'] ++ '.' :: (zeros k ++ ds)) _
  refine .fraction (zeros_spec 0 1).1 ?_ (by decide) ?_
  · exact fun c hc => (List.mem_append.1 hc).elim ((zeros_spec 0 k).1 c) (hds c)
  · have hfront : digitsValue 0 ['0'] = 0 := rfl
    rw [digitsValue_append, hfront, digitsValue_append, (zeros_spec 0 k).2, Nat.zero_mul,
      List.length_append, zeros, List.length_replicate]

/-- **Every layout without an exponent is positional notation for the decimal.** -/
theorem isPositional_positional (d : Decimal) (point : Bool) :
    IsPositional (d.positional point) d.value := by
  obtain ⟨hds, hne, hvalue⟩ := digitsOf_spec d.digits
  rw [Decimal.positional, Decimal.value]
  generalize digitsOf d.digits = ds at hds hne hvalue ⊢
  rw [← hvalue]
  split
  · rename_i he
    obtain ⟨k, hk⟩ : ∃ k : ℕ, d.exponent = k := ⟨d.exponent.toNat, by omega⟩
    rw [hk, zpow_natCast, Int.toNat_natCast]
    exact isPositional_whole hds hne k point
  obtain ⟨k, hk⟩ : ∃ k : ℕ, d.exponent = -k := ⟨(-d.exponent).toNat, by omega⟩
  rw [hk]
  split
  · rename_i he hplaces
    exact isPositional_inner hds (by omega) (by omega)
  · rename_i he hplaces
    have hzeros : (k : ℤ) = ((-(ds.length + -k : ℤ)).toNat + ds.length : ℕ) := by
      push_cast
      omega
    have h := isPositional_leading hds (-(ds.length + -k : ℤ)).toNat
    rw [← hzeros] at h
    exact h

/-! ### The text of a literal -/

/-- The positional text of a finite value: a layout of its shortest decimal behind its sign. -/
theorem positional_eq {x : Float} (hx : isSpecial x = false) :
    positional x = String.ofList ((if isNegative x then ['-'] else []) ++
      (shortest x).positional (!needsExponent x)) := by
  rw [positional]
  by_cases hn : needsExponent x = true
  · rw [if_pos hn, hn]
    rfl
  · have hinfinite : isInfinite x = false := by rw [isInfinite, hx, Bool.false_and]
    have hplaces : Layout.standard.positionalFrom ≤ (shortest x).leading ∧
        (shortest x).leading < Layout.standard.positionalBelow := by
      simpa [needsExponent, not_or] using hn
    rw [if_neg hn, standard, Layout.write]
    simp only [isNaN_of_finite hx, hinfinite, hplaces, and_self, if_true, if_false,
      Bool.false_eq_true, hn, Bool.not_false]

end Number

namespace Formula

open Number

/-- The text of an infinite value overflows when it is read. -/
theorem read?_overflowDigits :
    isNumber overflowDigits = true ∧
      read? overflowDigits = some (Float.ofBits 0x7FF0000000000000) := by
  have hdigits : ∀ c ∈ '1' :: zeros 400, c.isDigit = true := by
    intro c hc
    rcases List.mem_cons.1 hc with rfl | hc
    · decide
    · exact (zeros_spec 0 400).1 c hc
  obtain ⟨hall, hmap⟩ := map_plainDigit hdigits
  have hvalue : digitsValue 0 ('1' :: zeros 400) = 1 * 10 ^ 400 := (zeros_spec 1 400).2
  have hnearest : nearest (1 * 10 ^ 400) 0 = Float.ofBits 0x7FF0000000000000 := by
    refine eq_of_toNat_toBits ?_
    have hbits : (nearest (1 * 10 ^ 400) 0).toBits.toNat = 0x7FF0000000000000 := by decide +kernel
    rw [hbits]
    decide +kernel
  have hread : read? overflowDigits = _ :=
    read?_digits (by rw [overflowDigits, String.toList_ofList]; exact hall)
      (by rw [overflowDigits, String.toList_ofList]; exact List.cons_ne_nil _ _)
  rw [overflowDigits, String.toList_ofList, hmap, hvalue, hnearest] at hread
  refine ⟨isNumber_iff.2 (.inl ?_), hread⟩
  rw [overflowDigits, String.toList_ofList]
  exact ⟨hall, List.cons_ne_nil _ _⟩

/-- The text of a finite value. -/
theorem literalText_of_finite {x : Float} (hx : isSpecial x = false) :
    literalText x = String.ofList ((if isNegative x then ['-'] else []) ++
      (shortest x).positional (!needsExponent x)) := by
  have hinfinite : isInfinite x = false := by rw [isInfinite, hx, Bool.false_and]
  rw [literalText, isNaN_of_finite hx, hinfinite, ← positional_eq hx]
  rfl

/-- **The text of a value that is not negative reads as the value.** -/
theorem read?_literalText {x : Float} (hx : x.isNaN = false) (hs : isNegative x = false) :
    isNumber (literalText x) = true ∧ read? (literalText x) = some x := by
  cases hspecial : isSpecial x with
  | false =>
      obtain ⟨hnumber, d, e, hvalue, hread⟩ :=
        (isPositional_positional (shortest x) (!needsExponent x)).spells
      rw [literalText_of_finite hspecial, hs, if_neg (by decide), List.nil_append, hread,
        nearest_eq_of_value hs hspecial hvalue]
      exact ⟨hnumber, rfl⟩
  | true =>
      have hinfinite : isInfinite x = true := by rw [isInfinite_eq_isSpecial hx, hspecial]
      obtain ⟨he, hf⟩ : exponentField x = 2047 ∧ fractionField x = 0 := by
        simpa [isInfinite, isSpecial] using hinfinite
      have hinfinity : x = Float.ofBits 0x7FF0000000000000 :=
        eq_of_fields (by rw [hs]; decide) (by rw [he]; decide) (by rw [hf]; decide)
      have htext : literalText x = overflowDigits := by
        rw [literalText, hx, hinfinite, hs]
        rfl
      rw [htext, hinfinity]
      exact read?_overflowDigits

/-- The text of a negative value: a minus in front of the text of the value without its sign, with
or without parentheses. -/
theorem literalText_of_isNegative {x : Float} (hx : x.isNaN = false) (hs : isNegative x = true) :
    literalText x = "-" ++ literalText (-x) ∨ literalText x = "-(" ++ literalText (-x) ++ ")" := by
  obtain ⟨hmagnitude, hinf⟩ := magnitude_neg hx
  have hsign : isNegative (-x) = false := by rw [isNegative_neg hx, hs, Bool.not_true]
  cases hinfinite : isInfinite x with
  | true =>
      refine .inr ?_
      simp only [literalText, hx, isNaN_neg hx, hinf, hinfinite, hs, hsign, if_true, if_false,
        Bool.false_eq_true]
  | false =>
      refine .inl ?_
      have hshortest : shortest (-x) = shortest x := by rw [shortest, hmagnitude, shortest]
      have hexponent : needsExponent (-x) = needsExponent x := by
        rw [needsExponent, hshortest, needsExponent]
      have hfinite : isSpecial x = false := by rw [← isInfinite_eq_isSpecial hx, hinfinite]
      have hfinite' : isSpecial (-x) = false := by
        rw [← isInfinite_eq_isSpecial (isNaN_neg hx), hinf, hinfinite]
      rw [literalText_of_finite hfinite, literalText_of_finite hfinite', hs, hsign, hshortest,
        hexponent, if_pos rfl, if_neg (by decide), String.ofList_append]
      rfl

end Formula

end Formulary
