import Formulary.Evaluation
import Formulary.Proofs.Sums

/-!
# Counters Are Exact

An aggregate counts by adding one to a value of binary64 and compares the counter with its limit
before each round. Up to `2^53` every whole number is a value and adding one is exact, so the
counters are the whole numbers from one on, and the rounds are those up to the whole part of the
limit. At `2^53` the counter stands still.

## Conventions

`wholeCount limit` is the whole part of the limit as a rational number, and none of it for limits
without rounds: those below one and what is no number. It does not look at how the rounds are run.

## Main results

* `ofNat_add_one`: adding one to a counter below `2^53` is exact.
* `Passable.ofNat_le_iff`: a counter stays within its limit exactly in the rounds up to the whole
  part.
* `rounds_eq`: an aggregate counts from one up to the whole part of its limit.
* `rounds_ne_ok`: it never returns if its limit is not passable.
-/

namespace Formulary.Number

open Float.Model (Format UnpackedFloat)
open Float.Model.UnpackedFloat

/-! ### Counters -/

/-- Every whole number up to `2^53` has a canonical mantissa and exponent. -/
theorem exists_canonical {k : ℕ} (hk : 0 < k) (hk' : k ≤ 2 ^ 53) :
    ∃ m q, Canonical m q ∧ 2 ^ 52 ≤ m ∧ q ≤ 1 ∧ (k : ℚ) = m * 2 ^ q := by
  rcases hk'.lt_or_eq with hlt | rfl
  · obtain ⟨j, hpos, hj, hlow, hhigh, -⟩ := exists_ofNat_eq hk hlt
    refine ⟨k * 2 ^ j, -j, ⟨hpos, hhigh, by omega, .inr hlow⟩, hlow, by omega, ?_⟩
    rw [zpow_neg, zpow_natCast]
    push_cast
    field_simp
  · refine ⟨2 ^ 52, 1, ⟨by decide, by decide, by decide, .inr le_rfl⟩, le_rfl, le_rfl, ?_⟩
    norm_num

/-- A whole number with a canonical mantissa and exponent is the value that they make up. -/
theorem ofNat_eq {k m : ℕ} {q : ℤ} (hk : 0 < k) (hc : Canonical m q) (h : (k : ℚ) = m * 2 ^ q) :
    Float.ofNat k = .ofModel (.pack (.finite .positive m q hc.1)) := by
  obtain ⟨u, ⟨n, e, a, hn, hlong, rfl⟩, heq⟩ :=
    exists_ofScientific_eq (e := 0) hk (by omega) (by omega)
  have hreads : ReadsAs (k * 10 ^ (0 : ℤ)) m q := by
    rw [zpow_zero, mul_one, h]
    exact readsAs_self m q
  rw [roundWithAccuracy_eq .positive hn hlong hc hreads] at heq
  exact heq

/-- A counter is taken apart into its canonical mantissa and exponent. -/
theorem exists_unpack_ofNat {k : ℕ} (hk : 0 < k) (hk' : k ≤ 2 ^ 53) :
    ∃ m q, ∃ hc : Canonical m q, (k : ℚ) = m * 2 ^ q ∧
      (Float.ofNat k).toModel.unpack = .finite .positive m q hc.1 := by
  obtain ⟨m, q, hc, hlow, hq, h⟩ := exists_canonical hk hk'
  refine ⟨m, q, hc, h, ?_⟩
  rw [ofNat_eq hk hc h]
  exact unpack_pack hc.1 hlow hc.2.1 hc.2.2.1 (by omega)

/-- The first counter. -/
theorem one_eq_ofNat : (1.0 : Float) = Float.ofNat 1 :=
  eq_of_toNat_toBits (by decide +kernel)

/-- **Adding one to a counter is exact.** -/
theorem ofNat_add_one {k : ℕ} (hk : 0 < k) (hk' : k < 2 ^ 53) :
    Float.ofNat k + 1.0 = Float.ofNat (k + 1) := by
  obtain ⟨m, q, hm, hvalue, hunpack⟩ := exists_unpack_ofNat hk hk'.le
  obtain ⟨n, r, hn, hone, hunpack'⟩ := exists_unpack_ofNat one_pos (by decide)
  obtain ⟨p, t, hc, -, -, hsum⟩ := exists_canonical (k := k + 1) (by omega) hk'
  have hadd : (m : ℚ) * 2 ^ q + n * 2 ^ r = p * 2 ^ t := by
    rw [← hvalue, ← hone, ← hsum]
    push_cast
    ring
  rw [ofNat_eq (by omega) hc hsum, ← add_eq hm.1 hn.1 hc hadd, ← hunpack, ← hunpack',
    ← one_eq_ofNat]
  rfl

/-- A counter is finite and stands for its whole number. -/
theorem toRat_ofNat {k : ℕ} (hk : 0 < k) (hk' : k ≤ 2 ^ 53) :
    isSpecial (Float.ofNat k) = false ∧ toRat (Float.ofNat k) = k := by
  obtain ⟨m, q, hc, hvalue, hunpack⟩ := exists_unpack_ofNat hk hk'
  obtain ⟨hfinite, hs, hm, hq⟩ := magnitude_of_unpack hunpack
  refine ⟨hfinite, ?_⟩
  rw [toRat_of_positive hs, hm, hq, hvalue]

/-! ### Limits -/

/-- The **whole count** of a limit: its whole part, and nothing for an infinity, for what is no
number and below one. -/
def wholeCount (limit : Float) : ℕ :=
  if isSpecial limit then 0 else ⌊toRat limit⌋₊

/-- Whether a limit is **passable**: it is no number, or it lies below `2^53`, so that the counter
passes it. -/
def Passable (limit : Float) : Prop :=
  limit.isNaN = true ∨ limit < Float.ofNat (2 ^ 53)

/-- A passable limit is no number, the negative infinity, or finite and below `2^53`. -/
theorem Passable.cases {limit : Float} (h : Passable limit) :
    limit.isNaN = true ∨ (isInfinite limit = true ∧ signOf limit = .negative) ∨
      (isSpecial limit = false ∧ toRat limit < 2 ^ 53) := by
  obtain ⟨hfinite, hbound⟩ := toRat_ofNat (k := 2 ^ 53) (by decide) le_rfl
  rcases h with hnan | hlt
  · exact .inl hnan
  rcases unpack_cases limit with ⟨hnan, -⟩ | ⟨hinfinite, -⟩ | ⟨hlimit, -⟩ | ⟨hlimit, -⟩
  · exact .inl hnan
  · exact .inr (.inl ⟨hinfinite, (lt_of_isInfinite hinfinite hfinite).1 hlt⟩)
  all_goals
    rw [lt_iff hlimit hfinite, hbound] at hlt
    exact .inr (.inr ⟨hlimit, by exact_mod_cast hlt⟩)

/-- A passable limit has less than `2^53` rounds. -/
theorem Passable.wholeCount_lt {limit : Float} (h : Passable limit) :
    wholeCount limit < 2 ^ 53 := by
  rw [wholeCount]
  split
  · decide
  · rename_i hfinite
    rw [Nat.floor_lt' (by decide)]
    rcases h.cases with hnan | ⟨hinfinite, -⟩ | ⟨-, hlt⟩
    · rw [isNaN_of_finite (by simpa using hfinite)] at hnan
      cases hnan
    · exact absurd (isSpecial_of_isInfinite hinfinite) hfinite
    · exact_mod_cast hlt

/-- **A counter stays within its limit** exactly in the rounds up to the whole count. -/
theorem Passable.ofNat_le_iff {limit : Float} (h : Passable limit) {k : ℕ} (hk : 0 < k)
    (hk' : k ≤ 2 ^ 53) : Float.ofNat k ≤ limit ↔ k ≤ wholeCount limit := by
  obtain ⟨hfinite, hvalue⟩ := toRat_ofNat hk hk'
  rw [wholeCount]
  rcases h.cases with hnan | ⟨hinfinite, hs⟩ | ⟨hlimit, -⟩
  · have hspecial : isSpecial limit = true := by
      simpa [isSpecial] using ((isNaN_iff limit).1 hnan).1
    rw [if_pos hspecial]
    refine iff_of_false (fun hle => ?_) (by omega)
    rw [(isNaN_of_le hle).2] at hnan
    cases hnan
  · rw [if_pos (isSpecial_of_isInfinite hinfinite), le_of_isInfinite hfinite hinfinite, hs]
    exact iff_of_false Sign.noConfusion (by omega)
  · rw [if_neg (by simp [hlimit]), le_iff hfinite hlimit, hvalue, Nat.le_floor_iff' hk.ne']

/-- No counter exceeds a limit that is not passable. -/
theorem ofNat_le_of_not_passable {limit : Float} (h : ¬ Passable limit) {k : ℕ} (hk : 0 < k)
    (hk' : k ≤ 2 ^ 53) : Float.ofNat k ≤ limit := by
  obtain ⟨hnan, hlt⟩ := not_or.1 h
  obtain ⟨hfinite, hvalue⟩ := toRat_ofNat hk hk'
  obtain ⟨hfinite', hvalue'⟩ := toRat_ofNat (k := 2 ^ 53) (by decide) le_rfl
  have finite (hlimit : isSpecial limit = false) : Float.ofNat k ≤ limit := by
    rw [lt_iff hlimit hfinite', hvalue', not_lt] at hlt
    rw [le_iff hfinite hlimit, hvalue]
    exact le_trans (by exact_mod_cast hk') hlt
  rcases unpack_cases limit with ⟨hlimit, -⟩ | ⟨hlimit, -⟩ | ⟨hlimit, -⟩ | ⟨hlimit, -⟩
  · exact absurd hlimit hnan
  · rw [lt_of_isInfinite hlimit hfinite'] at hlt
    rw [le_of_isInfinite hfinite hlimit]
    cases hs : signOf limit with
    | positive => rfl
    | negative => exact absurd hs hlt
  · exact finite hlimit
  · exact finite hlimit

end Formulary.Number

namespace Formulary

open Number (Passable wholeCount ofNat_add_one one_eq_ofNat ofNat_le_of_not_passable)

/-! ### Rounds -/

/-- Runs the rounds of an aggregate for the counters of a list. -/
def runRounds (op : AggregateOp) (body : ℕ → Workspace → Outcome) :
    List ℕ → (total : Float) → Workspace → Outcome
  | [], total, w => (.ok total, w)
  | k :: ks, total, w =>
    match body k w with
    | (.ok term, w) => runRounds op body ks (op.combine total term) w
    | (.error stop, w) => (.error stop, w)

/-- The rounds from a counter on are those up to the whole count. -/
theorem rounds_ofNat (op : AggregateOp) {limit : Float} (h : Passable limit)
    (body : Float → Workspace → Outcome) {m : ℕ} :
    ∀ {k remaining : ℕ} (total : Float) (w : Workspace), 0 < k → k + m = wholeCount limit + 1 →
      m < remaining →
      rounds op limit body remaining (Float.ofNat k) total w =
        runRounds op (fun k => body (Float.ofNat k)) (List.range' k m) total w := by
  have hcount := h.wholeCount_lt
  induction m with
  | zero =>
      intro k remaining total w hk hm hremaining
      obtain ⟨r, rfl⟩ := Nat.exists_eq_add_of_lt hremaining
      have hover : ¬ Float.ofNat k ≤ limit := by
        rw [h.ofNat_le_iff hk (by omega)]
        omega
      rw [Nat.zero_add, rounds_of_not_le hover]
      rfl
  | succ m ih =>
      intro k remaining total w hk hm hremaining
      obtain ⟨r, rfl⟩ : ∃ r, remaining = r + 1 := ⟨remaining - 1, by omega⟩
      have hle : Float.ofNat k ≤ limit := (h.ofNat_le_iff hk (by omega)).2 (by omega)
      rw [List.range'_succ, runRounds]
      rcases hbody : body (Float.ofNat k) w with ⟨term | stop, next⟩
      · rw [rounds_stop hle hbody]
      · rw [rounds_succ hle hbody, ofNat_add_one hk (by omega)]
        exact ih _ next (by omega) (by omega) (by omega)

/-- **An aggregate counts from one up to the whole count of its limit.** -/
theorem rounds_eq (op : AggregateOp) {limit : Float} (h : Passable limit)
    (body : Float → Workspace → Outcome) (total : Float) (w : Workspace) :
    rounds op limit body exactCount 1.0 total w =
      runRounds op (fun k => body (Float.ofNat k)) (List.range' 1 (wholeCount limit)) total w := by
  rw [one_eq_ofNat]
  exact rounds_ofNat op h body total w one_pos (by omega) h.wholeCount_lt

/-- **An aggregate with any other limit never returns**, however many rounds it is given: at `2^53`
its counter stands still. -/
theorem rounds_ne_ok (op : AggregateOp) {limit : Float} (h : ¬ Passable limit)
    (body : Float → Workspace → Outcome) (remaining : ℕ) (total : Float) (w v : Workspace)
    (x : Float) : rounds op limit body remaining 1.0 total w ≠ (.ok x, v) := by
  have hstill : Float.ofNat (2 ^ 53) + 1.0 = Float.ofNat (2 ^ 53) :=
    Number.eq_of_toNat_toBits (by decide +kernel)
  have hfrom : ∀ {k : ℕ} (total : Float) (w : Workspace), 0 < k → k ≤ 2 ^ 53 →
      rounds op limit body remaining (Float.ofNat k) total w ≠ (.ok x, v) := by
    induction remaining with
    | zero => exact fun _ _ _ _ h => by cases h
    | succ remaining ih =>
        intro k total w hk hk'
        have hle := ofNat_le_of_not_passable h hk hk'
        rcases hbody : body (Float.ofNat k) w with ⟨stop | term, next⟩
        · rw [rounds_stop hle hbody]
          simp
        · rw [rounds_succ hle hbody]
          rcases hk'.lt_or_eq with hlt | rfl
          · rw [ofNat_add_one hk hlt]
            exact ih _ next (by omega) hlt
          · rw [hstill]
            exact ih _ next hk hk'
  rw [one_eq_ofNat]
  exact hfrom total w one_pos (by decide)

end Formulary
