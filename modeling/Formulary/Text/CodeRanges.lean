/-!
# Code ranges

A class of characters is kept as a list of inclusive code point ranges in ascending order, the
form in which the Unicode character database publishes its properties. Membership is decided by
looking for a range around the character.
-/

namespace Formulary.Text

/-- **Code ranges**: inclusive ranges of code points, in ascending order. -/
abbrev CodeRanges := List (Nat × Nat)

/-- Whether one of the ranges holds the character. -/
def CodeRanges.holds (ranges : CodeRanges) (c : Char) : Bool :=
  ranges.any fun (low, high) => decide (low ≤ c.toNat) && decide (c.toNat ≤ high)

/-- A character is held exactly when some range encloses its code point. -/
theorem CodeRanges.holds_iff {ranges : CodeRanges} {c : Char} :
    ranges.holds c = true ↔ ∃ r ∈ ranges, r.1 ≤ c.toNat ∧ c.toNat ≤ r.2 := by
  simp [CodeRanges.holds]

end Formulary.Text
