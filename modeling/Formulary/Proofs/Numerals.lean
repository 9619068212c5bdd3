import Formulary.Number.Reader
import Formulary.Number.Shortest
import Formulary.Text.Split
import Formulary.Token
import Mathlib.Data.List.TakeDrop
import Mathlib.Data.List.TakeWhile

/-!
# Every Numeral Reads as a Number

The lexer takes digits of every script with at most one point for a number, and the builder hands
the text of such a token to the number reader. The reader is far more general: it trims blanks,
drops underscores, takes a sign, an exponent or a word. This module shows that on the texts of
number tokens none of that matters: the reader always succeeds, and what it reads is the decimal
that the digits spell.

## Main results

* `isNumber_iff`: the two forms of a number, with and without a point.
* `Number.readNumeral_eq`: a numeral spells a decimal and reads as the value nearest to it.
* `Number.read?_digits`, `Number.read?_fraction`: what the reader makes of the two forms.
* `Number.exists_read?_of_isNumber`: the reader succeeds on every number.
-/

namespace Formulary

open Text

/-! ### The form of a number -/

/-- Whether all characters are decimal digits. -/
def AllDigits (cs : List Char) : Prop :=
  ∀ c ∈ cs, isDecimalDigit c = true

/-- The point is no digit. -/
theorem isDecimalDigit_point : isDecimalDigit '.' = false := by
  decide

/-- The digits that a text starts with are digits. -/
theorem allDigits_takeWhile (cs : List Char) : AllDigits (cs.takeWhile isDecimalDigit) :=
  fun _ hc => List.mem_takeWhile_imp hc

/-- One more digit leaves a row of digits. -/
theorem AllDigits.append_singleton {cs : List Char} {c : Char} (h : AllDigits cs)
    (hc : isDecimalDigit c = true) : AllDigits (cs ++ [c]) := by
  intro x hx
  rcases List.mem_append.1 hx with hx | hx
  · exact h x hx
  · rwa [List.mem_singleton.1 hx]

/-- A **number** is a row of digits, or two rows with a point between them that are not both
empty. -/
theorem isNumber_iff {text : String} :
    isNumber text = true ↔
      (AllDigits text.toList ∧ text.toList ≠ []) ∨
        ∃ ds fs, text.toList = ds ++ '.' :: fs ∧ AllDigits ds ∧ AllDigits fs ∧
          ¬ (ds = [] ∧ fs = []) := by
  constructor
  · intro h
    have hsplit := List.takeWhile_append_dropWhile (p := isDecimalDigit) (l := text.toList)
    have hds := allDigits_takeWhile text.toList
    simp only [isNumber] at h
    split at h
    · rename_i hdrop
      rw [hdrop, List.append_nil] at hsplit
      rw [hsplit] at hds h
      exact .inl ⟨hds, by simpa using h⟩
    · rename_i fs hdrop
      rw [hdrop] at hsplit
      simp only [Bool.and_eq_true, List.all_eq_true, Bool.not_eq_true', Bool.and_eq_false_iff,
        List.isEmpty_eq_false_iff] at h
      refine .inr ⟨_, fs, hsplit.symm, hds, h.1, fun ⟨hd, hf⟩ => ?_⟩
      exact h.2.elim (· hd) (· hf)
    · cases h
  · rintro (⟨hds, hne⟩ | ⟨ds, fs, htext, hds, hfs, hne⟩)
    · have htake := List.takeWhile_eq_self_iff.2 hds
      have hdrop := List.dropWhile_eq_nil_iff.2 hds
      simp [isNumber, htake, hdrop, hne]
    · have hpoint : ∀ c ∈ ('.' :: fs).head?, isDecimalDigit c = false := by
        simp [isDecimalDigit_point]
      obtain ⟨htake, hdrop⟩ := takeWhile_append_of_head hds hpoint
      simp only [isNumber, htext, htake, hdrop, Bool.and_eq_true, List.all_eq_true,
        Bool.not_eq_true', Bool.and_eq_false_iff, List.isEmpty_eq_false_iff]
      exact ⟨hfs, by rwa [not_and_or] at hne⟩

/-! ### Plain digits -/

namespace Number

/-- The digits of all scripts stand apart from the blanks. -/
theorem isBlank_of_isDecimalDigit {c : Char} (h : isDecimalDigit c = true) : isBlank c = false := by
  have hapart : ∀ z ∈ decimalZeros, ∀ r ∈ blankRanges, z + 10 ≤ r.1 ∨ r.2 < z := by decide
  obtain ⟨d, hd⟩ := Option.isSome_iff_exists.1 h
  obtain ⟨z, hz, -⟩ := Option.map_eq_some_iff.1 hd
  have hrange := List.find?_some hz
  simp only [Bool.and_eq_true, decide_eq_true_eq] at hrange
  rw [Bool.eq_false_iff]
  intro hb
  obtain ⟨r, hr, hlow, hhigh⟩ := CodeRanges.holds_iff.1 hb
  have := hapart z (List.mem_of_find?_eq_some hz) r hr
  omega

/-- A digit of any script has a plain digit. -/
theorem isDigit_plainDigit {c : Char} (h : isDecimalDigit c = true) :
    (plainDigit c).isDigit = true := by
  have hplain : ∀ d < 10, (Char.ofNat (0x30 + d)).isDigit = true := by decide
  obtain ⟨d, hd⟩ := Option.isSome_iff_exists.1 h
  rw [plainDigit, hd]
  exact hplain d (digitValue?_lt hd)

/-- The point stays as it is. -/
theorem plainDigit_point : plainDigit '.' = '.' := by
  decide

/-- Whether the character may stand in a number. -/
def IsNumeric (c : Char) : Prop :=
  isDecimalDigit c = true ∨ c = '.'

/-- The plain form of a character of a number is a plain digit or the point. -/
theorem IsNumeric.plainDigit {c : Char} (h : IsNumeric c) :
    (Number.plainDigit c).isDigit = true ∨ Number.plainDigit c = '.' := by
  rcases h with h | rfl
  · exact .inl (isDigit_plainDigit h)
  · exact .inr plainDigit_point

/-- The characters of a number are not trimmed. -/
theorem IsNumeric.isNumberBlank {c : Char} (h : IsNumeric c) : Number.isNumberBlank c = false := by
  rcases h with h | rfl
  · simp [Number.isNumberBlank, isBlank_of_isDecimalDigit h]
  · decide

/-- Trimming leaves a text as it is that holds nothing to trim. -/
theorem trimBy_eq_self {p : Char → Bool} {cs : List Char} (h : ∀ c ∈ cs, p c = false) :
    trimBy p cs = cs := by
  have hdrop {cs : List Char} (h : ∀ c ∈ cs, p c = false) : cs.dropWhile p = cs := by
    cases cs with
    | nil => rfl
    | cons c cs => simp [h c List.mem_cons_self]
  rw [trimBy, hdrop h, hdrop (by simpa using h), List.reverse_reverse]

/-- A text without underscores keeps all its characters. -/
theorem dropUnderscores_eq_some {previous : Char} {cs : List Char} (hp : previous ≠ '_')
    (h : ∀ c ∈ cs, c ≠ '_') : dropUnderscores previous cs = some cs := by
  induction cs generalizing previous with
  | nil => simp [dropUnderscores, hp]
  | cons c cs ih =>
      have hc : c ≠ '_' := h c List.mem_cons_self
      have hrest := ih hc fun x hx => h x (List.mem_cons_of_mem c hx)
      simp [dropUnderscores, hp, hc, hrest]

/-- A plain digit or point is no underscore and no sign. -/
theorem ne_of_isDigit_or_point {c : Char} (h : c.isDigit = true ∨ c = '.') :
    c ≠ '_' ∧ c ≠ '-' ∧ c ≠ '+' := by
  refine ⟨?_, ?_, ?_⟩
  all_goals
    rintro rfl
    revert h
    decide

/-- A text that does not start with a sign has none. -/
theorem takeSign_eq {cs : List Char} (h : ∀ c ∈ cs.head?, c ≠ '-' ∧ c ≠ '+') :
    takeSign cs = (false, cs) := by
  unfold takeSign
  split
  · exact absurd rfl (h '-' rfl).1
  · exact absurd rfl (h '+' rfl).2
  · rfl

/-- The characters of a number are digits and points. -/
theorem isNumeric_of_isNumber {text : String} (h : isNumber text = true) :
    ∀ c ∈ text.toList, IsNumeric c := by
  intro c hc
  rcases isNumber_iff.1 h with ⟨hds, -⟩ | ⟨ds, fs, htext, hds, hfs, -⟩
  · exact .inl (hds c hc)
  rw [htext] at hc
  rcases List.mem_append.1 hc with hc | hc
  · exact .inl (hds c hc)
  rcases List.mem_cons.1 hc with rfl | hc
  · exact .inr rfl
  · exact .inl (hfs c hc)

/-- **The reader sees the numeral alone.** In the text of a number nothing is trimmed, dropped or
taken for a sign. -/
theorem read?_eq_of_isNumber {text : String} (hn : isNumber text = true) :
    read? text =
      (readNumeral (text.toList.map plainDigit) <|> readWord (text.toList.map plainDigit)) := by
  have h := isNumeric_of_isNumber hn
  have hplain : ∀ c ∈ text.toList.map plainDigit, c.isDigit = true ∨ c = '.' := by
    intro c hc
    obtain ⟨c', hc', rfl⟩ := List.mem_map.1 hc
    exact (h c' hc').plainDigit
  have htrim : trimBy isNumberBlank text.toList = text.toList :=
    trimBy_eq_self fun c hc => (h c hc).isNumberBlank
  have hsign : takeSign (text.toList.map plainDigit) = (false, text.toList.map plainDigit) := by
    refine takeSign_eq fun c hc => ?_
    exact (ne_of_isDigit_or_point (hplain c (List.mem_of_mem_head? hc))).2
  rw [read?, plainNumber, htrim,
    dropUnderscores_eq_some (by decide) fun c hc => (ne_of_isDigit_or_point (hplain c hc)).1,
    Option.bind_some, readPlain?, hsign]
  simp

/-! ### The numeral -/

/-- The plain form of digits of any script. -/
theorem AllDigits.map_plainDigit {ds : List Char} (h : AllDigits ds) :
    ∀ c ∈ ds.map plainDigit, c.isDigit = true := by
  intro c hc
  obtain ⟨c', hc', rfl⟩ := List.mem_map.1 hc
  exact isDigit_plainDigit (h c' hc')

/-- The first plain digits of a text, when what follows them starts with none. -/
theorem span_isDigit {ds : List Char} (hds : ∀ c ∈ ds, c.isDigit = true) (rest : List Char)
    (hrest : ∀ c ∈ rest.head?, c.isDigit = false) :
    (ds ++ rest).span Char.isDigit = (ds, rest) := by
  obtain ⟨htake, hdrop⟩ := takeWhile_append_of_head hds hrest
  rw [List.span_eq_takeWhile_dropWhile, htake, hdrop]

/-- The **decimal** that a numeral spells, before it is rounded. -/
def decimal? (cs : List Char) : Option Decimal :=
  let (digits, afterDigits) := cs.span Char.isDigit
  let (fraction, afterFraction) :=
    match afterDigits with
    | '.' :: rest => rest.span Char.isDigit
    | rest => ([], rest)
  if digits.isEmpty && fraction.isEmpty then none
  else
    (readExponent afterFraction).map fun e =>
      { digits := digitsValue (digitsValue 0 digits) fraction, exponent := e - fraction.length }

/-- A numeral reads as the value nearest to its decimal. -/
theorem readNumeral_eq (cs : List Char) :
    readNumeral cs = (decimal? cs).map fun d => nearest d.digits d.exponent := by
  simp only [readNumeral, decimal?, apply_ite (Option.map _), Option.map_none, Option.map_map]
  rfl

/-- Digits without a point are a whole numeral. -/
theorem decimal?_digits {ds : List Char} (hds : ∀ c ∈ ds, c.isDigit = true) (hne : ds ≠ []) :
    decimal? ds = some { digits := digitsValue 0 ds, exponent := 0 } := by
  have hspan := span_isDigit hds [] (by simp)
  rw [List.append_nil] at hspan
  simp only [decimal?, hspan, readExponent]
  simp [hne, digitsValue]

/-- Digits with a point are a numeral whose exponent counts the digits behind the point. -/
theorem decimal?_fraction {ds fs : List Char} (hds : ∀ c ∈ ds, c.isDigit = true)
    (hfs : ∀ c ∈ fs, c.isDigit = true) (hne : ¬ (ds = [] ∧ fs = [])) :
    decimal? (ds ++ '.' :: fs) =
      some { digits := digitsValue (digitsValue 0 ds) fs, exponent := -fs.length } := by
  have hspan := span_isDigit hds ('.' :: fs) (by simp)
  have hfraction := span_isDigit hfs [] (by simp)
  rw [List.append_nil] at hfraction
  simp only [decimal?, hspan, hfraction, readExponent]
  simp [hne]

/-- What the reader makes of a number without a point. -/
theorem read?_digits {text : String} (hds : AllDigits text.toList) (hne : text.toList ≠ []) :
    read? text = some (nearest (digitsValue 0 (text.toList.map plainDigit)) 0) := by
  rw [read?_eq_of_isNumber (isNumber_iff.2 (.inl ⟨hds, hne⟩)),
    readNumeral_eq, decimal?_digits (AllDigits.map_plainDigit hds) (by simpa using hne)]
  rfl

/-- What the reader makes of a number with a point. -/
theorem read?_fraction {text : String} {ds fs : List Char} (htext : text.toList = ds ++ '.' :: fs)
    (hds : AllDigits ds) (hfs : AllDigits fs) (hne : ¬ (ds = [] ∧ fs = [])) :
    read? text =
      some (nearest (digitsValue (digitsValue 0 (ds.map plainDigit)) (fs.map plainDigit))
        (-fs.length)) := by
  have hmap : text.toList.map plainDigit = ds.map plainDigit ++ '.' :: fs.map plainDigit := by
    rw [htext, List.map_append, List.map_cons, plainDigit_point]
  rw [read?_eq_of_isNumber (isNumber_iff.2 (.inr ⟨ds, fs, htext, hds, hfs, hne⟩)), hmap,
    readNumeral_eq, decimal?_fraction (AllDigits.map_plainDigit hds) (AllDigits.map_plainDigit hfs)
      (by simpa using hne), List.length_map]
  rfl

/-- **Every number reads.** The value is the one nearest to some decimal. -/
theorem exists_read?_of_isNumber {text : String} (h : isNumber text = true) :
    ∃ digits exponent, read? text = some (nearest digits exponent) := by
  rcases isNumber_iff.1 h with ⟨hds, hne⟩ | ⟨ds, fs, htext, hds, hfs, hne⟩
  · exact ⟨_, _, read?_digits hds hne⟩
  · exact ⟨_, _, read?_fraction htext hds hfs hne⟩

end Number

end Formulary
