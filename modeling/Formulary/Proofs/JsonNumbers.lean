import Formulary.Json.Printer
import Formulary.Json.Reader
import Formulary.Proofs.Decimals

/-!
# Numbers in Records Read Back

A record writes a real number as the shortest decimal that reads as it, with an exponent where the
number is very large or very small, and a whole number as its digits. The reader of a document takes
a number apart before it reads it, and decides by its form whether it is whole. This module proves
that what is written is taken apart into what was put together, and reads as the number.

## Conventions

A **numeral** is a text in its parts: the digits before the point, those behind it, and the exponent
with its sign. The parts are what the grammar of documents wants, so a numeral cannot be malformed.
Sign and numeral are kept apart, as both readers do.

The not a number, which has only one form here, and the infinities are written as words and come
last.

## Main results

* `Numeral.readPlain?_text`: what a numeral reads as.
* `Numeral.readNumber_text`: how a numeral is taken apart in a document.
* `exists_numeral`: the standard text of a finite value is a numeral with its shortest decimal.
* `Json.readNumber_whole`, `Json.readNumber_standard`: numbers read back.
-/

namespace Formulary

open Text

namespace Number

/-! ### Digits in front -/

/-- The digits of a positive number do not begin with a zero. -/
theorem head?_digitsOf {n : ℕ} (hn : 0 < n) : (digitsOf n).head? ≠ some '0' := by
  induction n using Nat.strong_induction_on with
  | _ n ih =>
      by_cases hlt : n < 10
      · have hall : ∀ k < 10, 0 < k → Nat.digitChar k ≠ '0' := by decide
        rw [digitsOf, Nat.toDigits_of_lt_base hlt]
        simpa using hall n hlt hn
      · have happend : digitsOf n = digitsOf (n / 10) ++ [Nat.digitChar (n % 10)] :=
          Nat.toDigits_of_base_le (by decide) (by omega)
        rw [happend, List.head?_append_of_ne_nil _ (digitsOf_spec (n / 10)).2.1]
        exact ih (n / 10) (by omega) (by omega)

/-- The digits of a number are a zero alone or do not begin with one. -/
theorem digitsOf_head (n : ℕ) : digitsOf n = ['0'] ∨ (digitsOf n).head? ≠ some '0' := by
  rcases Nat.eq_zero_or_pos n with rfl | hn
  · exact .inl rfl
  · exact .inr (head?_digitsOf hn)

/-! ### Numerals -/

/-- A **numeral** in its parts: digits before the point that are a zero alone or do not begin with
one, digits behind it, and an exponent with its sign, which is a minus if the flag is set. -/
structure Numeral where
  whole : List Char
  fraction : List Char := []
  exponent : Option (Bool × List Char) := none
  whole_digits : ∀ c ∈ whole, c.isDigit = true
  whole_ne : whole ≠ []
  whole_head : whole = ['0'] ∨ whole.head? ≠ some '0'
  fraction_digits : ∀ c ∈ fraction, c.isDigit = true
  exponent_digits : ∀ e ∈ exponent, e.2 ≠ [] ∧ ∀ c ∈ e.2, c.isDigit = true

namespace Numeral

/-- The text of the fraction. -/
def fractionText (n : Numeral) : List Char :=
  if n.fraction.isEmpty then [] else '.' :: n.fraction

/-- The text of the exponent. -/
def exponentText (n : Numeral) : List Char :=
  match n.exponent with
  | none => []
  | some (negative, es) => 'e' :: (if negative then '-' else '+') :: es

/-- The **text** of a numeral. -/
def text (n : Numeral) : List Char :=
  n.whole ++ (n.fractionText ++ n.exponentText)

/-- The digits of a numeral as a number. -/
def digits (n : Numeral) : ℕ :=
  digitsValue 0 (n.whole ++ n.fraction)

/-- The power of ten that the digits of a numeral count. -/
def scale (n : Numeral) : ℤ :=
  (match n.exponent with
    | none => 0
    | some (negative, es) => if negative then -(digitsValue 0 es : ℤ) else digitsValue 0 es) -
    n.fraction.length

/-- The characters of numerals. -/
def IsFigure (c : Char) : Prop :=
  c.isDigit = true ∨ c = '.' ∨ c = 'e' ∨ c = '+' ∨ c = '-'

/-- A numeral has no other characters. -/
theorem isFigure_of_mem_text (n : Numeral) : ∀ c ∈ n.text, IsFigure c := by
  intro c hc
  rw [text, fractionText, exponentText] at hc
  rcases List.mem_append.1 hc with hc | hc
  · exact .inl (n.whole_digits c hc)
  rcases List.mem_append.1 hc with hc | hc
  · split at hc
    · cases hc
    · rcases List.mem_cons.1 hc with rfl | hc
      · exact .inr (.inl rfl)
      · exact .inl (n.fraction_digits c hc)
  · split at hc
    · cases hc
    · rename_i negative es hexponent
      rcases List.mem_cons.1 hc with rfl | hc
      · exact .inr (.inr (.inl rfl))
      rcases List.mem_cons.1 hc with rfl | hc
      · cases negative
        · exact .inr (.inr (.inr (.inl rfl)))
        · exact .inr (.inr (.inr (.inr rfl)))
      · exact .inl ((n.exponent_digits _ hexponent).2 c hc)

/-- What a figure is for the reader of numbers: it is neither trimmed nor changed nor dropped. -/
theorem IsFigure.plain {c : Char} (h : IsFigure c) :
    isNumberBlank c = false ∧ plainDigit c = c ∧ c ≠ '_' := by
  rcases h with h | rfl | rfl | rfl | rfl
  · obtain ⟨hdigit, hplain⟩ := isDecimalDigit_of_isDigit h
    exact ⟨IsNumeric.isNumberBlank (.inl hdigit), hplain, (ne_of_isDigit_or_point (.inl h)).1⟩
  all_goals exact ⟨by decide, by decide, by decide⟩

/-- A text of figures is read as it is. -/
theorem read?_eq_of_figures {cs : List Char} (h : ∀ c ∈ cs, IsFigure c) :
    read? (String.ofList cs) = readPlain? cs := by
  have htrim : trimBy isNumberBlank cs = cs := trimBy_eq_self fun c hc => (h c hc).plain.1
  have hplain : cs.map plainDigit = cs :=
    (List.map_congr_left fun c hc => (h c hc).plain.2.1).trans cs.map_id
  rw [read?, plainNumber, String.toList_ofList, htrim, hplain,
    dropUnderscores_eq_some (by decide) fun c hc => (h c hc).plain.2.2, Option.bind_some]

/-- What stands behind the digits of a numeral does not begin with a digit. -/
theorem not_digit_behind (n : Numeral) {rest : List Char}
    (hrest : ∀ c ∈ rest.head?, c.isDigit = false) :
    (∀ c ∈ (n.exponentText ++ rest).head?, c.isDigit = false) ∧
      ∀ c ∈ (n.fractionText ++ (n.exponentText ++ rest)).head?, c.isDigit = false := by
  have hexponent : ∀ c ∈ (n.exponentText ++ rest).head?, c.isDigit = false := by
    rw [exponentText]
    split
    · exact hrest
    · rintro c ⟨⟩
      rfl
  refine ⟨hexponent, ?_⟩
  rw [fractionText]
  split
  · exact hexponent
  · rintro c ⟨⟩
    rfl

/-- The exponent of a numeral is read. -/
theorem readExponent_text (n : Numeral) :
    readExponent n.exponentText = some (n.scale + n.fraction.length) := by
  rw [exponentText, scale]
  cases hexponent : n.exponent with
  | none => simp [readExponent]
  | some e =>
      obtain ⟨negative, es⟩ := e
      obtain ⟨hne, hes⟩ := n.exponent_digits _ hexponent
      have hall : es.all Char.isDigit = true := List.all_eq_true.2 hes
      cases negative <;> simp [readExponent, takeSign, hne, hall]

/-- **A numeral spells** its digits in its scale. -/
theorem decimal?_text (n : Numeral) :
    decimal? n.text = some { digits := n.digits, exponent := n.scale } := by
  have hnil : ∀ c ∈ ([] : List Char).head?, c.isDigit = false := fun c hc => by cases hc
  obtain ⟨hexponent, hfraction⟩ := n.not_digit_behind hnil
  rw [List.append_nil] at hexponent hfraction
  have hwhole := span_isDigit n.whole_digits _ hfraction
  have hread := n.readExponent_text
  rw [text, digits, digitsValue_append]
  by_cases hempty : n.fraction = []
  · rw [fractionText, if_pos (by rw [hempty]; rfl), List.nil_append] at hwhole ⊢
    rw [hempty] at hread ⊢
    cases hcs : n.exponentText with
    | nil =>
        rw [hcs] at hwhole hread
        simp only [decimal?, hwhole, hread]
        simp [n.whole_ne]
    | cons c cs =>
        rw [hcs] at hwhole hread
        have hc : c ≠ '.' := by
          rintro rfl
          rw [exponentText] at hcs
          split at hcs <;> cases hcs
        simp only [decimal?, hwhole]
        simp [n.whole_ne, hc, hread]
  · have hspan := span_isDigit n.fraction_digits _ hexponent
    rw [fractionText, if_neg (by simpa using hempty), List.cons_append] at hwhole ⊢
    simp only [decimal?, hwhole, hspan, hread]
    simp [n.whole_ne]

/-- The text of a numeral has no sign. -/
theorem takeSign_text (n : Numeral) : takeSign n.text = (false, n.text) := by
  refine takeSign_eq fun c hc => ?_
  rw [text, List.head?_append_of_ne_nil _ n.whole_ne] at hc
  exact (ne_of_isDigit_or_point (.inl (n.whole_digits c (List.mem_of_mem_head? hc)))).2

/-- **A numeral behind a sign is read**, as the value or the value with the other sign. -/
theorem readPlain?_text (n : Numeral) :
    readPlain? n.text = some (nearest n.digits n.scale) ∧
      readPlain? ('-' :: n.text) = some (-nearest n.digits n.scale) := by
  constructor
  · simp [readPlain?, takeSign_text, readNumeral_eq, decimal?_text]
  · simp [readPlain?, takeSign, readNumeral_eq, decimal?_text]

end Numeral

/-- The sign in front of a number. -/
def signText (negative : Bool) : List Char :=
  if negative then ['-'] else []

/-- A numeral behind a sign is read by the reader of numbers. -/
theorem Numeral.read?_text (n : Numeral) (negative : Bool) :
    read? (String.ofList (signText negative ++ n.text)) =
      some (if negative then -nearest n.digits n.scale else nearest n.digits n.scale) := by
  obtain ⟨hplain, hminus⟩ := n.readPlain?_text
  cases negative with
  | false =>
      rw [if_neg Bool.false_ne_true, ← hplain]
      exact read?_eq_of_figures n.isFigure_of_mem_text
  | true =>
      rw [if_pos rfl, ← hminus]
      refine read?_eq_of_figures fun c hc => ?_
      rcases List.mem_cons.1 hc with rfl | hc
      · exact .inr (.inr (.inr (.inr rfl)))
      · exact n.isFigure_of_mem_text c hc

end Number

namespace Json

open Number

/-! ### Numerals in documents -/

/-- Whether a continuation **ends** a value: the end of the text, a comma or a closing bracket. -/
def Ends (rest : List Char) : Prop :=
  ∀ c ∈ rest.head?, c = ',' ∨ c = ']' ∨ c = '\x7d'

/-- What ends a value does not prolong a number. -/
theorem Ends.not_figure {rest : List Char} (h : Ends rest) :
    ∀ c ∈ rest.head?, c.isDigit = false ∧ c ≠ '.' ∧ c ≠ 'e' ∧ c ≠ 'E' := by
  intro c hc
  rcases h c hc with rfl | rfl | rfl <;> decide

/-- The digits before the point are taken off. -/
theorem takeWhole_append (n : Numeral) {rest : List Char}
    (hrest : ∀ c ∈ rest.head?, c.isDigit = false) :
    takeWhole (n.whole ++ rest) = (n.whole, rest) := by
  rcases n.whole_head with hzero | hhead
  · rw [hzero]
    rfl
  · have hspan := span_isDigit n.whole_digits rest hrest
    obtain ⟨c, cs, hwhole⟩ := List.exists_cons_of_ne_nil n.whole_ne
    rw [hwhole] at hhead hspan ⊢
    have hc : c ≠ '0' := by simpa using hhead
    rw [takeWhole]
    · exact hspan
    · rintro more heq
      exact hc (List.cons.inj heq).1

/-- The fraction is taken off. -/
theorem takeFraction_append (n : Numeral) {rest : List Char} (h : Ends rest) :
    takeFraction (n.fractionText ++ (n.exponentText ++ rest)) =
      (n.fractionText, n.exponentText ++ rest) := by
  obtain ⟨hexponent, -⟩ := n.not_digit_behind fun c hc => (h.not_figure c hc).1
  rw [Numeral.fractionText]
  split
  · have hpoint : ∀ more, n.exponentText ++ rest ≠ '.' :: more := by
      intro more heq
      rw [Numeral.exponentText] at heq
      split at heq
      · exact (h.not_figure '.' (by rw [List.nil_append] at heq; rw [heq]; rfl)).2.1 rfl
      · cases heq
    rw [List.nil_append, takeFraction]
    exact fun more heq => hpoint more heq
  · rename_i hne
    have hspan := span_isDigit n.fraction_digits _ hexponent
    simp only [List.cons_append, takeFraction, hspan, hne]
    simp

/-- The exponent is taken off. -/
theorem takeExponent_append (n : Numeral) {rest : List Char} (h : Ends rest) :
    takeExponent (n.exponentText ++ rest) = (n.exponentText, rest) := by
  rw [Numeral.exponentText]
  split
  · cases rest with
    | nil => rfl
    | cons c rest =>
        obtain ⟨-, -, he, hE⟩ := h.not_figure c rfl
        simp [takeExponent, he, hE]
  · rename_i negative es hes
    obtain ⟨hne, hdigits⟩ := n.exponent_digits _ hes
    have hspan : (es ++ rest).span Char.isDigit = (es, rest) :=
      span_isDigit hdigits rest fun c hc => (h.not_figure c hc).1
    have hempty : es.isEmpty = false := by simpa using hne
    cases negative <;>
      simp only [List.cons_append, takeExponent, true_or, if_true, Bool.false_eq_true, if_false,
        hspan, hempty] <;> rfl

/-- A numeral has a text behind its digits unless it has neither fraction nor exponent. -/
theorem isEmpty_texts (n : Numeral) :
    (n.fractionText.isEmpty && n.exponentText.isEmpty) = true ↔
      n.fraction = [] ∧ n.exponent = none := by
  rw [Numeral.fractionText, Numeral.exponentText, Bool.and_eq_true]
  refine and_congr ?_ ?_
  · by_cases h : n.fraction = [] <;> simp [h]
  · cases n.exponent <;> simp

/-- **A numeral is taken apart in a document**: without fraction and exponent it is whole, and
otherwise it is read as a real number. -/
theorem readNumber_text (n : Numeral) (negative : Bool) {rest : List Char} (h : Ends rest) :
    readNumber (signText negative ++ (n.text ++ rest)) =
      if n.fraction = [] ∧ n.exponent = none then
        if maxDigits < n.whole.length then .error (.tooManyDigits n.whole.length)
        else
          .ok (.whole (if negative then -(digitsValue 0 n.whole) else digitsValue 0 n.whole), rest)
      else
        .ok (.real (if negative then -nearest n.digits n.scale else nearest n.digits n.scale),
          rest) := by
  have hwhole := takeWhole_append n (n.not_digit_behind fun c hc => (h.not_figure c hc).1).2
  have hfraction := takeFraction_append n h
  have hexponent := takeExponent_append n h
  have hassoc : n.text ++ rest = n.whole ++ (n.fractionText ++ (n.exponentText ++ rest)) := by
    rw [Numeral.text, List.append_assoc, List.append_assoc]
  have hempty : n.whole.isEmpty = false := by simpa using n.whole_ne
  have hread := n.read?_text negative
  rw [Numeral.text] at hread
  cases negative with
  | false =>
      have hminus : ∀ more, n.text ++ rest ≠ '-' :: more := by
        intro more heq
        obtain ⟨c, cs, hc⟩ := List.exists_cons_of_ne_nil n.whole_ne
        rw [hassoc, hc] at heq
        have hdigit := n.whole_digits c (by rw [hc]; exact List.mem_cons_self)
        rw [(List.cons.inj heq).1] at hdigit
        cases hdigit
      rw [signText, if_neg Bool.false_ne_true, List.nil_append] at hread ⊢
      rw [readNumber]
      · simp only [hassoc, hwhole, hempty, hfraction, hexponent, List.nil_append, List.append_assoc,
          hread, Bool.false_eq_true, if_false, List.isEmpty_nil, if_true, isEmpty_texts]
      · exact fun more heq => hminus more heq
  | true =>
      rw [signText, if_pos rfl] at hread ⊢
      simp only [List.cons_append, List.nil_append] at hread ⊢
      simp only [readNumber, hassoc, hwhole, hempty, hfraction, hexponent, List.cons_append,
        List.nil_append, List.append_assoc, hread, Bool.false_eq_true, if_false, List.isEmpty_cons,
        if_true, isEmpty_texts]

/-! ### Whole numbers -/

/-- The digits of a number as a numeral. -/
def wholeNumeral (k : ℕ) : Numeral where
  whole := digitsOf k
  whole_digits := (digitsOf_spec k).1
  whole_ne := (digitsOf_spec k).2.1
  whole_head := digitsOf_head k
  fraction_digits := by simp
  exponent_digits := by simp

/-- The text of a whole number is the numeral of its digits behind its sign. -/
theorem toList_whole (n : ℤ) :
    (Number.whole n).toList = signText (decide (n < 0)) ++ (wholeNumeral n.natAbs).text := by
  have htext (k : ℕ) : (wholeNumeral k).text = digitsOf k := List.append_nil _
  rw [htext]
  cases n with
  | ofNat k =>
      rw [Number.whole, String.toList_ofList, signText, if_neg (by simp)]
      rfl
  | negSucc k =>
      rw [Number.whole, String.toList_ofList, signText, if_pos (by simp)]
      rfl

/-- **A whole number reads back**, unless it has too many digits. -/
theorem readNumber_whole {n : ℤ} (hn : (digitsOf n.natAbs).length ≤ maxDigits) {rest : List Char}
    (h : Ends rest) : readNumber ((Number.whole n).toList ++ rest) = .ok (.whole n, rest) := by
  have hdigits : digitsValue 0 (wholeNumeral n.natAbs).whole = n.natAbs := (digitsOf_spec _).2.2
  have hvalue : (if decide (n < 0) = true then -(n.natAbs : ℤ) else n.natAbs) = n := by
    split <;> rename_i hsign <;> simp only [decide_eq_true_eq] at hsign <;> omega
  have hlength : ¬ maxDigits < (wholeNumeral n.natAbs).whole.length := Nat.not_lt.2 hn
  rw [toList_whole, List.append_assoc, readNumber_text _ _ h, hdigits, hvalue, if_pos ⟨rfl, rfl⟩,
    if_neg hlength]

end Json

/-! ### Real numbers -/

namespace Number

/-- Without an exponent, a decimal is written as a numeral with a fraction. A decimal of zero must
not have further zeros. -/
theorem exists_numeral_positional {d : Decimal} (hd : d.digits = 0 → d.exponent = 0) :
    ∃ n : Numeral, n.text = d.positional true ∧ n.fraction ≠ [] := by
  obtain ⟨hds, hne, -⟩ := digitsOf_spec d.digits
  have hform := digitsOf_head d.digits
  have hhead : d.exponent ≠ 0 → (digitsOf d.digits).head? ≠ some '0' := fun he =>
    head?_digitsOf (Nat.pos_of_ne_zero fun h => he (hd h))
  rw [Decimal.positional]
  generalize digitsOf d.digits = ds at hds hne hform hhead ⊢
  have hzeros (k : ℕ) : ∀ c ∈ zeros k, c.isDigit = true := (zeros_spec 0 k).1
  split
  · rename_i he
    have hwhole : ds ++ zeros d.exponent.toNat = ['0'] ∨
        (ds ++ zeros d.exponent.toNat).head? ≠ some '0' := by
      rw [List.head?_append_of_ne_nil _ hne]
      by_cases hexponent : d.exponent = 0
      · rw [hexponent]
        exact hform.imp_left fun h => by simp [h, zeros]
      · exact .inr (hhead hexponent)
    refine ⟨⟨ds ++ zeros d.exponent.toNat, ['0'], none, ?_, by simp [hne], hwhole, hzeros 1,
      by simp⟩, ?_, by simp⟩
    · exact fun c hc => (List.mem_append.1 hc).elim (hds c) (hzeros _ c)
    · rfl
  split
  · rename_i he hplaces
    obtain ⟨k, hk⟩ : ∃ k : ℕ, ds.length + d.exponent = k + 1 :=
      ⟨(ds.length + d.exponent - 1).toNat, by omega⟩
    have hlength : k + 1 < ds.length := by omega
    have hplain : (ds.take (k + 1)).head? ≠ some '0' := by
      rw [List.head?_take, if_neg (Nat.succ_ne_zero k)]
      exact hhead (by omega)
    rw [hk]
    refine ⟨⟨ds.take (k + 1), ds.drop (k + 1), none, fun c hc => hds c (List.mem_of_mem_take hc),
      by simp [hne], .inr hplain, fun c hc => hds c (List.mem_of_mem_drop hc), by simp⟩, ?_, ?_⟩
    · rw [Numeral.text, Numeral.fractionText, if_neg (by simpa using hlength)]
      simp [Numeral.exponentText]
    · simpa using hlength
  · rename_i he hplaces
    refine ⟨⟨['0'], zeros (-(ds.length + d.exponent)).toNat ++ ds, none, hzeros 1, by simp,
      .inl rfl, ?_, by simp⟩, ?_, by simp [hne]⟩
    · exact fun c hc => (List.mem_append.1 hc).elim (hzeros _ c) (hds c)
    · rw [Numeral.text, Numeral.fractionText, if_neg (by simp [hne])]
      simp [Numeral.exponentText]

/-- A padded number consists of digits, and the zeros in front do not change it. -/
theorem padded_spec (width n : ℕ) :
    (∀ c ∈ padded width n, c.isDigit = true) ∧ padded width n ≠ [] ∧
      digitsValue 0 (padded width n) = n := by
  obtain ⟨hds, hne, hvalue⟩ := digitsOf_spec n
  obtain ⟨hzeros, hvalue'⟩ := zeros_spec 0 (width - (digitsOf n).length)
  refine ⟨fun c hc => (List.mem_append.1 hc).elim (hzeros c) (hds c), by simp [padded, hne], ?_⟩
  rw [padded, ← zeros, digitsValue_append, hvalue', Nat.zero_mul, hvalue]

/-- With an exponent, a decimal is written as a numeral with its digits in its scale. -/
theorem exists_numeral_scientific (d : Decimal) :
    ∃ n : Numeral, n.text = d.scientific .standard ∧ n.exponent ≠ none ∧ n.digits = d.digits ∧
      n.scale = d.exponent := by
  obtain ⟨hds, hne, hvalue⟩ := digitsOf_spec d.digits
  have hform := digitsOf_head d.digits
  rw [Decimal.scientific]
  generalize digitsOf d.digits = ds at hds hne hvalue hform ⊢
  obtain ⟨hpadded, hpaddedne, hpaddedvalue⟩ :=
    padded_spec Layout.standard.exponentWidth (d.exponent + ds.length - 1).natAbs
  generalize padded Layout.standard.exponentWidth (d.exponent + ds.length - 1).natAbs = es at *
  have htake : ds.take 1 = ['0'] ∨ (ds.take 1).head? ≠ some '0' := by
    rcases hform with rfl | hhead
    · exact .inl rfl
    · exact .inr (by rwa [List.head?_take, if_neg (by decide)])
  have hexponent : ∀ e ∈ some (decide (d.exponent + ds.length - 1 < 0), es),
      e.2 ≠ [] ∧ ∀ c ∈ e.2, c.isDigit = true := by
    rintro e ⟨⟩
    exact ⟨hpaddedne, hpadded⟩
  refine ⟨⟨ds.take 1, ds.drop 1, some (decide (d.exponent + ds.length - 1 < 0), es),
    fun c hc => hds c (List.mem_of_mem_take hc), by simp [hne], htake,
    fun c hc => hds c (List.mem_of_mem_drop hc), hexponent⟩, ?_, by simp, ?_, ?_⟩
  · have hempty : (ds.drop 1).isEmpty = decide (ds.length ≤ 1) := by
      rw [Bool.eq_iff_iff, List.isEmpty_iff, List.drop_eq_nil_iff, decide_eq_true_eq]
    simp only [Numeral.text, Numeral.fractionText, Numeral.exponentText, hempty, decide_eq_true_eq,
      List.append_assoc]
  · rw [Numeral.digits, List.take_append_drop, hvalue]
  · have hpos : 0 < ds.length := List.length_pos_of_ne_nil hne
    simp only [Numeral.scale, hpaddedvalue, List.length_drop, decide_eq_true_eq]
    split <;> omega

/-- A shortest decimal without digits has no zeros either. -/
theorem exponent_shortest {x : Float} (hx : isSpecial x = false) (h : (shortest x).digits = 0) :
    (shortest x).exponent = 0 := by
  rcases Nat.eq_zero_or_pos (magnitude x).m with hm | hpos
  · simp [shortest, hm]
  · obtain ⟨hm, hleast, hq, hfull⟩ := magnitude_bounds hx
    have hrange := ((readsAs_shortest hpos).range ⟨hpos, hm, hleast, hfull⟩ hq).1
    rw [Decimal.value, h, Nat.cast_zero, zero_mul] at hrange
    exact absurd hrange (not_le.2 (two_zpow_pos _))

/-- The standard text of a finite value: a layout of its shortest decimal behind its sign. -/
theorem standard_eq {x : Float} (hx : isSpecial x = false) :
    standard x = String.ofList (signText (isNegative x) ++
      if Layout.standard.positionalFrom ≤ (shortest x).leading ∧
          (shortest x).leading < Layout.standard.positionalBelow then
        (shortest x).positional true
      else (shortest x).scientific .standard) := by
  have hinfinite : isInfinite x = false := by rw [isInfinite, hx, Bool.false_and]
  rw [standard, Layout.write]
  simp only [isNaN_of_finite hx, hinfinite, Bool.false_eq_true, if_false]
  rfl

/-- The shortest decimal of a finite value is written as a numeral that reads as every value without
a sign that has this decimal. -/
theorem exists_numeral_shortest {x : Float} (hx : isSpecial x = false) :
    ∃ n : Numeral, standard x = String.ofList (signText (isNegative x) ++ n.text) ∧
      (n.fraction ≠ [] ∨ n.exponent ≠ none) ∧
      ∀ y, isNegative y = false → isSpecial y = false → shortest y = shortest x →
        nearest n.digits n.scale = y := by
  rw [standard_eq hx]
  split
  · obtain ⟨n, htext, hfraction⟩ := exists_numeral_positional (exponent_shortest hx)
    refine ⟨n, by rw [htext], .inl hfraction, fun y hs hy hshortest => ?_⟩
    obtain ⟨-, d, e, hvalue, hread⟩ := (isPositional_positional (shortest x) true).spells
    have hread' :=
      (Numeral.read?_eq_of_figures n.isFigure_of_mem_text).trans n.readPlain?_text.1
    rw [htext, hread, nearest_eq_of_value hs hy (hvalue.trans (by rw [hshortest]))] at hread'
    exact (Option.some.inj hread').symm
  · obtain ⟨n, htext, hexponent, hdigits, hscale⟩ := exists_numeral_scientific (shortest x)
    refine ⟨n, by rw [htext], .inr hexponent, fun y hs hy hshortest => ?_⟩
    exact nearest_eq_of_value hs hy (by rw [hdigits, hscale, hshortest, Decimal.value])

/-- **The standard text of a finite value is a numeral behind its sign**, and no whole one. What it
reads as is the value. -/
theorem exists_numeral {x : Float} (hx : isSpecial x = false) :
    ∃ n : Numeral, standard x = String.ofList (signText (isNegative x) ++ n.text) ∧
      (n.fraction ≠ [] ∨ n.exponent ≠ none) ∧
      (if isNegative x then -nearest n.digits n.scale else nearest n.digits n.scale) = x := by
  obtain ⟨n, htext, hreal, hvalue⟩ := exists_numeral_shortest hx
  refine ⟨n, htext, hreal, ?_⟩
  cases hs : isNegative x with
  | false => rw [if_neg Bool.false_ne_true, hvalue x hs hx rfl]
  | true =>
      have hnan := isNaN_of_finite hx
      obtain ⟨hmagnitude, hinfinite⟩ := magnitude_neg hnan
      have hspecial : isSpecial (-x) = false := by
        rw [← isInfinite_eq_isSpecial (isNaN_neg hnan), hinfinite, isInfinite, hx, Bool.false_and]
      rw [if_pos rfl, hvalue (-x) (by rw [isNegative_neg hnan, hs, Bool.not_true]) hspecial
        (by rw [shortest, hmagnitude, shortest]), neg_neg_eq hnan]

end Number

namespace Json

open Number

/-- **A real number reads back.** -/
theorem readNumber_standard {x : Float} (hx : isSpecial x = false) {rest : List Char}
    (h : Ends rest) : readNumber ((standard x).toList ++ rest) = .ok (.real x, rest) := by
  obtain ⟨n, htext, hreal, hvalue⟩ := exists_numeral hx
  have hwhole : ¬ (n.fraction = [] ∧ n.exponent = none) := fun hnone =>
    hreal.elim (· hnone.1) (· hnone.2)
  rw [htext, String.toList_ofList, List.append_assoc, readNumber_text _ _ h, if_neg hwhole, hvalue]

/-- **The text of a real number in a record**: a word for each special value, and the standard text
of every other one. -/
theorem realStandard_cases (x : Float) :
    (realStandard x = "NaN" ∧ x = Float.ofBits 0x7FF8000000000000) ∨
      (realStandard x = "Infinity" ∧ x = Float.ofBits 0x7FF0000000000000) ∨
        (realStandard x = "-Infinity" ∧ x = Float.ofBits 0xFFF0000000000000) ∨
          (realStandard x = standard x ∧ isSpecial x = false) := by
  cases hnan : x.isNaN with
  | true =>
      have hx : x = Float.nan := by simpa only [Float.isNaN_eq_decide_eq_nan, decide_eq_true_eq]
        using hnan
      exact .inl ⟨by rw [realStandard, if_pos hnan], hx.trans rfl⟩
  | false =>
      refine .inr ?_
      cases hspecial : isSpecial x with
      | false =>
          have hinfinite : isInfinite x = false := by rw [isInfinite, hspecial, Bool.false_and]
          refine .inr (.inr ⟨?_, rfl⟩)
          rw [realStandard, hnan, hinfinite]
          rfl
      | true =>
          have hinfinite : isInfinite x = true := by rw [isInfinite_eq_isSpecial hnan, hspecial]
          obtain ⟨he, hf⟩ : exponentField x = 2047 ∧ fractionField x = 0 := by
            simpa [isInfinite, isSpecial] using hinfinite
          cases hs : isNegative x with
          | false =>
              obtain rfl : x = Float.ofBits 0x7FF0000000000000 :=
                eq_of_fields (by rw [hs]; decide) (by rw [he]; decide) (by rw [hf]; decide)
              refine .inl ⟨?_, rfl⟩
              rw [realStandard, hnan, if_neg (by decide), if_pos hinfinite, if_neg (by decide)]
          | true =>
              obtain rfl : x = Float.ofBits 0xFFF0000000000000 :=
                eq_of_fields (by rw [hs]; decide) (by rw [he]; decide) (by rw [hf]; decide)
              refine .inr (.inl ⟨?_, rfl⟩)
              rw [realStandard, hnan, if_neg (by decide), if_pos hinfinite, if_pos (by decide)]

end Json

end Formulary
