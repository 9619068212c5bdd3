import Formulary.Proofs.JsonNumbers
import Formulary.Proofs.Lexing

/-!
# Numbers in Formula Text Are Exact

The text of a formula has no exponents, so a number whose standard text has one is written with as
many zeros as it takes instead. That it reads back as the same value would leave room for another
number close to it. This module shows that there is none: both texts denote the same rational
number, and behind its sign the text in the formula is one number for the lexer.

## Conventions

What a text denotes is read off its digits (`rational?`), before anything is rounded. The reader of
numbers rounds the same decimal (`readNumeral_eq`), to the nearest value.

The infinities and the value that is no number denote nothing and are left out.

## Main results

* `rational?_standard`: what the standard text of a value denotes.
* `Formula.literalText_spec`: the text of a value in a formula, and that it denotes the same.
-/

namespace Formulary

namespace Number

/-- The **rational number** that a text denotes: a sign and a decimal. -/
def rational? (s : String) : Option ℚ :=
  let (negative, cs) := takeSign s.toList
  (decimal? cs).map fun d => if negative then -d.value else d.value

/-- The rational number that is written for a value: its shortest decimal with its sign. -/
def writtenValue (x : Float) : ℚ :=
  if isNegative x then -(shortest x).value else (shortest x).value

/-- What a numeral behind a sign denotes. -/
theorem rational?_signText {cs : List Char} {d : Decimal} (hsign : takeSign cs = (false, cs))
    (hd : decimal? cs = some d) (negative : Bool) :
    rational? (String.ofList (signText negative ++ cs)) =
      some (if negative then -d.value else d.value) := by
  cases negative with
  | false => simp [signText, rational?, hsign, hd]
  | true => simp [signText, rational?, takeSign, hd]

namespace IsPositional

variable {cs : List Char} {v : ℚ}

/-- Positional notation has no sign. -/
theorem takeSign_eq (h : IsPositional cs v) : takeSign cs = (false, cs) :=
  Number.takeSign_eq fun c hc =>
    (ne_of_isDigit_or_point (h.isDigit_or_point c (List.mem_of_mem_head? hc))).2

/-- Positional notation behind a sign denotes its value with that sign. -/
theorem rational?_eq (h : IsPositional cs v) (negative : Bool) :
    rational? (String.ofList (signText negative ++ cs)) = some (if negative then -v else v) := by
  obtain ⟨d, hd, rfl⟩ := h.exists_decimal?_eq
  exact rational?_signText h.takeSign_eq hd negative

end IsPositional

/-- **The standard text of a finite value denotes its shortest decimal**, in either layout. -/
theorem rational?_standard {x : Float} (hx : isSpecial x = false) :
    rational? (standard x) = some (writtenValue x) := by
  rw [standard_eq hx, writtenValue]
  split
  · exact (isPositional_positional (shortest x) true).rational?_eq _
  · obtain ⟨n, htext, -, hdigits, hscale⟩ := exists_numeral_scientific (shortest x)
    have hdecimal := n.decimal?_text
    rw [hdigits, hscale] at hdecimal
    rw [← htext]
    exact rational?_signText n.takeSign_text hdecimal _

end Number

namespace Formula

open Number

/-- **The text of a finite value** is a sign, if it has one, and one number without an exponent. It
denotes the same rational number as the standard text. -/
theorem literalText_spec {x : Float} (hx : isSpecial x = false) :
    ∃ body : List Char,
      literalText x = String.ofList (signText (isNegative x) ++ body) ∧
      (∀ c ∈ body, c.isDigit = true ∨ c = '.') ∧
      isNumber (String.ofList body) = true ∧
      Token.ofText (String.ofList body) = .ok [⟨String.ofList body, .operand, some 1⟩] ∧
      rational? (literalText x) = some (writtenValue x) ∧
      rational? (standard x) = some (writtenValue x) := by
  have hbody := isPositional_positional (shortest x) (!needsExponent x)
  have htext : literalText x = String.ofList (signText (isNegative x) ++
      (shortest x).positional (!needsExponent x)) := literalText_of_finite hx
  refine ⟨_, htext, hbody.isDigit_or_point, hbody.isNumber, Token.ofText_of_isNumber hbody.isNumber,
    ?_, rational?_standard hx⟩
  rw [htext]
  exact hbody.rational?_eq _

/-- The value nearest to `-10^-7`: its standard text is `-1e-07`. -/
def minusTenMillionth : Float :=
  Float.ofBits 0xBE7AD7F29ABCAF48

/-- The text of a value whose standard text has an exponent. -/
theorem literalText_minusTenMillionth :
    isSpecial minusTenMillionth = false ∧ standard minusTenMillionth = "-1e-07" ∧
      literalText minusTenMillionth = "-0.0000001" ∧
      ∃ body : List Char,
        literalText minusTenMillionth =
          String.ofList (signText (isNegative minusTenMillionth) ++ body) ∧
        (∀ c ∈ body, c.isDigit = true ∨ c = '.') ∧
        isNumber (String.ofList body) = true ∧
        Token.ofText (String.ofList body) = .ok [⟨String.ofList body, .operand, some 1⟩] ∧
        rational? (literalText minusTenMillionth) = some (writtenValue minusTenMillionth) ∧
        rational? (standard minusTenMillionth) = some (writtenValue minusTenMillionth) :=
  ⟨by decide +kernel, by decide +kernel, by decide +kernel, literalText_spec (by decide +kernel)⟩

end Formula

end Formulary
