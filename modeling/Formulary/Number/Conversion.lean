import Formulary.Number.Layout
import Formulary.Number.Reader
import Formulary.Text.Quoted

/-!
# Converting to numbers

Settings and user input arrive as texts and other values. Where a number or a whole number is
needed, they are converted, and the conversion says why it fails.

## Main results

* `parse_eq_ok`: a text that reads as a number is that number.
-/

namespace Formulary

/-- Why a **conversion** fails. -/
inductive ConversionFault where
  /-- The text is no number. -/
  | notANumber (text : String)
  /-- The whole number exceeds the range of binary64. -/
  | outOfRange
  /-- The text is no whole number. -/
  | notWhole (text : String)
  /-- The text of a whole number has too many digits. -/
  | tooManyDigits (count : Nat)
  /-- A value that is no number cannot be made whole. -/
  | wholeOfNaN
  /-- An infinity cannot be made whole. -/
  | wholeOfInfinity
  /-- A whole number has too many digits to be written as a text. -/
  | overlong
  /-- The value is of a kind that is never converted. -/
  | wrongKind
  /-- A value of a kind of its own is refused with a message. -/
  | refused (message : String)
  deriving DecidableEq, Repr

/-- The conversion fault in words. -/
def ConversionFault.message : ConversionFault → String
  | notANumber text => "could not convert string to float: " ++ Text.quoted text
  | outOfRange => "int too large to convert to float"
  | notWhole text => "invalid literal for int() with base 10: " ++ Text.quoted text
  | tooManyDigits count =>
    "Exceeds the limit (4300 digits) for integer string conversion: value has " ++ toString count ++
      " digits; use sys.set_int_max_str_digits() to increase the limit"
  | wholeOfNaN => "cannot convert float NaN to integer"
  | wholeOfInfinity => "cannot convert float infinity to integer"
  | overlong =>
    "Exceeds the limit (4300 digits) for integer string conversion; use " ++
      "sys.set_int_max_str_digits() to increase the limit"
  | wrongKind => ""
  | refused message => message

/-- Whether a failed conversion **refuses** the value: it says what is wrong with it. A number that
is out of range and a value of a kind that is never converted are faults of other kinds. -/
def ConversionFault.isRefusal : ConversionFault → Bool
  | outOfRange | wholeOfInfinity | wrongKind => false
  | notANumber _ | notWhole _ | tooManyDigits _ | wholeOfNaN | overlong | refused _ => true

namespace Number

/-- The number that a text spells. -/
def parse (text : String) : Except ConversionFault Float :=
  match read? text with
  | some x => .ok x
  | none => .error (.notANumber text)

/-- A text that reads as a number is that number. -/
theorem parse_eq_ok {text : String} {x : Float} (h : read? text = some x) : parse text = .ok x := by
  simp [parse, h]

/-- The most digits that the text of a whole number may have. -/
def maxWholeDigits : Nat := 4300

/-- The whole number that a text spells. -/
def parseWhole (text : String) : Except ConversionFault Int :=
  match readWhole? text with
  | some n =>
    let count := (text.toList.filter Text.isDecimalDigit).length
    if maxWholeDigits < count then .error (.tooManyDigits count) else .ok n
  | none => .error (.notWhole text)

/-- A value without its fraction. -/
def toWhole (x : Float) : Except ConversionFault Int :=
  if x.isNaN then .error .wholeOfNaN
  else if isInfinite x then .error .wholeOfInfinity
  else .ok (truncate x)

end Number

end Formulary
