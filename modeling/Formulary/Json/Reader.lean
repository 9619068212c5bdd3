import Formulary.Json.Basic
import Formulary.Number.Reader
import Formulary.Text.Hex

/-!
# Reading JSON

A reader for one JSON value with blanks around it. Besides the standard it takes `NaN`,
`Infinity` and `-Infinity`. Control characters inside strings are refused, a repeated name keeps
its first place and takes its last value, and a whole number has at most 4300 digits.
-/

namespace Formulary.Json

open Formulary.Text

/-- Why a text is **unreadable** as JSON. -/
inductive Unreadable where
  /-- The text is no JSON value. -/
  | malformed
  /-- A whole number has too many digits. -/
  | tooManyDigits (count : Nat)
  deriving DecidableEq, Repr

/-- The most digits that a whole number may have. -/
def maxDigits : Nat := 4300

/-- Whether the character may stand between values. -/
def isSpace (c : Char) : Bool :=
  c = ' ' || c = '\t' || c = '\n' || c = '\r'

/-- Drops the blanks in front. -/
def skipSpace (cs : List Char) : List Char :=
  cs.dropWhile isSpace

/-! ### Strings -/

/-- The value of four hexadecimal digits. -/
def unit? (a b c d : Char) : Option Nat := do
  return (((← hexValue? a) * 16 + (← hexValue? b)) * 16 + (← hexValue? c)) * 16 + (← hexValue? d)

/-- The character of a simple escape. -/
def unescape? (c : Char) : Option Char :=
  if c = '"' ∨ c = '\\' ∨ c = '/' then some c
  else if c = 'b' then some (Char.ofNat 0x08)
  else if c = 'f' then some (Char.ofNat 0x0C)
  else if c = 'n' then some '\n'
  else if c = 'r' then some '\r'
  else if c = 't' then some '\t'
  else none

/-- The characters of a string after its opening quote, and what follows the closing one. The
argument `read` holds the characters read so far, and `high` a first surrogate that waits for its
second half; a half without its partner becomes a replacement character. -/
def readText (read : List Char) (high : Option Nat) : List Char → Option (List Char × List Char)
  | [] => none
  | '"' :: rest => some ((flush read high).reverse, rest)
  | '\\' :: 'u' :: a :: b :: c :: d :: rest =>
    match unit? a b c d with
    | none => none
    | some n =>
      if 0xD800 ≤ n ∧ n < 0xDC00 then readText (flush read high) (some n) rest
      else if 0xDC00 ≤ n ∧ n < 0xE000 then
        match high with
        | some first =>
          readText (Char.ofNat (0x10000 + (first - 0xD800) * 0x400 + (n - 0xDC00)) :: read) none rest
        | none => readText (lone :: read) none rest
      else readText (Char.ofNat n :: flush read high) none rest
  | '\\' :: c :: rest =>
    match unescape? c with
    | some c => readText (c :: flush read high) none rest
    | none => none
  | c :: rest => if c.toNat < 0x20 then none else readText (c :: flush read high) none rest
where
  /-- The replacement for a surrogate without its partner. -/
  lone : Char := '\uFFFD'
  /-- Gives up waiting for a second half. -/
  flush (read : List Char) (high : Option Nat) : List Char :=
    if high.isSome then lone :: read else read

/-! ### Numbers -/

/-- Splits off the fraction of a number: a point and at least one digit. -/
def takeFraction (cs : List Char) : List Char × List Char :=
  match cs with
  | '.' :: rest =>
    let (ds, after) := rest.span Char.isDigit
    if ds.isEmpty then ([], cs) else ('.' :: ds, after)
  | _ => ([], cs)

/-- Splits off the exponent of a number: the letter, a sign, and at least one digit. -/
def takeExponent (cs : List Char) : List Char × List Char :=
  match cs with
  | c :: rest =>
    if c = 'e' ∨ c = 'E' then
      let (sign, body) :=
        match rest with
        | '-' :: more => (['-'], more)
        | '+' :: more => (['+'], more)
        | _ => ([], rest)
      let (ds, after) := body.span Char.isDigit
      if ds.isEmpty then ([], cs) else (c :: sign ++ ds, after)
    else ([], cs)
  | [] => ([], [])

/-- The digits before the point: a zero alone, or digits that do not begin with one. -/
def takeWhole (cs : List Char) : List Char × List Char :=
  match cs with
  | '0' :: rest => (['0'], rest)
  | _ => cs.span Char.isDigit

/-- A number and what follows it. -/
def readNumber (cs : List Char) : Except Unreadable (Json × List Char) :=
  let (sign, body) := match cs with
    | '-' :: rest => (['-'], rest)
    | _ => ([], cs)
  let (ds, afterWhole) := takeWhole body
  if ds.isEmpty then .error .malformed
  else
    let (fraction, afterFraction) := takeFraction afterWhole
    let (exponent, rest) := takeExponent afterFraction
    if fraction.isEmpty && exponent.isEmpty then
      if maxDigits < ds.length then .error (.tooManyDigits ds.length)
      else
        let n : Int := Number.digitsValue 0 ds
        .ok (.whole (if sign.isEmpty then n else -n), rest)
    else
      match Number.read? (String.ofList (sign ++ ds ++ fraction ++ exponent)) with
      | some x => .ok (.real x, rest)
      | none => .error .malformed

/-! ### Values -/

/-- Removes a word from the front. -/
def word? (word : String) (cs : List Char) : Option (List Char) :=
  let w := word.toList
  if w.isPrefixOf cs then some (cs.drop w.length) else none

/-- A value that is a word. -/
def readWord? (cs : List Char) : Option (Json × List Char) :=
  ((word? "null" cs).map (Json.null, ·)) <|>
  ((word? "true" cs).map (Json.bool true, ·)) <|>
  ((word? "false" cs).map (Json.bool false, ·)) <|>
  ((word? "NaN" cs).map (Json.real (Float.ofBits 0x7FF8000000000000), ·)) <|>
  ((word? "Infinity" cs).map (Json.real (Float.ofBits 0x7FF0000000000000), ·)) <|>
  ((word? "-Infinity" cs).map (Json.real (Float.ofBits 0xFFF0000000000000), ·))

mutual

/-- A value and what follows it. The fuel bounds the number of calls. -/
def readValue : (fuel : Nat) → List Char → Except Unreadable (Json × List Char)
  | 0, _ => .error .malformed
  | fuel + 1, cs =>
    match cs with
    | '"' :: rest =>
      match readText [] none rest with
      | some (s, rest) => .ok (.text (String.ofList s), rest)
      | none => .error .malformed
    | '[' :: rest =>
      match skipSpace rest with
      | ']' :: rest => .ok (.array [], rest)
      | rest => do
        let (items, rest) ← readItems fuel rest
        return (.array items, rest)
    | '\x7b' :: rest =>
      match skipSpace rest with
      | '\x7d' :: rest => .ok (.object [], rest)
      | rest => do
        let (fields, rest) ← readFields fuel [] rest
        return (.object fields, rest)
    | _ =>
      match readWord? cs with
      | some (value, rest) => .ok (value, rest)
      | none => readNumber cs

/-- The items of an array up to and including its closing bracket. -/
def readItems : (fuel : Nat) → List Char → Except Unreadable (List Json × List Char)
  | 0, _ => .error .malformed
  | fuel + 1, cs => do
    let (item, rest) ← readValue fuel cs
    match skipSpace rest with
    | ']' :: rest => return ([item], rest)
    | ',' :: rest =>
      let (items, rest) ← readItems fuel (skipSpace rest)
      return (item :: items, rest)
    | _ => .error .malformed

/-- The fields of an object up to and including its closing brace, added to those before. -/
def readFields : (fuel : Nat) → Fields → List Char → Except Unreadable (Fields × List Char)
  | 0, _, _ => .error .malformed
  | fuel + 1, before, cs =>
    match cs with
    | '"' :: rest =>
      match readText [] none rest with
      | none => .error .malformed
      | some (name, rest) =>
        match skipSpace rest with
        | ':' :: rest => do
          let (value, rest) ← readValue fuel (skipSpace rest)
          let fields := before.set (String.ofList name) value
          match skipSpace rest with
          | '\x7d' :: rest => return (fields, rest)
          | ',' :: rest => readFields fuel fields (skipSpace rest)
          | _ => .error .malformed
        | _ => .error .malformed
    | _ => .error .malformed

end

/-- Reads a text as one JSON value. -/
def read (cs : List Char) : Except Unreadable Json := do
  let (value, rest) ← readValue (2 * cs.length + 2) (skipSpace cs)
  if (skipSpace rest).isEmpty then return value else .error .malformed

end Formulary.Json
