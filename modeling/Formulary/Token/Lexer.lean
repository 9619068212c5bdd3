import Formulary.Fault
import Formulary.Text.Alphanumeric
import Formulary.Token

/-!
# Splitting formula text into tokens

At every place the longest token that starts there is taken. A run of letters that spells a
function, in any case, is that function unless another letter follows; any other letter starts a
name, which goes on over letters and digits. So `sinx` is a name, while `sin2` is a function and a
number. Digits of every script form numbers.

## Main results

* `scan_cons_ignored`, `scan_cons_lexeme`: how the text decides about its first character.
-/

namespace Formulary.Token

open Formulary.Text

/-- Whether the character separates tokens and is otherwise without meaning. -/
def isIgnored (c : Char) : Bool :=
  c = ' ' || c = '\t' || c = '\n' || c = '\r' || c = '\x0c'

/-! ### Function words -/

/-- The **function words**. -/
def functionWords : List String :=
  ["sqrt", "log", "ln", "sinh", "sin", "cosh", "cos", "tanh", "tan", "asin", "acos", "atan", "abs",
   "ceil", "floor", "sum", "mult"]

/-- The letter that a character counts as when function words are recognised: case is ignored,
the long s counts as an `s`, and an `i` counts with and without its dot. -/
def foldLetter (c : Char) : Char :=
  if c = 'ſ' then 's'
  else if c = 'ı' ∨ c = 'İ' then 'i'
  else c.toLower

/-- Whether a run of letters spells a function word. -/
def isFunctionWord (run : List Char) : Bool :=
  functionWords.contains (String.ofList (run.map foldLetter))

/-- A letter of a function word in lower case. The dotted capital leaves its dot behind. -/
def lowerLetter (c : Char) : List Char :=
  if c = 'İ' then ['i', '\u0307'] else [c.toLower]

/-! ### Lexemes -/

/-- The length of what continues a number after its first digit. -/
def numberTail (rest : List Char) : Nat :=
  let digits := rest.takeWhile isDecimalDigit
  match rest.dropWhile isDecimalDigit with
  | '.' :: fraction => digits.length + 1 + (fraction.takeWhile isDecimalDigit).length
  | _ => digits.length

/-- The class of the **lexeme** that starts with a character, and how many of the following
characters belong to it. -/
def lexeme? (c : Char) (rest : List Char) : Option (TokenClass × Nat) :=
  if isLetter c then
    let run := rest.takeWhile isLetter
    if isFunctionWord (c :: run) then some (.function, run.length)
    else some (.operand, (rest.takeWhile isAlphanumeric).length)
  else if isDecimalDigit c then some (.operand, numberTail rest)
  else if c = '.' then
    let fraction := rest.takeWhile isDecimalDigit
    if fraction.isEmpty then none else some (.operand, fraction.length)
  else if c = '!' then
    if rest.head? = some '=' then some (.comparison, 1) else some (.function, 0)
  else if c = '=' ∨ c = '>' ∨ c = '<' then some (.comparison, 0)
  else if c = '+' ∨ c = '-' then some (.additive, 0)
  else if c = '*' ∨ c = '/' ∨ c = '%' then some (.multiplicative, 0)
  else if c = '^' then some (.power, 0)
  else if c = '(' ∨ c = ')' ∨ c = ',' then some (.structural, 0)
  else none

/-- The token of a lexeme: the text of a function is in lower case. -/
def ofLexeme (kind : TokenClass) (slice : List Char) (column : Nat) : Token where
  text := String.ofList (if kind = .function then slice.flatMap lowerLetter else slice)
  kind := kind
  column := some column

/-! ### Scanning -/

/-- The column after a character. -/
def nextColumn (column : Nat) (c : Char) : Nat :=
  if c = '\n' then 1 else column + 1

/-- The tokens of a text whose first character stands in the given column. -/
def scan (column : Nat) : List Char → Except Fault (List Token)
  | [] => .ok []
  | c :: rest =>
    if isIgnored c then scan (nextColumn column c) rest
    else
      match lexeme? c rest with
      | none => .error (.unrecognizedCharacter c column)
      | some (kind, n) =>
        (scan (column + 1 + n) (rest.drop n)).map (ofLexeme kind (c :: rest.take n) column :: ·)
termination_by text => text.length
decreasing_by all_goals simp only [List.length_cons, List.length_drop]; omega

/-- An ignored character only moves the column. -/
theorem scan_cons_ignored {column : Nat} {c : Char} {rest : List Char} (h : isIgnored c = true) :
    scan column (c :: rest) = scan (nextColumn column c) rest := by
  rw [scan, if_pos h]

/-- A lexeme becomes a token in front of those of the remaining text. -/
theorem scan_cons_lexeme {column n : Nat} {c : Char} {rest : List Char} {kind : TokenClass}
    (h : isIgnored c = false) (hl : lexeme? c rest = some (kind, n)) :
    scan column (c :: rest) =
      (scan (column + 1 + n) (rest.drop n)).map
        (ofLexeme kind (c :: rest.take n) column :: ·) := by
  rw [scan, if_neg (by simp [h]), hl]

/-- The **tokens** of a formula text. A text without tokens is refused. -/
def ofText (text : String) : Except Fault (List Token) := do
  let tokens ← scan 1 text.toList
  if tokens.isEmpty then .error .emptyInput else return tokens

end Formulary.Token
