import Formulary.Text.DecimalDigit

/-!
# Tokens

A formula is read as a sequence of tokens. The class of a token is at the same time its binding
strength: of two operators the one with the higher rank binds tighter.

## Main results

* `TokenClass.ofRank?_rank`: a class is determined by its rank.
-/

namespace Formulary

/-- The **class** of a token. -/
inductive TokenClass where
  /-- A number or a name. -/
  | operand
  /-- A comparison of two values. -/
  | comparison
  /-- Addition or subtraction. -/
  | additive
  /-- Multiplication, division or remainder. -/
  | multiplicative
  /-- Exponentiation. -/
  | power
  /-- A minus in front of a value. -/
  | negation
  /-- A function, which is followed by its arguments in parentheses. -/
  | function
  /-- A parenthesis or a comma. -/
  | structural
  /-- The end of the formula. -/
  | finish
  deriving DecidableEq, Repr

namespace TokenClass

/-- The **rank** of a class. -/
def rank : TokenClass → Nat
  | operand => 0
  | comparison => 1
  | additive => 2
  | multiplicative => 3
  | power => 4
  | negation => 5
  | function => 6
  | structural => 7
  | finish => 8

/-- The class with a rank. -/
def ofRank? : Nat → Option TokenClass
  | 0 => some operand
  | 1 => some comparison
  | 2 => some additive
  | 3 => some multiplicative
  | 4 => some power
  | 5 => some negation
  | 6 => some function
  | 7 => some structural
  | 8 => some finish
  | _ => none

/-- Whether the class holds operators between two values. -/
def isBinary (c : TokenClass) : Bool :=
  1 ≤ c.rank && c.rank ≤ 4

/-- Whether the class holds operators in front of their operand. -/
def isLeading (c : TokenClass) : Bool :=
  c == negation || c == function

/-- A class is determined by its rank. -/
@[simp] theorem ofRank?_rank (c : TokenClass) : ofRank? c.rank = some c := by
  cases c <;> rfl

end TokenClass

/-- A **token**: a piece of formula text with its class and, if known, the column of its first
character. -/
structure Token where
  text : String
  kind : TokenClass
  column : Option Nat := none
  deriving DecidableEq, Repr

namespace Token

/-- Whether two tokens are **alike**: of one text and class, wherever they stand. -/
def alike (a b : Token) : Bool :=
  a.text == b.text && a.kind == b.kind

/-- The token as it is listed: its text and rank. -/
def listing (t : Token) : String :=
  t.text ++ "," ++ toString t.kind.rank

/-- Whether the token is an opening parenthesis. -/
def isOpening (t : Token) : Bool :=
  t.kind == .structural && t.text == "("

/-- Whether the token is a closing parenthesis. -/
def isClosing (t : Token) : Bool :=
  t.kind == .structural && t.text == ")"

/-- Whether the token is a comma. -/
def isComma (t : Token) : Bool :=
  t.kind == .structural && t.text == ","

/-- Whether the token is a function that counts: `sum` or `mult`. -/
def isAggregate (t : Token) : Bool :=
  t.kind == .function && (t.text == "sum" || t.text == "mult")

/-- Whether the token stands for a minus where a value is expected. -/
def isMinus (t : Token) : Bool :=
  (t.kind == .additive && t.text == "-") || t.kind == .negation

/-- The minus in front of a value, in the place of the given token. -/
def negated (t : Token) : Token where
  text := "--"
  kind := .negation
  column := t.column

end Token

/-! ### Operands -/

/-- Whether the text is a **number**: digits with at most one point, and at least one digit. -/
def isNumber (text : String) : Bool :=
  let digits := text.toList.takeWhile Text.isDecimalDigit
  match text.toList.dropWhile Text.isDecimalDigit with
  | [] => !digits.isEmpty
  | '.' :: fraction =>
    fraction.all Text.isDecimalDigit && !(digits.isEmpty && fraction.isEmpty)
  | _ => false

/-- The name with its ASCII letters in lower case. That is enough to recognise a constant, since no
other character has one of the letters of `pi` and `e` as its lower case. -/
def lowercase (name : String) : String :=
  String.ofList (name.toList.map Char.toLower)

/-- The name of the random sample. -/
def sampleName : String := "r"

/-- Whether the name stands for a constant, in any case: `pi` or `e`. -/
def isConstantName (name : String) : Bool :=
  lowercase name == "pi" || lowercase name == "e"

/-- Whether the name is **reserved**: it stands for the sample or a constant and is never looked
up among the variables. -/
def isReserved (name : String) : Bool :=
  name == sampleName || isConstantName name

end Formulary
