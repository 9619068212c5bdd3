/-!
# Formulas

A formula is a tree of numbers, names, functions, operators and aggregates. An aggregate runs over
the whole numbers from one up to its limit and binds its counter in its body.

## Main results

* `UnaryOp.ofFunction?_symbol`, `BinaryOp.ofSymbol?_symbol`, `AggregateOp.ofSymbol?_symbol`: an
  operation is determined by its symbol.
-/

namespace Formulary

/-- A **unary operation**: the minus in front of a value, a function, or the factorial. -/
inductive UnaryOp where
  | negate
  | sqrt
  | log10
  | ln
  | sin
  | cos
  | tan
  | sinh
  | cosh
  | tanh
  | asin
  | acos
  | atan
  | abs
  | ceil
  | floor
  | factorial
  deriving DecidableEq, Repr

namespace UnaryOp

/-- All unary operations. -/
def all : List UnaryOp :=
  [negate, sqrt, log10, ln, sin, cos, tan, sinh, cosh, tanh, asin, acos, atan, abs, ceil, floor,
   factorial]

/-- The **name** of an operation in tree documents. -/
def name : UnaryOp → String
  | negate => "negate"
  | sqrt => "sqrt"
  | log10 => "log10"
  | ln => "ln"
  | sin => "sin"
  | cos => "cos"
  | tan => "tan"
  | sinh => "sinh"
  | cosh => "cosh"
  | tanh => "tanh"
  | asin => "asin"
  | acos => "acos"
  | atan => "atan"
  | abs => "abs"
  | ceil => "ceil"
  | floor => "floor"
  | factorial => "factorial"

/-- The **symbol** of an operation in formula text: the logarithm to base ten is `log`, and an
exclamation mark in front is the factorial. -/
def symbol : UnaryOp → String
  | negate => "-"
  | log10 => "log"
  | factorial => "!"
  | op => op.name

/-- The operation with a name. -/
def ofName? (name : String) : Option UnaryOp :=
  all.find? (·.name == name)

/-- The function with a symbol. The minus is an operator and no function. -/
def ofFunction? (symbol : String) : Option UnaryOp :=
  all.find? fun op => op != negate && op.symbol == symbol

/-- A function is determined by its symbol. -/
theorem ofFunction?_symbol {op : UnaryOp} (h : op ≠ negate) : ofFunction? op.symbol = some op := by
  revert h
  cases op <;> decide

end UnaryOp

/-- A **binary operation**. -/
inductive BinaryOp where
  | add
  | sub
  | mul
  | div
  | mod
  | pow
  | eq
  | ne
  | gt
  | lt
  deriving DecidableEq, Repr

namespace BinaryOp

/-- All binary operations. -/
def all : List BinaryOp :=
  [add, sub, mul, div, mod, pow, eq, ne, gt, lt]

/-- The **symbol** of an operation. -/
def symbol : BinaryOp → String
  | add => "+"
  | sub => "-"
  | mul => "*"
  | div => "/"
  | mod => "%"
  | pow => "^"
  | eq => "="
  | ne => "!="
  | gt => ">"
  | lt => "<"

/-- The operation with a symbol. -/
def ofSymbol? (symbol : String) : Option BinaryOp :=
  all.find? (·.symbol == symbol)

/-- An operation is determined by its symbol. -/
@[simp] theorem ofSymbol?_symbol (op : BinaryOp) : ofSymbol? op.symbol = some op := by
  cases op <;> decide

end BinaryOp

/-- An **aggregate operation**: a sum or a product. -/
inductive AggregateOp where
  | sum
  | mult
  deriving DecidableEq, Repr

namespace AggregateOp

/-- The **symbol** of an operation. -/
def symbol : AggregateOp → String
  | sum => "sum"
  | mult => "mult"

/-- The operation with a symbol. -/
def ofSymbol? (symbol : String) : Option AggregateOp :=
  if symbol = "sum" then some sum else if symbol = "mult" then some mult else none

/-- An operation is determined by its symbol. -/
@[simp] theorem ofSymbol?_symbol (op : AggregateOp) : ofSymbol? op.symbol = some op := by
  cases op <;> rfl

end AggregateOp

/-- A **formula**. Two formulas are compared with the equality of numbers: a value that is no
number differs from itself, and the two zeros are the same. -/
inductive Formula where
  /-- A number. -/
  | literal (value : Float)
  /-- A name, which is looked up when the formula is evaluated. -/
  | var (name : String)
  | unary (op : UnaryOp) (operand : Formula)
  | binary (op : BinaryOp) (left right : Formula)
  /-- The sum or product of `body` for `counter` from one up to `limit`. -/
  | aggregate (op : AggregateOp) (counter : String) (limit body : Formula)
  deriving BEq, Inhabited

/-- The **kind** of a formula's root. -/
def Formula.kind : Formula → String
  | literal _ => "literal"
  | var _ => "variable"
  | unary .. => "unary"
  | binary .. => "binary"
  | aggregate .. => "aggregate"

/-- Whether an aggregate inside the formula **binds** the name. -/
def Formula.binds (name : String) : Formula → Bool
  | literal _ => false
  | var _ => false
  | unary _ operand => operand.binds name
  | binary _ left right => left.binds name || right.binds name
  | aggregate _ counter limit body => counter == name || limit.binds name || body.binds name

end Formulary
