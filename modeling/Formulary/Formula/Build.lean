import Formulary.Fault
import Formulary.Formula.Basic
import Formulary.Number.Layout
import Formulary.Number.Reader
import Formulary.Token

/-!
# Building a formula from its postorder listing

The tokens of a listing are read from left to right. Operands go onto a stack of formulas; an
operator takes its operands from the stack and leaves the combined formula. At the end the stack
holds the formula alone.

## Main results

* `assemble_cons`: a listing is read token by token.
-/

namespace Formulary.Formula

/-- The leaf of an operand: a number or a name. -/
def ofOperand (text : String) : Formula :=
  match isNumber text, Number.read? text with
  | true, some value => literal value
  | _, _ => var text

/-- The **aggregate** with a counter, a limit and a body. The counter has to be a name that is not
reserved and that no aggregate inside the body binds again. -/
def ofAggregate (op : AggregateOp) (counter limit body : Formula) : Except Fault Formula :=
  match counter with
  | literal value => .error (.invalidCounter (Number.brief value) .number)
  | var name =>
    if isReserved name then .error (.invalidCounter name .reserved)
    else if body.binds name then .error (.invalidCounter name .rebound)
    else .ok (aggregate op name limit body)
  | compound => .error (.invalidCounter compound.kind .compound)

/-- The fault of an operator that finds too few operands. -/
def missing (t : Token) : Fault :=
  .inconsistency (.missingOperand t.text)

/-- The stack after a unary operation. -/
def applyUnary (op : UnaryOp) (t : Token) : List Formula → Except Fault (List Formula)
  | operand :: stack => .ok (unary op operand :: stack)
  | [] => .error (missing t)

/-- The stack after a binary operation. -/
def applyBinary (op : BinaryOp) (t : Token) : List Formula → Except Fault (List Formula)
  | right :: left :: stack => .ok (binary op left right :: stack)
  | _ => .error (missing t)

/-- The stack after an aggregate. -/
def applyAggregate (op : AggregateOp) (t : Token) : List Formula → Except Fault (List Formula)
  | body :: limit :: counter :: stack => (ofAggregate op counter limit body).map (· :: stack)
  | _ => .error (missing t)

/-- The stack after one more token. -/
def push (stack : List Formula) (t : Token) : Except Fault (List Formula) :=
  match t.kind with
  | .operand => .ok (ofOperand t.text :: stack)
  | .function =>
    match AggregateOp.ofSymbol? t.text with
    | some op => applyAggregate op t stack
    | none =>
      match UnaryOp.ofFunction? t.text with
      | some op => applyUnary op t stack
      | none => .error (.inconsistency (.unknownFunction t.text))
  | .negation => applyUnary .negate t stack
  | .structural | .finish => .error (.inconsistency (.unexpectedText t.text))
  | .comparison | .additive | .multiplicative | .power =>
    match BinaryOp.ofSymbol? t.text with
    | some op => applyBinary op t stack
    | none => .error (.inconsistency (.unknownOperator t.text))

/-- The stack after the tokens. -/
def assemble (stack : List Formula) : List Token → Except Fault (List Formula)
  | [] => .ok stack
  | t :: rest =>
    match push stack t with
    | .error fault => .error fault
    | .ok next => assemble next rest

/-- A listing is read token by token. -/
theorem assemble_cons {stack next : List Formula} {t : Token} {rest : List Token}
    (h : push stack t = .ok next) : assemble stack (t :: rest) = assemble next rest := by
  rw [assemble, h]

/-- The formula of a listing in postorder. -/
def ofPostorder (tokens : List Token) : Except Fault Formula :=
  match assemble [] tokens with
  | .error fault => .error fault
  | .ok [formula] => .ok formula
  | .ok stack => .error (.inconsistency (.rootCount stack.length))

end Formulary.Formula
