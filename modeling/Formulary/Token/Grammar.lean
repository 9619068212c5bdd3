import Formulary.Fault
import Formulary.Token

/-!
# The grammar of token sequences

A formula is a row of values with binary operators between them. A value is an operand, a formula
in parentheses, a minus with a value after it, a function with a formula in parentheses, or a sum
or product with a counter, a limit and a body:

```
Formula := Value (Operator Value)*
Value   := operand
         | "(" Formula ")"
         | "-" Value
         | function "(" Formula ")"
         | aggregate "(" operand "," Formula "," Formula ")"
```

The checker reads the tokens once, from left to right. It remembers what it expects next and, for
every parenthesis that is still open, what the formula inside it ends with. A minus in front of a
value is marked as such on the way.

## Main results

* `check_cons`: the sequence is checked token by token.
-/

namespace Formulary.Token

/-- What an open parenthesis **awaits** after the formula that is being read. -/
inductive Awaiting where
  /-- The closing parenthesis. -/
  | closing
  /-- The comma between the limit and the body of an aggregate. -/
  | comma
  deriving DecidableEq, Repr

/-- What the checker **expects** next. -/
inductive Expecting where
  /-- A value. -/
  | value
  /-- The opening parenthesis after a function; the flag tells whether it is an aggregate. -/
  | opening (aggregate : Bool)
  /-- The counter of an aggregate. -/
  | counter
  /-- The comma after a counter. -/
  | counterComma
  /-- An operator, or what ends the formula. -/
  | operator
  deriving DecidableEq, Repr

/-- A **reading** in progress: what is expected, and the open parentheses, the innermost first. -/
structure Reading where
  expecting : Expecting
  awaiting : List Awaiting
  deriving DecidableEq, Repr

namespace Reading

/-- The reading before the first token. -/
def initial : Reading where
  expecting := .value
  awaiting := []

/-- The fault if the sequence ends here, and none if the formula is complete. -/
def endFault? (r : Reading) : Option Fault :=
  match r.expecting with
  | .value => some (.unexpectedEnd .operand)
  | .opening _ => some (.unexpectedEnd .opening)
  | .counter => some (.unexpectedEnd .counter)
  | .counterComma => some (.unexpectedEnd .comma)
  | .operator =>
    match r.awaiting with
    | [] => none
    | .closing :: _ => some (.unevenParentheses none)
    | .comma :: _ => some (.unexpectedEnd .comma)

/-- Whether the token ends a complete formula: an end mark outside all parentheses. -/
def endsWith (r : Reading) (t : Token) : Bool :=
  r.expecting == .operator && r.awaiting.isEmpty && t.kind == .finish

/-- The fault of a token that is not the one wanted. An end mark counts as the end. -/
def mismatch (t : Token) (wanted : Wanted) : Fault :=
  if t.kind = .finish then .unexpectedEnd wanted
  else .unexpectedToken t.text (some wanted) t.column

/-- The reading after a token where a value is expected. -/
def stepValue (awaiting : List Awaiting) (t : Token) : Except Fault Reading :=
  if t.kind = .operand then .ok ⟨.operator, awaiting⟩
  else if t.kind = .function then .ok ⟨.opening t.isAggregate, awaiting⟩
  else if t.isOpening then .ok ⟨.value, .closing :: awaiting⟩
  else if t.isMinus then .ok ⟨.value, awaiting⟩
  else .error (.unexpectedToken t.text (some .operand) t.column)

/-- The reading after a token where an operator or the end of a formula is expected. -/
def stepOperator (awaiting : List Awaiting) (t : Token) : Except Fault Reading :=
  if t.kind.isBinary then .ok ⟨.value, awaiting⟩
  else
    match awaiting with
    | [] => .error (.unexpectedToken t.text none t.column)
    | .closing :: outer =>
      if t.isClosing then .ok ⟨.operator, outer⟩ else .error (.unevenParentheses t.column)
    | .comma :: outer =>
      if t.isComma then .ok ⟨.value, .closing :: outer⟩ else .error (mismatch t .comma)

/-- The reading after one more token. -/
def step (r : Reading) (t : Token) : Except Fault Reading :=
  match r.expecting with
  | .value => stepValue r.awaiting t
  | .opening aggregate =>
    if t.isOpening then
      .ok (if aggregate then ⟨.counter, r.awaiting⟩ else ⟨.value, .closing :: r.awaiting⟩)
    else .error (mismatch t .opening)
  | .counter =>
    if t.kind = .operand then .ok ⟨.counterComma, r.awaiting⟩
    else .error (.unexpectedToken t.text (some .counter) t.column)
  | .counterComma =>
    if t.isComma then .ok ⟨.value, .comma :: r.awaiting⟩ else .error (mismatch t .comma)
  | .operator => stepOperator r.awaiting t

/-- The token as it leaves the checker: a minus where a value is expected is marked. -/
def mark (r : Reading) (t : Token) : Token :=
  if r.expecting = .value ∧ t.isMinus then t.negated else t

end Reading

/-- Checks the tokens that follow a reading, and marks each minus that stands before a value. An
end mark behind a complete formula ends the check. -/
def check (r : Reading) : List Token → Except Fault (List Token)
  | [] =>
    match r.endFault? with
    | some fault => .error fault
    | none => .ok []
  | t :: rest =>
    if r.endsWith t then .ok (t :: rest)
    else
      match r.step t with
      | .error fault => .error fault
      | .ok next => (check next rest).map (r.mark t :: ·)

/-- A token that does not end the formula is checked, and then the others. -/
theorem check_cons {r next : Reading} {t : Token} {rest : List Token} (hend : r.endsWith t = false)
    (hstep : r.step t = .ok next) :
    check r (t :: rest) = (check next rest).map (r.mark t :: ·) := by
  rw [check, if_neg (by simp [hend]), hstep]

/-- The tokens, if they form a formula, with each minus before a value marked. -/
def validate (tokens : List Token) : Except Fault (List Token) :=
  check .initial tokens

/-! ### Declared variables -/

/-- Whether an operand is **known**: declared, a number or a reserved name. -/
def isKnown (declared : List String) (text : String) : Bool :=
  declared.contains text || isNumber text || isReserved text

/-- Refuses the first operand that is not known. -/
def checkVariables (declared : List String) (tokens : List Token) : Except Fault Unit :=
  match tokens.find? fun t => t.kind == .operand && !isKnown declared t.text with
  | some t => .error (.unknownVariable t.text declared)
  | none => .ok ()

end Formulary.Token
