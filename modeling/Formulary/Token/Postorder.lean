import Formulary.Token

/-!
# Postorder

A checked formula is reordered so that every operator follows its operands; the parentheses and
commas are then no longer needed. Operators wait on a stack until one that binds no tighter
arrives, so operators of one rank group from the left.

## Main results

* `reorder_operand`: operands are passed on at once.
-/

namespace Formulary.Token

/-- Whether a waiting token goes out before an operator of the given class: it binds at least as
tightly and is no parenthesis. -/
def yieldsTo (kind : TokenClass) (waiting : Token) : Bool :=
  kind.rank ≤ waiting.kind.rank && waiting.kind != .structural

/-- The tokens in postorder, with a stack of tokens that wait, the latest first. -/
def reorder (stack : List Token) : List Token → List Token
  | [] => stack
  | t :: rest =>
    if t.kind = .operand then t :: reorder stack rest
    else if t.isClosing then
      stack.takeWhile (!·.isOpening) ++ reorder ((stack.dropWhile (!·.isOpening)).drop 1) rest
    else if t.isComma then
      stack.takeWhile (!·.isOpening) ++ reorder (stack.dropWhile (!·.isOpening)) rest
    else if t.kind.isLeading || t.isOpening then reorder (t :: stack) rest
    else
      stack.takeWhile (yieldsTo t.kind) ++ reorder (t :: stack.dropWhile (yieldsTo t.kind)) rest

/-- The tokens in **postorder**. -/
def toPostorder (tokens : List Token) : List Token :=
  reorder [] tokens

/-- Operands are passed on at once. -/
theorem reorder_operand {stack rest : List Token} {t : Token} (h : t.kind = .operand) :
    reorder stack (t :: rest) = t :: reorder stack rest := by
  rw [reorder, if_pos h]

end Formulary.Token
