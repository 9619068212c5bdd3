import Formulary.Formula.Build
import Formulary.Token.Grammar
import Formulary.Token.Lexer
import Formulary.Token.Postorder

/-!
# Reading formulas from text

A formula text is split into tokens, checked against the grammar, optionally checked for
undeclared names, brought into postorder and built. The first stage that refuses the formula
gives the fault.
-/

namespace Formulary

namespace Formula

/-- The formula of a sequence of checked tokens; with declared names, all others are refused. -/
def ofValidated (declared : Option (List String)) (tokens : List Token) : Except Fault Formula :=
  let known := match declared with
    | some names => Token.checkVariables names tokens
    | none => .ok ()
  match known with
  | .error fault => .error fault
  | .ok () => ofPostorder (Token.toPostorder tokens)

/-- Reads a **formula** from its text. -/
def ofText (text : String) (declared : Option (List String)) : Except Fault Formula := do
  let tokens ← Token.ofText text
  let validated ← Token.validate tokens
  ofValidated declared validated

end Formula

/-- A **verdict** on a formula text: the formula, or the fault of its author. -/
inductive Verdict where
  | accepted (formula : Formula)
  | rejected (fault : Fault)
  deriving Inhabited

/-- Judges a formula text. A contradiction between the stages is no verdict. -/
def Verdict.ofText (text : String) (declared : Option (List String)) : Except Fault Verdict :=
  match Formula.ofText text declared with
  | .ok formula => .ok (.accepted formula)
  | .error fault => if fault.isUserError then .ok (.rejected fault) else .error fault

end Formulary
