import Formulary.Formula.Parse
import Formulary.Json.Basic

/-!
# Formulas as documents

A formula is shown as a document that follows its tree: every part has its kind first and then its
own fields in a fixed order. A verdict shows the formula, or the code, the message and the column
of the fault.

## Main results

* `kind_document`: the document of a formula names the kind of its root.
-/

namespace Formulary

/-- The document of a formula. -/
def Formula.document : Formula → Json
  | literal value => .object [("kind", .text "literal"), ("value", .real value)]
  | var name => .object [("kind", .text "variable"), ("name", .text name)]
  | unary op operand =>
    .object [("kind", .text "unary"), ("op", .text op.name), ("operand", operand.document)]
  | binary op left right =>
    .object [("kind", .text "binary"), ("op", .text op.symbol), ("left", left.document),
      ("right", right.document)]
  | aggregate op counter limit body =>
    .object [("kind", .text "aggregate"), ("op", .text op.symbol), ("var", .text counter),
      ("limit", limit.document), ("body", body.document)]

/-- The document of a formula names the kind of its root. -/
theorem Formula.kind_document (f : Formula) : f.document.field? "kind" = some (.text f.kind) := by
  cases f <;> rfl

/-- The document of a verdict. -/
def Verdict.document : Verdict → Json
  | accepted formula =>
    .object [("ok", .bool true), ("tree", formula.document), ("error_kind", .null),
      ("message", .text ""), ("position", .null)]
  | rejected fault =>
    .object [("ok", .bool false), ("tree", .null), ("error_kind", .text fault.code),
      ("message", .text fault.message),
      ("position", match fault.position with
        | some column => .whole column
        | none => .null)]

end Formulary
