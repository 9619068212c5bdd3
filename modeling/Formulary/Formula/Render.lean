import Formulary.Formula.Basic
import Formulary.Number.Layout
import Formulary.Text.Sorting
import Formulary.Token

/-!
# Formula text and references

Every formula has a text with all its parentheses. Numbers are written without an exponent, since
formula text has none; an infinite number is written with so many digits that reading overflows
again.

The references of a formula are the variables that it reads from the store: neither a reserved
name nor a counter inside the body that it counts for is one.

## Main results

* `mem_references`: the references are the free names that are not reserved.
-/

namespace Formulary

namespace Formula

/-! ### Text -/

/-- A number too large for every finite value: a one with four hundred zeros. -/
def overflowDigits : String :=
  String.ofList ('1' :: Number.zeros 400)

/-- The text of a number. -/
def literalText (value : Float) : String :=
  if value.isNaN then Number.standard value
  else if Number.isInfinite value then
    if Number.isNegative value then "-(" ++ overflowDigits ++ ")" else overflowDigits
  else Number.positional value

/-- The **text** of a formula. -/
def render : Formula → String
  | literal value => literalText value
  | var name => name
  | unary op operand => op.symbol ++ "(" ++ operand.render ++ ")"
  | binary op left right => "(" ++ left.render ++ op.symbol ++ right.render ++ ")"
  | aggregate op counter limit body =>
    op.symbol ++ "(" ++ counter ++ "," ++ limit.render ++ "," ++ body.render ++ ")"

/-! ### References -/

/-- The names that the formula reads outside the bodies that count with them, in order and with
repetitions. -/
def reads (bound : List String) : Formula → List String
  | literal _ => []
  | var name => if bound.contains name || isReserved name then [] else [name]
  | unary _ operand => operand.reads bound
  | binary _ left right => left.reads bound ++ right.reads bound
  | aggregate _ counter limit body => limit.reads bound ++ body.reads (counter :: bound)

/-- The **references**: the variables that the formula reads from the store, sorted. -/
def references (f : Formula) : List String :=
  Text.sortNames (f.reads []).eraseDups

/-- A name is **free** in a formula if it occurs outside every body that counts with it. -/
def Free (name : String) : Formula → Prop
  | literal _ => False
  | var other => other = name
  | unary _ operand => operand.Free name
  | binary _ left right => left.Free name ∨ right.Free name
  | aggregate _ counter limit body => limit.Free name ∨ (counter ≠ name ∧ body.Free name)

/-- What is read under bound names is what is free, not bound and not reserved. -/
theorem mem_reads {name : String} {bound : List String} {f : Formula} :
    name ∈ f.reads bound ↔ f.Free name ∧ name ∉ bound ∧ isReserved name = false := by
  induction f generalizing bound with
  | literal _ => simp [reads, Free]
  | var other =>
    by_cases h : other = name
    · subst h
      by_cases hb : other ∈ bound <;> cases hr : isReserved other <;> simp [reads, Free, hb, hr]
    · have h' : name ≠ other := fun e => h e.symm
      simp only [reads, Free, h, false_and, iff_false]
      split <;> simp [h']
  | unary _ _ ih => exact ih
  | binary _ _ _ ihl ihr =>
    simp only [reads, Free, List.mem_append, ihl, ihr]
    constructor
    · rintro (⟨a, b⟩ | ⟨a, b⟩)
      · exact ⟨.inl a, b⟩
      · exact ⟨.inr a, b⟩
    · rintro ⟨a | a, b⟩
      · exact .inl ⟨a, b⟩
      · exact .inr ⟨a, b⟩
  | aggregate _ counter _ _ ihl ihb =>
    simp only [reads, Free, List.mem_append, ihl, ihb, List.mem_cons, not_or]
    constructor
    · rintro (⟨a, b⟩ | ⟨a, ⟨c, d⟩, e⟩)
      · exact ⟨.inl a, b⟩
      · exact ⟨.inr ⟨fun h => c h.symm, a⟩, d, e⟩
    · rintro ⟨a | ⟨c, a⟩, d, e⟩
      · exact .inl ⟨a, d, e⟩
      · exact .inr ⟨a, ⟨fun h => c h.symm, d⟩, e⟩

/-- The references are the free names that are not reserved. -/
theorem mem_references {name : String} {f : Formula} :
    name ∈ f.references ↔ f.Free name ∧ isReserved name = false := by
  simp [references, Text.mem_sortNames, mem_reads]

end Formula

end Formulary
