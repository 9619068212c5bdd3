import Formulary.Evaluation.Arithmetic
import Formulary.Store
import Formulary.Text.Sorting
import Formulary.Token

/-!
# Evaluating formulas

A formula is evaluated depth first, from left to right, against a store of variables and a stream
of samples for the name `r`. An aggregate puts its counter into the store for each round and
afterwards gives the name back the value it had before, also when a round fails. A missing
variable ends the evaluation; it is reported with the names that were set at that moment.

An aggregate counts from one up while the counter does not exceed its limit. At `2^53` adding one
no longer changes the counter, so a limit that large is never passed: such an aggregate is endless.

## Main results

* `rounds_of_not_le`, `rounds_succ`: how an aggregate proceeds from round to round.
-/

namespace Formulary

/-- Why an evaluation **stops** without a value. -/
inductive Stop where
  /-- A variable is missing; the names are those set at that moment, sorted. -/
  | unbound (name : String) (available : List String)
  /-- An aggregate never passes its limit. -/
  | endless
  deriving DecidableEq, Repr

/-- The **workspace** of an evaluation: the variables, and how many samples were drawn. -/
@[ext] structure Workspace where
  store : Store
  drawn : Nat := 0

/-- What an evaluation leaves: a value or the reason for its stop, and the workspace. -/
abbrev Outcome := Except Stop Float × Workspace

/-- The stream of **samples** for the name `r`. -/
abbrev Samples := Nat → Float

/-- A **generator** of samples: the stream of each seed, and the one without a seed. -/
abbrev Generator := Option Int → Samples

/-! ### Names -/

/-- The ratio of a circle's circumference to its diameter. -/
def piValue : Float := Float.ofBits 0x400921FB54442D18

/-- The base of the natural logarithm. -/
def eValue : Float := Float.ofBits 0x4005BF0A8B145769

/-- The constant that a name stands for, in any case. -/
def constant? (name : String) : Option Float :=
  if lowercase name = "pi" then some piValue
  else if lowercase name = "e" then some eValue
  else none

/-- The value of a name: a sample, a constant, or a variable. -/
def lookUp (samples : Samples) (name : String) (w : Workspace) : Outcome :=
  if name = sampleName then (.ok (samples w.drawn), { w with drawn := w.drawn + 1 })
  else
    match constant? name with
    | some value => (.ok value, w)
    | none =>
      match w.store.get? name with
      | some value => (.ok value, w)
      | none => (.error (.unbound name (Text.sortNames w.store.names)), w)

/-! ### Aggregates -/

/-- The number of rounds after which the counter of an aggregate stands still. -/
def exactCount : Nat := 9007199254740992

/-- Runs the **rounds** of an aggregate from a counter and a total on: while the counter does not
exceed the limit, the value of the body is added to the total and one to the counter. When no
rounds remain, the counter stands still below the limit, and the aggregate is endless. -/
def rounds (op : AggregateOp) (limit : Float) (body : Float → Workspace → Outcome) :
    (remaining : Nat) → (counter total : Float) → Workspace → Outcome
  | 0, _, _, w => (.error .endless, w)
  | remaining + 1, counter, total, w =>
    if counter ≤ limit then
      match body counter w with
      | (.ok term, w) =>
        rounds op limit body remaining (counter + 1.0) (op.combine total term) w
      | (.error stop, w) => (.error stop, w)
    else (.ok total, w)

/-- Once the counter does not stay within the limit, the total stands. -/
theorem rounds_of_not_le {op : AggregateOp} {limit : Float} {body : Float → Workspace → Outcome}
    {counter : Float} (h : ¬ counter ≤ limit) (remaining : Nat) (total : Float) (w : Workspace) :
    rounds op limit body (remaining + 1) counter total w = (.ok total, w) := by
  rw [rounds, if_neg h]

/-- A round that succeeds adds its term. -/
theorem rounds_succ {op : AggregateOp} {limit : Float} {body : Float → Workspace → Outcome}
    {counter term : Float} {w next : Workspace} (h : counter ≤ limit)
    (hbody : body counter w = (.ok term, next)) (remaining : Nat) (total : Float) :
    rounds op limit body (remaining + 1) counter total w =
      rounds op limit body remaining (counter + 1.0) (op.combine total term) next := by
  rw [rounds, if_pos h, hbody]

/-- A round that stops ends the aggregate. -/
theorem rounds_stop {op : AggregateOp} {limit : Float} {body : Float → Workspace → Outcome}
    {counter : Float} {stop : Stop} {w next : Workspace} (h : counter ≤ limit)
    (hbody : body counter w = (.error stop, next)) (remaining : Nat) (total : Float) :
    rounds op limit body (remaining + 1) counter total w = (.error stop, next) := by
  rw [rounds, if_pos h, hbody]

/-- Runs a body with a value of its counter. -/
def withCounter (counter : String) (body : Workspace → Outcome) (value : Float) (w : Workspace) :
    Outcome :=
  body { w with store := w.store.put counter value }

/-- The outcome with a name given back its former value. -/
def restoring (name : String) (former : Option Float) (outcome : Outcome) : Outcome :=
  (outcome.1, { outcome.2 with store := outcome.2.store.restore name former })

/-! ### Formulas -/

/-- **Evaluates** a formula in a workspace. -/
def Formula.run (mode : Mode) (samples : Samples) : Formula → Workspace → Outcome
  | literal value, w => (.ok value, w)
  | var name, w => lookUp samples name w
  | unary op operand, w =>
    match operand.run mode samples w with
    | (.ok x, w) => (.ok (op.value mode x), w)
    | (.error stop, w) => (.error stop, w)
  | binary op left right, w =>
    match left.run mode samples w with
    | (.ok a, w) =>
      match right.run mode samples w with
      | (.ok b, w) => (.ok (op.value mode a b), w)
      | (.error stop, w) => (.error stop, w)
    | (.error stop, w) => (.error stop, w)
  | aggregate op counter limit body, w =>
    match limit.run mode samples w with
    | (.error stop, w) => (.error stop, w)
    | (.ok bound, w) =>
      restoring counter (w.store.get? counter) <|
        rounds op bound (withCounter counter (body.run mode samples)) exactCount 1.0 op.unit w

/-- Evaluates a formula on a store, with samples from the first on. -/
def Formula.evaluate (f : Formula) (store : Store) (mode : Mode) (samples : Samples) : Outcome :=
  f.run mode samples { store := store }

end Formulary
