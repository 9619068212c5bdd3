import Formulary.Evaluation
import Mathlib.Data.Nat.Notation

/-!
# What an Evaluation Leaves and What It Visits

An aggregate writes its counter into the store of its caller and takes it back when it ends. This
module proves that nothing of it remains: whatever a formula looks like and however its evaluation
ends, the store is the one before, with the same names in the same order.

It also says which parts of a formula an evaluation comes to, and in which workspaces. Only with
that can a statement speak of the limits that an evaluation reaches, or of its intermediate values.

## Conventions

`Enters op limit body u counter total v` follows the loop of an aggregate that begins in the
workspace `u` up to a round, which it enters in `v`. Unlike `rounds` it has no bound on the number
of rounds. `Visits mode samples f w g v` says that the evaluation of `f` in `w` evaluates its part
`g` in `v`.

## Main results

* `lookUp_cases`: what a name stands for.
* `Formula.run_store`, `Formula.evaluate_store`: the store is left as it was.
* `Enters.put_eq`: a round finds the store as it was, but for the counter.
* `Enters.exists_rounds_eq`: an aggregate that returns has run all rounds that its loop enters.
* `Formula.Visits.trans`: what a part visits is visited by the whole.
* `Formula.Visits.exists_run_eq`: an evaluation that returns has returned from all it visited.
-/

namespace Formulary

/-! ### Names -/

/-- The names with a constant are the reserved ones, but for the sample. -/
theorem constant?_isSome (name : String) : (constant? name).isSome = isConstantName name := by
  rw [constant?, isConstantName]
  by_cases hpi : lowercase name = "pi"
  · simp [hpi]
  · by_cases he : lowercase name = "e" <;> simp [hpi, he]

/-- A name that is neither the sample nor has a constant is not reserved. -/
theorem isReserved_eq_false {name : String} (hsample : name ≠ sampleName)
    (hconstant : constant? name = none) : isReserved name = false := by
  rw [isReserved, ← constant?_isSome, hconstant]
  simpa using hsample

/-- **The four kinds of names**: the sample, a constant, a variable that is set, and one that is
missing. -/
theorem lookUp_cases (samples : Samples) (name : String) (w : Workspace) :
    (name = sampleName ∧ lookUp samples name w =
      (.ok (samples w.drawn), { w with drawn := w.drawn + 1 })) ∨
    (∃ value, constant? name = some value ∧ lookUp samples name w = (.ok value, w)) ∨
    (isReserved name = false ∧ ∃ value, w.store.get? name = some value ∧
      lookUp samples name w = (.ok value, w)) ∨
    (isReserved name = false ∧ w.store.get? name = none ∧ lookUp samples name w =
      (.error (.unbound name (Text.sortNames w.store.names)), w)) := by
  by_cases hsample : name = sampleName
  · exact .inl ⟨hsample, by rw [lookUp, if_pos hsample]⟩
  cases hconstant : constant? name with
  | some value => exact .inr (.inl ⟨value, rfl, by rw [lookUp, if_neg hsample, hconstant]⟩)
  | none =>
      have hreserved := isReserved_eq_false hsample hconstant
      cases hget : w.store.get? name with
      | some value =>
          exact .inr (.inr (.inl ⟨hreserved, value, rfl,
            by simp only [lookUp, if_neg hsample, hconstant, hget]⟩))
      | none =>
          exact .inr (.inr (.inr ⟨hreserved, rfl,
            by simp only [lookUp, if_neg hsample, hconstant, hget]⟩))

/-! ### The store is given back -/

/-- The rounds of an aggregate only set its counter, which is then given back. -/
theorem rounds_store (op : AggregateOp) (limit : Float) {body : Float → Workspace → Outcome}
    {name : String} (hbody : ∀ value w, (body value w).2.store = w.store.put name value)
    (former : Option Float) (remaining : ℕ) (counter total : Float) (w : Workspace) :
    (rounds op limit body remaining counter total w).2.store.restore name former =
      w.store.restore name former := by
  fun_induction rounds op limit body remaining counter total w with
  | case1 => rfl
  | case2 _ counter total w hle term next hrun ih =>
      have hstore := hbody counter w
      rw [hrun] at hstore
      rw [ih, hstore, Store.restore_put]
  | case3 _ counter total w hle stop next hrun =>
      have hstore := hbody counter w
      rw [hrun] at hstore
      rw [hstore, Store.restore_put]
  | case4 => rfl

/-- Looking up a name leaves the store as it was. -/
theorem lookUp_store (samples : Samples) (name : String) (w : Workspace) :
    (lookUp samples name w).2.store = w.store := by
  obtain ⟨-, h⟩ | ⟨_, -, h⟩ | ⟨-, _, -, h⟩ | ⟨-, -, h⟩ := lookUp_cases samples name w <;> rw [h]

/-- **The store is left as it was**, whether an evaluation returns or stops. -/
theorem Formula.run_store (f : Formula) (mode : Mode) (samples : Samples) (w : Workspace) :
    (f.run mode samples w).2.store = w.store := by
  induction f generalizing w with
  | literal value => rfl
  | var name => exact lookUp_store samples name w
  | unary op operand ih =>
      have hoperand := ih w
      rw [run]
      rcases h : operand.run mode samples w with ⟨x | stop, v⟩ <;> rw [h] at hoperand <;>
        exact hoperand
  | binary op left right ihl ihr =>
      have hleft := ihl w
      rw [run]
      rcases h : left.run mode samples w with ⟨stop | a, v⟩ <;> rw [h] at hleft
      · exact hleft
      · have hright := ihr v
        rcases h' : right.run mode samples v with ⟨stop | b, u⟩ <;> rw [h'] at hright <;>
          simp only [h'] <;> exact hright.trans hleft
  | aggregate op counter limit body ihl ihb =>
      have hlimit := ihl w
      rw [run]
      rcases h : limit.run mode samples w with ⟨stop | bound, v⟩ <;> rw [h] at hlimit
      · exact hlimit
      · have hbody (value : Float) (u : Workspace) :
            (withCounter counter (body.run mode samples) value u).2.store =
              u.store.put counter value :=
          ihb _
        calc (rounds op bound (withCounter counter (body.run mode samples)) exactCount 1.0
              op.unit v).2.store.restore counter (v.store.get? counter)
            = v.store.restore counter (v.store.get? counter) := rounds_store op bound hbody ..
          _ = v.store := Store.restore_get? ..
          _ = w.store := hlimit

/-- **An evaluation leaves no trace in the store**: it has the names, the values and the order that
it had before. -/
theorem Formula.evaluate_store (f : Formula) (store : Store) (mode : Mode) (samples : Samples) :
    (f.evaluate store mode samples).2.store = store :=
  f.run_store mode samples { store := store }

/-! ### Evaluations that return -/

section Returns

variable {mode : Mode} {samples : Samples} {w v : Workspace} {x : Float}

/-- An operation that returns has an operand. -/
theorem Formula.exists_run_of_unary {op : UnaryOp} {operand : Formula}
    (h : (unary op operand).run mode samples w = (.ok x, v)) :
    ∃ y, operand.run mode samples w = (.ok y, v) ∧ x = op.value mode y := by
  rw [run] at h
  rcases hrun : operand.run mode samples w with ⟨stop | y, u⟩ <;> rw [hrun] at h <;> cases h
  exact ⟨y, rfl, rfl⟩

/-- An operation that returns has two operands, the right one evaluated after the left one. -/
theorem Formula.exists_run_of_binary {op : BinaryOp} {left right : Formula}
    (h : (binary op left right).run mode samples w = (.ok x, v)) :
    ∃ a u b, left.run mode samples w = (.ok a, u) ∧ right.run mode samples u = (.ok b, v) ∧
      x = op.value mode a b := by
  rw [run] at h
  rcases hleft : left.run mode samples w with ⟨stop | a, u⟩ <;> rw [hleft] at h
  · cases h
  · rcases hright : right.run mode samples u with ⟨stop | b, u'⟩ <;> simp only [hright] at h <;>
      cases h
    exact ⟨a, u, b, rfl, hright, rfl⟩

/-- Two operands that return are combined. -/
theorem Formula.run_binary {left right : Formula} {u : Workspace} {a b : Float}
    (hleft : left.run mode samples w = (.ok a, u)) (hright : right.run mode samples u = (.ok b, v))
    (op : BinaryOp) : (binary op left right).run mode samples w = (.ok (op.value mode a b), v) := by
  rw [run, hleft]
  simp only [hright]

/-- An aggregate that returns has a limit and a total. -/
theorem Formula.exists_rounds_of_run {op : AggregateOp} {counter : String} {limit body : Formula}
    (h : (aggregate op counter limit body).run mode samples w = (.ok x, v)) :
    ∃ bound u u', limit.run mode samples w = (.ok bound, u) ∧
      rounds op bound (withCounter counter (body.run mode samples)) exactCount 1.0 op.unit u =
        (.ok x, u') := by
  rw [run] at h
  rcases hlimit : limit.run mode samples w with ⟨stop | bound, u⟩ <;> rw [hlimit] at h
  · cases h
  · have htotal : (restoring counter (u.store.get? counter) (rounds op bound
        (withCounter counter (body.run mode samples)) exactCount 1.0 op.unit u)).1 = .ok x :=
      congrArg Prod.fst h
    exact ⟨bound, u, _, rfl, Prod.ext htotal rfl⟩

end Returns

/-! ### The rounds that an aggregate enters -/

/-- The rounds that the loop of an aggregate **enters**: with which counter and total, and in which
workspace. -/
inductive Enters (op : AggregateOp) (limit : Float) (body : Float → Workspace → Outcome)
    (u : Workspace) : Float → Float → Workspace → Prop
  | first : (1.0 : Float) ≤ limit → Enters op limit body u 1.0 op.unit u
  | next {counter total term : Float} {v v' : Workspace} :
      Enters op limit body u counter total v → body counter v = (.ok term, v') →
      counter + 1.0 ≤ limit →
      Enters op limit body u (counter + 1.0) (op.combine total term) v'

/-- A round is entered with a counter within the limit. -/
theorem Enters.le {op : AggregateOp} {limit : Float} {body : Float → Workspace → Outcome}
    {u v : Workspace} {counter total : Float} (h : Enters op limit body u counter total v) :
    counter ≤ limit := by
  cases h with
  | first hle => exact hle
  | next _ _ hle => exact hle

/-- **An aggregate that returns has run every round that its loop enters**: its total is what the
rounds from that one on give. -/
theorem Enters.exists_rounds_eq {op : AggregateOp} {limit x : Float}
    {body : Float → Workspace → Outcome} {u v w : Workspace} {counter total : Float}
    (h : Enters op limit body u counter total v) {count : ℕ}
    (hreturns : rounds op limit body count 1.0 op.unit u = (.ok x, w)) :
    ∃ remaining, rounds op limit body (remaining + 1) counter total v = (.ok x, w) := by
  -- a loop that has no rounds left is endless, so there is one left as long as it returns
  have exists_succ {remaining : ℕ} {counter total : Float} {v : Workspace}
      (h : rounds op limit body remaining counter total v = (.ok x, w)) :
      ∃ r, remaining = r + 1 := by
    cases remaining with
    | zero => cases h
    | succ r => exact ⟨r, rfl⟩
  induction h with
  | first _ =>
      obtain ⟨r, rfl⟩ := exists_succ hreturns
      exact ⟨r, hreturns⟩
  | next hentered hbody _ ih =>
      obtain ⟨remaining, hrest⟩ := ih
      rw [rounds_succ hentered.le hbody] at hrest
      obtain ⟨r, rfl⟩ := exists_succ hrest
      exact ⟨r, hrest⟩

/-- A round finds the store as it was before the first one, but for the counter. -/
theorem Enters.put_eq {op : AggregateOp} {limit : Float} {name : String} {mode : Mode}
    {samples : Samples} {body : Formula} {u v : Workspace} {counter total : Float}
    (h : Enters op limit (withCounter name (body.run mode samples)) u counter total v)
    (value : Float) : v.store.put name value = u.store.put name value := by
  induction h with
  | first _ => rfl
  | @next counter _ _ v _ _ hbody _ ih =>
      have hstore := body.run_store mode samples { v with store := v.store.put name counter }
      rw [withCounter] at hbody
      rw [hbody] at hstore
      rw [hstore, Store.put_put, ih]

/-! ### The parts that an evaluation visits -/

/-- The parts that the evaluation of a formula **visits**, and the workspaces in which it does. -/
inductive Formula.Visits (mode : Mode) (samples : Samples) :
    Formula → Workspace → Formula → Workspace → Prop
  | self (f : Formula) (w : Workspace) : Visits mode samples f w f w
  | operand {op : UnaryOp} {f g : Formula} {w v : Workspace} :
      Visits mode samples f w g v → Visits mode samples (.unary op f) w g v
  | left {op : BinaryOp} {l r g : Formula} {w v : Workspace} :
      Visits mode samples l w g v → Visits mode samples (.binary op l r) w g v
  | right {op : BinaryOp} {l r g : Formula} {w u v : Workspace} {a : Float} :
      l.run mode samples w = (.ok a, u) → Visits mode samples r u g v →
      Visits mode samples (.binary op l r) w g v
  | limit {op : AggregateOp} {counter : String} {l b g : Formula} {w v : Workspace} :
      Visits mode samples l w g v → Visits mode samples (.aggregate op counter l b) w g v
  | body {op : AggregateOp} {counter : String} {l b g : Formula} {w u x v : Workspace}
      {bound value total : Float} :
      l.run mode samples w = (.ok bound, u) →
      Enters op bound (withCounter counter (b.run mode samples)) u value total x →
      Visits mode samples b { x with store := x.store.put counter value } g v →
      Visits mode samples (.aggregate op counter l b) w g v

/-- What a part visits is visited by the whole. -/
theorem Formula.Visits.trans {mode : Mode} {samples : Samples} {f g h : Formula}
    {w v u : Workspace} (hfg : Visits mode samples f w g v) (hgh : Visits mode samples g v h u) :
    Visits mode samples f w h u := by
  induction hfg with
  | self => exact hgh
  | operand _ ih => exact .operand (ih hgh)
  | left _ ih => exact .left (ih hgh)
  | right hl _ ih => exact .right hl (ih hgh)
  | limit _ ih => exact .limit (ih hgh)
  | body hl hentered _ ih => exact .body hl hentered (ih hgh)

/-- **An evaluation that returns has returned from every part that it visited.** -/
theorem Formula.Visits.exists_run_eq {mode : Mode} {samples : Samples} {f g : Formula}
    {w v : Workspace} (h : Visits mode samples f w g v) {x : Float} {w' : Workspace}
    (hreturns : f.run mode samples w = (.ok x, w')) :
    ∃ y v', g.run mode samples v = (.ok y, v') := by
  induction h generalizing x w' with
  | self => exact ⟨x, w', hreturns⟩
  | operand _ ih =>
      obtain ⟨a, hoperand, -⟩ := exists_run_of_unary hreturns
      exact ih hoperand
  | left _ ih =>
      obtain ⟨a, u, b, hleft, -⟩ := exists_run_of_binary hreturns
      exact ih hleft
  | right hl _ ih =>
      obtain ⟨a, u, b, hleft, hright, -⟩ := exists_run_of_binary hreturns
      rw [hl] at hleft
      cases hleft
      exact ih hright
  | limit _ ih =>
      obtain ⟨bound, u, _, hlimit, -⟩ := exists_rounds_of_run hreturns
      exact ih hlimit
  | @body op counter l b _ _ u y _ bound value total hl hentered _ ih =>
      obtain ⟨bound', u', v', hlimit, hrounds⟩ := exists_rounds_of_run hreturns
      rw [hl] at hlimit
      cases hlimit
      obtain ⟨remaining, hrest⟩ := hentered.exists_rounds_eq hrounds
      rcases hbody : withCounter counter (b.run mode samples) value y with ⟨stop | term, next⟩
      · rw [rounds_stop hentered.le hbody] at hrest
        cases hrest
      · exact ih hbody

end Formulary
