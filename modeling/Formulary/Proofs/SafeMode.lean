import Formulary.Evaluation
import Formulary.Proofs.Frame
import Formulary.Proofs.Order

/-!
# Where Safe Mode Loses Its Numbers

In safe mode an operation outside its domain gives zero, and so does every operation whose result
is no number. The totals of aggregates are not settled in this way: a sum may meet an infinity and
then the opposite one, a product an infinity and then a zero. This module proves that nothing else
goes wrong. Formulas, stores and samples of numbers evaluate to numbers in every part, unless an
aggregate clashes, and an aggregate that clashes and returns is no number.

## Conventions

The **values** of a formula are those of all parts that its evaluation visits, and not of the whole
alone. A part that stops has no value.

A total and a term clash if adding or multiplying them as the aggregate does gives no number,
although both are numbers. The definition names the infinities and zeros; `combine_isNaN_iff` says
that there are no others.

## Main results

* `isNaN_add_iff`, `isNaN_mul_iff`: the sums and products that are no numbers.
* `UnaryOp.value_safe_isNaN`, `BinaryOp.value_safe_isNaN`: operations keep to the numbers.
* `Formula.evaluate_safe_isNaN`: all values are numbers exactly if no aggregate clashes.
-/

namespace Formulary.Number

open Float.Model (Format UnpackedFloat)
open Float.Model.UnpackedFloat

/-! ### Sums and products that are no numbers -/

/-- Rounding gives a number. -/
theorem isNaN_roundWithAccuracy (s : Sign) (m : ℕ) (q : ℤ) (a : Accuracy) :
    (roundWithAccuracy Format.binary64 s m q a).isNaN = false := by
  unfold roundWithAccuracy
  simp only
  split <;> rfl

/-- Rounding a signed mantissa gives a number. -/
theorem isNaN_normalize (m q : ℤ) (s : Sign) :
    (UnpackedFloat.normalize Format.binary64 m q s).isNaN = false := by
  unfold UnpackedFloat.normalize
  split
  · exact isNaN_roundWithAccuracy ..
  · rfl
  · exact isNaN_roundWithAccuracy ..

/-- The values that are taken apart into a zero. -/
theorem beq_zero_iff {x : Float} : (x == 0.0) = true ↔ ∃ s, x.toModel.unpack = .zero s := by
  have hzero : (0.0 : Float).toModel.unpack = .zero .positive := by
    have hpack : (0.0 : Float) = .ofModel (.pack (.zero .positive)) :=
      eq_of_toNat_toBits (by decide +kernel)
    rw [hpack]
    rfl
  show (x.toModel.unpack.compare (0.0 : Float).toModel.unpack == some .eq) = true ↔ _
  rw [hzero]
  cases x.toModel.unpack with
  | infinity s => cases s <;> simp [UnpackedFloat.compare]
  | notANumber => simp [UnpackedFloat.compare]
  | zero s => simp [UnpackedFloat.compare]
  | finite s => cases s <;> simp [UnpackedFloat.compare]

/-- **A sum is no number** if one side is none, or if the sides are the two infinities. -/
theorem isNaN_add_iff {x y : Float} :
    (x + y).isNaN = true ↔ x.isNaN = true ∨ y.isNaN = true ∨
      (isInfinite x = true ∧ isInfinite y = true ∧ signOf x ≠ signOf y) := by
  have hunpacked (u v : UnpackedFloat) : (UnpackedFloat.add Format.binary64 u v).isNaN = true ↔
      u.isNaN = true ∨ v.isNaN = true ∨ ∃ s t, u = .infinity s ∧ v = .infinity t ∧ s ≠ t := by
    cases u <;> cases v
    case infinity.infinity s t | zero.zero s t =>
      by_cases h : s = t <;> simp [UnpackedFloat.add, UnpackedFloat.isNaN, h]
    case finite.finite =>
      refine iff_of_false ?_ (by simp [UnpackedFloat.isNaN])
      rw [UnpackedFloat.add, isNaN_normalize]
      exact Bool.false_ne_true
    all_goals simp [UnpackedFloat.add, UnpackedFloat.isNaN]
  have hsum : (x + y).isNaN =
      (UnpackedFloat.add Format.binary64 x.toModel.unpack y.toModel.unpack).isNaN :=
    isNaN_ofModel_pack _
  rw [hsum, hunpacked]
  simp only [unpack_eq_infinity_iff]
  refine or_congr Iff.rfl (or_congr Iff.rfl ⟨?_, ?_⟩)
  · rintro ⟨s, t, ⟨hx, rfl⟩, ⟨hy, rfl⟩, hne⟩
    exact ⟨hx, hy, hne⟩
  · rintro ⟨hx, hy, hne⟩
    exact ⟨_, _, ⟨hx, rfl⟩, ⟨hy, rfl⟩, hne⟩

/-- **A product is no number** if one side is none, or if they are an infinity and a zero. -/
theorem isNaN_mul_iff {x y : Float} :
    (x * y).isNaN = true ↔ x.isNaN = true ∨ y.isNaN = true ∨
      (isInfinite x = true ∧ (y == 0.0) = true) ∨ ((x == 0.0) = true ∧ isInfinite y = true) := by
  have hunpacked (u v : UnpackedFloat) : (UnpackedFloat.mul Format.binary64 u v).isNaN = true ↔
      u.isNaN = true ∨ v.isNaN = true ∨ ((∃ s, u = .infinity s) ∧ ∃ t, v = .zero t) ∨
        ((∃ s, u = .zero s) ∧ ∃ t, v = .infinity t) := by
    cases u <;> cases v
    case finite.finite =>
      refine iff_of_false ?_ (by simp [UnpackedFloat.isNaN])
      rw [UnpackedFloat.mul, isNaN_roundWithAccuracy]
      exact Bool.false_ne_true
    all_goals simp [UnpackedFloat.mul, UnpackedFloat.isNaN]
  have hproduct : (x * y).isNaN =
      (UnpackedFloat.mul Format.binary64 x.toModel.unpack y.toModel.unpack).isNaN :=
    isNaN_ofModel_pack _
  rw [hproduct, hunpacked, beq_zero_iff, beq_zero_iff]
  simp only [unpack_eq_infinity_iff, exists_and_left, exists_eq', and_true]
  rfl

end Formulary.Number

namespace Formulary

open Number (isInfinite signOf isNaN_add_iff isNaN_mul_iff isNaN_neg isNaN_of_le)

/-! ### Operations in safe mode -/

/-- In safe mode a unary operation gives a number for every number. -/
theorem UnaryOp.value_safe_isNaN (op : UnaryOp) {x : Float} (hx : x.isNaN = false) :
    (op.value .safe x).isNaN = false := by
  rw [value]
  split
  · exact isNaN_neg hx
  · split
    · decide
    · exact settle_safe_isNaN _

/-- In safe mode a binary operation gives a number for all values. -/
theorem BinaryOp.value_safe_isNaN (op : BinaryOp) (a b : Float) :
    (op.value .safe a b).isNaN = false := by
  have htruth (c : Bool) : (truth c).isNaN = false := by
    cases c <;> decide
  rw [value]
  split
  · rename_i hcomparison
    cases op with
    | eq | ne | gt | lt => exact htruth _
    | _ => cases hcomparison
  · split
    · decide
    · exact settle_safe_isNaN _

/-! ### Clashes -/

/-- Whether a total and a term **clash**: a sum of the two infinities, or a product of an infinity
and a zero. -/
def AggregateOp.clashes (op : AggregateOp) (total term : Float) : Bool :=
  match op with
  | sum => isInfinite total && isInfinite term && signOf total != signOf term
  | mult => isInfinite total && term == 0.0 || total == 0.0 && isInfinite term

/-- **A total is no number** if it was none, if the term is none, or if the two clash. -/
theorem AggregateOp.combine_isNaN_iff (op : AggregateOp) {total term : Float} :
    (op.combine total term).isNaN = true ↔
      total.isNaN = true ∨ term.isNaN = true ∨ op.clashes total term = true := by
  cases op with
  | sum =>
      simp only [combine, clashes, isNaN_add_iff, Bool.and_eq_true, bne_iff_ne, and_assoc]
  | mult => simp only [combine, clashes, isNaN_mul_iff, Bool.or_eq_true, Bool.and_eq_true]

/-- The total of an aggregate without terms is a number. -/
theorem AggregateOp.unit_isNaN (op : AggregateOp) : op.unit.isNaN = false := by
  cases op <;> decide

/-- A total that is no number stays none. -/
theorem rounds_isNaN {op : AggregateOp} {limit x : Float} {body : Float → Workspace → Outcome}
    {remaining : ℕ} {counter total : Float} {w v : Workspace} (htotal : total.isNaN = true)
    (h : rounds op limit body remaining counter total w = (.ok x, v)) : x.isNaN = true := by
  fun_induction rounds op limit body remaining counter total w with
  | case1 => cases h
  | case2 _ counter total w hle term next hbody ih =>
      exact ih (op.combine_isNaN_iff.2 (.inl htotal)) h
  | case3 => cases h
  | case4 =>
      cases h
      exact htotal

/-- The total of rounds without a clash is a number. -/
theorem rounds_isNaN_eq_false {op : AggregateOp} {limit x : Float}
    {body : Float → Workspace → Outcome} {u v : Workspace}
    (hround : ∀ counter total w term next, Enters op limit body u counter total w →
      body counter w = (.ok term, next) →
      term.isNaN = false ∧ op.clashes total term = false)
    {remaining : ℕ} {counter total : Float} {w : Workspace}
    (hentered : counter ≤ limit → Enters op limit body u counter total w)
    (htotal : total.isNaN = false)
    (h : rounds op limit body remaining counter total w = (.ok x, v)) : x.isNaN = false := by
  fun_induction rounds op limit body remaining counter total w with
  | case1 => cases h
  | case2 _ counter total w hle term next hbody ih =>
      obtain ⟨hterm, hclash⟩ := hround _ _ _ _ _ (hentered hle) hbody
      refine ih (fun hle' => (hentered hle).next hbody hle') ?_ h
      rw [Bool.eq_false_iff, ne_eq, op.combine_isNaN_iff, htotal, hterm, hclash]
      decide
  | case3 => cases h
  | case4 =>
      cases h
      exact htotal

/-! ### Numbers in, numbers out -/

/-- Whether all literals of a formula are numbers. -/
def Formula.Numeric : Formula → Prop
  | literal value => value.isNaN = false
  | var _ => True
  | unary _ operand => operand.Numeric
  | binary _ left right => left.Numeric ∧ right.Numeric
  | aggregate _ _ limit body => limit.Numeric ∧ body.Numeric

/-- Whether all values of a store are numbers. -/
def Store.Numeric (s : Store) : Prop :=
  ∀ name value, s.get? name = some value → value.isNaN = false

/-- Setting a variable to a number leaves numbers. -/
theorem Store.Numeric.put {s : Store} (h : s.Numeric) (name : String) {value : Float}
    (hvalue : value.isNaN = false) : (s.put name value).Numeric := by
  intro key x hx
  rw [get?_put] at hx
  split at hx
  · cases hx
    exact hvalue
  · exact h key x hx

/-- The parts that are visited and their workspaces hold numbers, if the formula and its store
do. -/
theorem Formula.Visits.numeric {mode : Mode} {samples : Samples} {f g : Formula} {w v : Workspace}
    (h : Visits mode samples f w g v) (hf : f.Numeric) (hw : w.store.Numeric) :
    g.Numeric ∧ v.store.Numeric := by
  have hstore {f : Formula} {w v : Workspace} {x : Float}
      (h : f.run mode samples w = (.ok x, v)) (hw : w.store.Numeric) : v.store.Numeric := by
    have hsame := f.run_store mode samples w
    rw [h] at hsame
    exact hsame ▸ hw
  induction h with
  | self => exact ⟨hf, hw⟩
  | operand _ ih => exact ih hf hw
  | left _ ih => exact ih hf.1 hw
  | right hl _ ih => exact ih hf.2 (hstore hl hw)
  | limit _ ih => exact ih hf.1 hw
  | body hl hentered _ ih =>
      refine ih hf.2 ?_
      rw [hentered.put_eq]
      exact (hstore hl hw).put _ (isNaN_of_le hentered.le).1

/-- Whether an aggregate **clashes** when it is evaluated: it enters a round whose term clashes with
the total. -/
def Formula.Clashes (mode : Mode) (samples : Samples) (op : AggregateOp) (counter : String)
    (limit body : Formula) (w : Workspace) : Prop :=
  ∃ bound u value total v term v', limit.run mode samples w = (.ok bound, u) ∧
    Enters op bound (withCounter counter (body.run mode samples)) u value total v ∧
    withCounter counter (body.run mode samples) value v = (.ok term, v') ∧
    op.clashes total term = true

/-- **An aggregate that clashes and returns is no number.** -/
theorem Formula.Clashes.isNaN {mode : Mode} {samples : Samples} {op : AggregateOp}
    {counter : String} {limit body : Formula} {w v : Workspace} {x : Float}
    (h : Clashes mode samples op counter limit body w)
    (hreturns : (aggregate op counter limit body).run mode samples w = (.ok x, v)) :
    x.isNaN = true := by
  obtain ⟨bound, u, value, total, y, term, y', hlimit, hentered, hbody, hclash⟩ := h
  obtain ⟨bound', u', v', hlimit', hrounds⟩ := exists_rounds_of_run hreturns
  rw [hlimit] at hlimit'
  cases hlimit'
  obtain ⟨remaining, hrest⟩ := hentered.exists_rounds_eq hrounds
  rw [rounds_succ hentered.le hbody] at hrest
  exact rounds_isNaN (op.combine_isNaN_iff.2 (.inr (.inr hclash))) hrest

/-- The constants are numbers. -/
theorem constant?_isNaN {name : String} {x : Float} (h : constant? name = some x) :
    x.isNaN = false := by
  rw [constant?] at h
  by_cases hpi : lowercase name = "pi"
  · rw [if_pos hpi] at h
    cases h
    decide
  · rw [if_neg hpi] at h
    by_cases he : lowercase name = "e"
    · rw [if_pos he] at h
      cases h
      decide
    · rw [if_neg he] at h
      cases h

/-- The value of a name is a number. -/
theorem lookUp_isNaN {samples : Samples} (hsamples : ∀ n, (samples n).isNaN = false)
    {name : String} {w v : Workspace} (hw : w.store.Numeric) {x : Float}
    (h : lookUp samples name w = (.ok x, v)) : x.isNaN = false := by
  obtain ⟨-, hrun⟩ | ⟨_, hconstant, hrun⟩ | ⟨-, _, hget, hrun⟩ | ⟨-, -, hrun⟩ :=
    lookUp_cases samples name w <;> rw [hrun] at h <;> cases h
  · exact hsamples _
  · exact constant?_isNaN hconstant
  · exact hw name x hget

/-- **Numbers evaluate to numbers** where no aggregate clashes. -/
theorem Formula.run_safe_isNaN {samples : Samples} (hsamples : ∀ n, (samples n).isNaN = false)
    {f : Formula} {w v : Workspace} {x : Float} (hf : f.Numeric) (hw : w.store.Numeric)
    (hclash : ∀ op counter limit body u,
      Visits .safe samples f w (.aggregate op counter limit body) u →
      ¬ Clashes .safe samples op counter limit body u)
    (h : f.run .safe samples w = (.ok x, v)) : x.isNaN = false := by
  induction f generalizing w v x with
  | literal value =>
      cases h
      exact hf
  | var name => exact lookUp_isNaN hsamples hw h
  | unary op operand ih =>
      obtain ⟨y, hoperand, rfl⟩ := exists_run_of_unary h
      refine op.value_safe_isNaN (ih hf hw (fun o c l b u hv => ?_) hoperand)
      exact hclash o c l b u hv.operand
  | binary op left right ihl ihr =>
      obtain ⟨a, u, b, -, -, rfl⟩ := exists_run_of_binary h
      exact op.value_safe_isNaN a b
  | aggregate op counter limit body ihl ihb =>
      obtain ⟨bound, u, u', hlimit, hrounds⟩ := exists_rounds_of_run h
      refine rounds_isNaN_eq_false (fun value total y term y' hentered hbody => ⟨?_, ?_⟩) .first
        op.unit_isNaN hrounds
      · -- the body of a round that is entered is visited, and in a store of numbers
        have hnumeric := (Visits.body hlimit hentered (.self ..)).numeric hf hw
        refine ihb hf.2 hnumeric.2 (fun o c l b v hv => ?_) hbody
        exact hclash o c l b v (.body hlimit hentered hv)
      · refine Bool.eq_false_iff.2 fun htrue => ?_
        exact hclash op counter limit body w (.self ..)
          ⟨bound, u, value, total, y, term, y', hlimit, hentered, hbody, htrue⟩

/-- **All values are numbers exactly if no aggregate clashes.** Let a formula, its store and the
samples hold numbers, and let the evaluation return in safe mode. Its value and the values of all
parts that it visited are numbers exactly if none of the aggregates that it visited has met a
clash. -/
theorem Formula.evaluate_safe_isNaN {f : Formula} {store : Store} {samples : Samples} {x : Float}
    {w : Workspace} (hf : f.Numeric) (hstore : store.Numeric)
    (hsamples : ∀ n, (samples n).isNaN = false)
    (hreturns : f.evaluate store .safe samples = (.ok x, w)) :
    (x.isNaN = false ∧ ∀ g v y v', Visits .safe samples f { store := store } g v →
      g.run .safe samples v = (.ok y, v') → y.isNaN = false) ↔
    ∀ op counter limit body v,
      Visits .safe samples f { store := store } (.aggregate op counter limit body) v →
      ¬ Clashes .safe samples op counter limit body v := by
  constructor
  · rintro ⟨-, h⟩ op counter limit body v hvisits hclash
    obtain ⟨y, v', hpart⟩ := hvisits.exists_run_eq hreturns
    have hnumber := h _ v y v' hvisits hpart
    rw [hclash.isNaN hpart] at hnumber
    cases hnumber
  · intro h
    refine ⟨run_safe_isNaN hsamples hf hstore h hreturns, fun g v y v' hvisits hpart => ?_⟩
    obtain ⟨hg, hv⟩ := hvisits.numeric hf hstore
    refine run_safe_isNaN hsamples hg hv (fun op counter limit body u hinner => ?_) hpart
    exact h op counter limit body u (hvisits.trans hinner)

/-! ### A sum that clashes -/

/-- The sum of a square and its opposite, `sum(i,2,(3-2*i)*x*x)`. -/
def Formula.opposites : Formula :=
  .aggregate .sum "i" (.literal 2.0)
    (.binary .mul (.binary .mul (.binary .sub (.literal 3.0) (.binary .mul (.literal 2.0)
      (.var "i"))) (.var "x")) (.var "x"))

/-- A store with a value whose square is infinite. -/
def Store.overflowing : Store :=
  ofList [("x", 1e200)]

/-- The sum has literals that are numbers. -/
theorem Formula.opposites_numeric : opposites.Numeric := by
  have htwo : (2.0 : Float).isNaN = false := by decide
  have hthree : (3.0 : Float).isNaN = false := by decide
  exact ⟨htwo, ⟨⟨hthree, htwo, trivial⟩, trivial⟩, trivial⟩

/-- The store has a value that is a number. -/
theorem Store.overflowing_numeric : overflowing.Numeric :=
  Numeric.put (s := empty) (fun _ _ h => by cases h) "x" (by decide +kernel)

/-- Where the square is infinite, the sum of the square and its opposite is no number. -/
theorem Formula.opposites_isNaN :
    ∃ x w, opposites.evaluate Store.overflowing .safe (fun _ => 0.5) = (.ok x, w) ∧
      x.isNaN = true := by
  have hvalue : (match (opposites.evaluate Store.overflowing .safe fun _ => 0.5).1 with
      | .ok x => x.isNaN
      | .error _ => false) = true := by
    decide +kernel
  rcases h : opposites.evaluate Store.overflowing .safe (fun _ => 0.5) with ⟨stop | x, w⟩ <;>
    rw [h] at hvalue
  · cases hvalue
  · exact ⟨x, w, rfl, hvalue⟩

/-- Where the square is infinite, the sum returns although the aggregate has met a clash. -/
theorem Formula.evaluate_safe_isNaN_opposites :
    ∃ x w, opposites.evaluate Store.overflowing .safe (fun _ => 0.5) = (.ok x, w) ∧
      ¬ ∀ op counter limit body v,
        Visits .safe (fun _ => 0.5) opposites { store := Store.overflowing }
          (.aggregate op counter limit body) v →
        ¬ Clashes .safe (fun _ => 0.5) op counter limit body v := by
  obtain ⟨x, w, hreturns, hnan⟩ := opposites_isNaN
  refine ⟨x, w, hreturns, fun h => ?_⟩
  have hnumber := ((evaluate_safe_isNaN opposites_numeric Store.overflowing_numeric
    (fun _ => by decide) hreturns).2 h).1
  rw [hnan] at hnumber
  cases hnumber

/-- **Safe mode does not keep to the numbers**: not even the value of the whole is always one. -/
theorem Formula.not_forall_evaluate_safe_isNaN :
    ¬ ∀ (f : Formula) (store : Store) (samples : Samples), f.Numeric → store.Numeric →
      (∀ n, (samples n).isNaN = false) →
      ∀ x w, f.evaluate store .safe samples = (.ok x, w) → x.isNaN = false := by
  intro h
  obtain ⟨x, w, hreturns, hnan⟩ := opposites_isNaN
  have hnumber := h opposites Store.overflowing (fun _ => 0.5) opposites_numeric
    Store.overflowing_numeric (fun _ => by decide) x w hreturns
  rw [hnan] at hnumber
  cases hnumber

end Formulary
