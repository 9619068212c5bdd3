import Formulary.Proofs.Frame

/-!
# The Modes Differ in Faults Alone

In strict mode a fault of arithmetic shows as an infinity or as no number; in safe mode the
operation gives zero instead. The values feed the limits of aggregates, so one fault can change how
many rounds are run, how many samples are drawn and which names are read in all that follows. This
module proves that nothing else tells the modes apart. If no operation of the strict evaluation
faults, the safe evaluation is the same one: in its value or its stop, in the store and in the
samples.

## Conventions

An operation **faults** on operands that are guarded, and where its strict result is no number. The
guarded operands are listed here (`UnaryOp.Guarded`, `BinaryOp.Guarded`), apart from the arithmetic.
A result that is infinite is no fault by itself. The totals of aggregates are no operations, since
no mode looks at them.

What is assumed is about the strict evaluation alone, and there only about the operations that it
comes to (`Formula.Visits`).

## Main results

* `UnaryOp.guards_iff`, `BinaryOp.guards_iff`: safe mode guards the operands of the list.
* `UnaryOp.value_safe_eq`, `BinaryOp.value_safe_eq`: an operation that does not fault has one value.
* `Formula.Faultless.of_visits`: the parts of a faultless evaluation are faultless.
* `rounds_congr`: an aggregate depends on its body only in the rounds that it enters.
* `Formula.run_safe_eq`, `Formula.evaluate_safe_eq_strict`: a faultless evaluation is the safe one.
-/

namespace Formulary

/-! ### Operations that fault -/

/-- The **guarded** operands of the unary operations: a square root of what is negative, a logarithm
of what is not positive, a tangent where the cosine vanishes, an arc sine or arc cosine beyond one,
and a factorial of what is negative or beyond twelve. -/
def UnaryOp.Guarded (op : UnaryOp) (x : Float) : Prop :=
  match op with
  | sqrt => x < 0.0
  | log10 | ln => x ≤ 0.0
  | tan => (x.cos == 0.0) = true
  | asin | acos => 1.0 < x ∨ x < -1.0
  | factorial => x < 0.0 ∨ 12.0 < x
  | _ => False

/-- The **guarded** right operands: a division or a remainder by zero. -/
def BinaryOp.Guarded (op : BinaryOp) (b : Float) : Prop :=
  match op with
  | div | mod => (b == 0.0) = true
  | _ => False

/-- Safe mode guards the listed operands of unary operations. -/
theorem UnaryOp.guards_iff {op : UnaryOp} {x : Float} : op.guards x = true ↔ op.Guarded x := by
  cases op <;> simp [guards, Guarded, largestFactorial]

/-- Safe mode guards the listed operands of binary operations. -/
theorem BinaryOp.guards_iff {op : BinaryOp} {b : Float} : op.guards b = true ↔ op.Guarded b := by
  cases op <;> simp [guards, Guarded]

instance (op : UnaryOp) (x : Float) : Decidable (op.Guarded x) :=
  decidable_of_iff _ UnaryOp.guards_iff

instance (op : BinaryOp) (b : Float) : Decidable (op.Guarded b) :=
  decidable_of_iff _ BinaryOp.guards_iff

/-- Whether a unary operation **faults** on a value. -/
def UnaryOp.Faults (op : UnaryOp) (x : Float) : Prop :=
  op.Guarded x ∨ (op.value .strict x).isNaN = true

instance (op : UnaryOp) (x : Float) : Decidable (op.Faults x) :=
  inferInstanceAs (Decidable (_ ∨ _))

/-- Whether a binary operation **faults** on two values. -/
def BinaryOp.Faults (op : BinaryOp) (a b : Float) : Prop :=
  op.Guarded b ∨ (op.value .strict a b).isNaN = true

instance (op : BinaryOp) (a b : Float) : Decidable (op.Faults a b) :=
  inferInstanceAs (Decidable (_ ∨ _))

/-- A number is settled as it is in both modes. -/
theorem settle_safe_eq {x : Float} (h : (settle .strict x).isNaN = false) :
    settle .safe x = settle .strict x :=
  if_neg (Bool.eq_false_iff.1 h)

/-- A unary operation that does not fault has the same value in both modes. -/
theorem UnaryOp.value_safe_eq {op : UnaryOp} {x : Float} (h : ¬ op.Faults x) :
    op.value .safe x = op.value .strict x := by
  obtain ⟨hguarded, hnumber⟩ := not_or.1 h
  rw [← guards_iff] at hguarded
  rw [value] at hnumber
  rw [value, value]
  by_cases hnegate : op = negate
  · rw [if_pos hnegate, if_pos hnegate]
  · rw [if_neg hnegate] at hnumber
    rw [if_neg hnegate, if_neg hnegate, if_neg (by simpa using hguarded)]
    exact settle_safe_eq (Bool.eq_false_iff.2 hnumber)

/-- A binary operation that does not fault has the same value in both modes. -/
theorem BinaryOp.value_safe_eq {op : BinaryOp} {a b : Float} (h : ¬ op.Faults a b) :
    op.value .safe a b = op.value .strict a b := by
  obtain ⟨hguarded, hnumber⟩ := not_or.1 h
  rw [← guards_iff] at hguarded
  rw [value] at hnumber
  rw [value, value]
  by_cases hcomparison : op.isComparison = true
  · rw [if_pos hcomparison, if_pos hcomparison]
  · rw [if_neg hcomparison] at hnumber
    rw [if_neg hcomparison, if_neg hcomparison, if_neg (by simpa using hguarded)]
    exact settle_safe_eq (Bool.eq_false_iff.2 hnumber)

/-! ### Evaluations without faults -/

/-- Whether the strict evaluation of a formula is **faultless**: none of the operations that it
comes to faults on its operands. -/
structure Formula.Faultless (samples : Samples) (f : Formula) (w : Workspace) : Prop where
  unary : ∀ {op operand v x v'}, Visits .strict samples f w (.unary op operand) v →
    operand.run .strict samples v = (.ok x, v') → ¬ op.Faults x
  binary : ∀ {op left right v a u b u'}, Visits .strict samples f w (.binary op left right) v →
    left.run .strict samples v = (.ok a, u) → right.run .strict samples u = (.ok b, u') →
    ¬ op.Faults a b

/-- The parts of a faultless evaluation are faultless. -/
theorem Formula.Faultless.of_visits {samples : Samples} {f g : Formula} {w v : Workspace}
    (h : Faultless samples f w) (hvisits : Visits .strict samples f w g v) :
    Faultless samples g v where
  unary hinner := h.unary (hvisits.trans hinner)
  binary hinner := h.binary (hvisits.trans hinner)

/-- **An aggregate depends on its body only in the rounds that it enters.** -/
theorem rounds_congr {op : AggregateOp} {limit : Float} {body body' : Float → Workspace → Outcome}
    {u : Workspace}
    (hbody : ∀ counter total w, Enters op limit body u counter total w →
      body' counter w = body counter w)
    {remaining : ℕ} {counter total : Float} {w : Workspace}
    (hentered : counter ≤ limit → Enters op limit body u counter total w) :
    rounds op limit body' remaining counter total w =
      rounds op limit body remaining counter total w := by
  induction remaining generalizing counter total w with
  | zero => rfl
  | succ remaining ih =>
      by_cases hle : counter ≤ limit
      · have hround := hbody counter total w (hentered hle)
        rcases hrun : body counter w with ⟨stop | term, next⟩ <;> rw [hrun] at hround
        · rw [rounds_stop hle hround, rounds_stop hle hrun]
        · rw [rounds_succ hle hround, rounds_succ hle hrun]
          exact ih fun hle' => (hentered hle).next hrun hle'
      · rw [rounds_of_not_le hle, rounds_of_not_le hle]

/-- **A faultless evaluation is the safe one.** -/
theorem Formula.run_safe_eq {samples : Samples} {f : Formula} {w : Workspace}
    (h : Faultless samples f w) : f.run .safe samples w = f.run .strict samples w := by
  induction f generalizing w with
  | literal value => rfl
  | var name => rfl
  | unary op operand ih =>
      rw [run, run, ih (h.of_visits (.operand (.self ..)))]
      rcases hrun : operand.run .strict samples w with ⟨stop | x, v⟩
      · rfl
      · simp only [UnaryOp.value_safe_eq (h.unary (.self ..) hrun)]
  | binary op left right ihl ihr =>
      rw [run, run, ihl (h.of_visits (.left (.self ..)))]
      rcases hleft : left.run .strict samples w with ⟨stop | a, v⟩
      · rfl
      · simp only [ihr (h.of_visits (.right hleft (.self ..)))]
        rcases hright : right.run .strict samples v with ⟨stop | b, u⟩
        · rfl
        · simp only [BinaryOp.value_safe_eq (h.binary (.self ..) hleft hright)]
  | aggregate op counter limit body ihl ihb =>
      rw [run, run, ihl (h.of_visits (.limit (.self ..)))]
      rcases hlimit : limit.run .strict samples w with ⟨stop | bound, v⟩
      · rfl
      · -- a round that is entered is visited, so its body is faultless
        simp only
        rw [rounds_congr (fun value total u hentered => ?_) .first]
        exact ihb (h.of_visits (.body hlimit hentered (.self ..)))

/-- **The modes agree on every faultless evaluation**: the safe evaluation has the same value or
stops for the same reason, and it leaves the same store after as many samples. -/
theorem Formula.evaluate_safe_eq_strict {f : Formula} {store : Store} {samples : Samples}
    (h : Faultless samples f { store := store }) :
    f.evaluate store .safe samples = f.evaluate store .strict samples :=
  run_safe_eq h

/-! ### Infinite terms -/

/-- The sum of an infinity divided by the counter, `sum(i,2,1e200*1e200/i)`. -/
def Formula.infiniteQuotients : Formula :=
  .aggregate .sum "i" (.literal 2.0)
    (.binary .div (.binary .mul (.literal 1e200) (.literal 1e200)) (.var "i"))

/-- In a round of two the counter is one or two. -/
theorem Enters.counter_cases {op : AggregateOp} {body : Float → Workspace → Outcome}
    {u v : Workspace} {counter total : Float} (h : Enters op 2.0 body u counter total v) :
    counter = 1.0 ∨ counter = 2.0 := by
  have htwo : (1.0 + 1.0 : Float) = 2.0 := by decide +kernel
  induction h with
  | first _ => exact .inl rfl
  | next _ _ hle ih =>
      rcases ih with rfl | rfl
      · exact .inr htwo
      · exact absurd hle (by decide +kernel)

/-- No term of the sum faults, although each is infinite. -/
theorem Formula.faultless_infiniteQuotients :
    Faultless (fun _ => 0.5) infiniteQuotients { store := .empty } := by
  have hliteral {value b : Float} {w v : Workspace}
      (h : (literal value).run .strict (fun _ => 0.5) w = (.ok b, v)) : b = value ∧ v = w := by
    rw [run] at h
    exact ⟨(Except.ok.inj (Prod.mk.inj h).1).symm, (Prod.mk.inj h).2.symm⟩
  have hcounter {value b : Float} {w v : Workspace}
      (h : (var "i").run .strict (fun _ => 0.5) { w with store := w.store.put "i" value } =
        (.ok b, v)) : b = value := by
    have hconstant : constant? "i" = none := by decide
    rw [run, lookUp, if_neg (by decide), hconstant, Store.get?_put, if_pos rfl] at h
    exact (Except.ok.inj (Prod.mk.inj h).1).symm
  refine ⟨fun hvisits _ => ?_, fun hvisits hleft hright => ?_⟩
  · cases hvisits with
    | limit hvisits => cases hvisits
    | body _ _ hvisits =>
        cases hvisits with
        | left hvisits =>
            cases hvisits with
            | left hvisits => cases hvisits
            | right _ hvisits => cases hvisits
        | right _ hvisits => cases hvisits
  · cases hvisits with
    | limit hvisits => cases hvisits
    | body hlimit hentered hvisits =>
        obtain ⟨rfl, rfl⟩ := hliteral hlimit
        cases hvisits with
        | self =>
            obtain ⟨_, _, _, hfirst, hsecond, rfl⟩ := exists_run_of_binary hleft
            obtain ⟨rfl, rfl⟩ := hliteral hfirst
            obtain ⟨rfl, rfl⟩ := hliteral hsecond
            obtain rfl := hcounter hright
            rcases hentered.counter_cases with rfl | rfl <;> decide +kernel
        | left hvisits =>
            cases hvisits with
            | self =>
                obtain ⟨rfl, rfl⟩ := hliteral hleft
                obtain ⟨rfl, rfl⟩ := hliteral hright
                decide +kernel
            | left hvisits => cases hvisits
            | right _ hvisits => cases hvisits
        | right _ hvisits => cases hvisits

/-- The sum of infinite terms is the same in both modes. -/
theorem Formula.evaluate_safe_eq_strict_infinite :
    Faultless (fun _ => 0.5) infiniteQuotients { store := .empty } ∧
      infiniteQuotients.evaluate .empty .safe (fun _ => 0.5) =
        infiniteQuotients.evaluate .empty .strict fun _ => 0.5 :=
  ⟨faultless_infiniteQuotients, evaluate_safe_eq_strict faultless_infiniteQuotients⟩

end Formulary
