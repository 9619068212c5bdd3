import Formulary.Proofs.SafeMode

/-!
# One of Three Comparisons Holds

Two values are equal, or the left one is greater, or the right one is. Equality is up to a
tolerance and goes by a difference, which may overflow or be no number, and the two orders are only
asked where it fails. This module proves that exactly one of the three holds for any two numbers, be
they huge, nearly equal or the two infinities, with a single exception. An infinity and itself have
a difference that is no number, so they are not equal, and neither of them is greater.

## Conventions

The comparisons are those of two subformulas, which are evaluated one after the other. Their values
are numbers, and may be infinite.

The order of values is a function of what they are taken apart into. It is a linear order of the
numbers in which the two zeros are the same, and the tolerance plays no part in it.

## Main results

* `Number.exists_compare_eq`, `Number.compare_swap`: any two numbers have an order.
* `Number.near_eq_of_compare_eq`: where neither is larger, they are equal up to the tolerance unless
  they are infinite.
* `Formula.run_comparisons`: exactly one comparison holds, unless an infinity meets itself.
-/

namespace Formulary

namespace Number

open Float.Model (Format UnpackedFloat)
open Float.Model.UnpackedFloat

/-! ### The order of values -/

/-- Comparing the other way round turns the result round. -/
theorem compare_swap (u v : UnpackedFloat) : v.compare u = (u.compare v).map Ordering.swap := by
  have then_swap (q r : ℤ) (m n : ℕ) :
      ((compare q r).then (compare m n)).swap = (compare r q).then (compare n m) := by
    rw [Ordering.swap_then, Std.OrientedOrd.eq_swap (a := r), Std.OrientedOrd.eq_swap (a := n)]
  cases u with
  | notANumber => cases v <;> rfl
  | infinity s => cases v with
    | infinity t => cases s <;> cases t <;> rfl
    | _ => cases s <;> rfl
  | zero s => cases v with
    | infinity t | finite t => cases t <;> rfl
    | _ => rfl
  | finite s m q => cases v with
    | finite t n r => cases s <;> cases t <;> simp [UnpackedFloat.compare, then_swap]
    | infinity t => cases t <;> rfl
    | zero => cases s <;> rfl
    | notANumber => rfl

/-- **Any two numbers have an order.** -/
theorem exists_compare_eq {u v : UnpackedFloat} (hu : u.isNaN = false) (hv : v.isNaN = false) :
    ∃ o, u.compare v = some o := by
  cases u with
  | notANumber => cases hu
  | infinity s => cases v with
    | notANumber => cases hv
    | infinity t => exact ⟨_, rfl⟩
    | _ => cases s <;> exact ⟨_, rfl⟩
  | zero s => cases v with
    | notANumber => cases hv
    | zero t => exact ⟨_, rfl⟩
    | infinity t | finite t => cases t <;> exact ⟨_, rfl⟩
  | finite s m q => cases v with
    | notANumber => cases hv
    | infinity t => cases t <;> exact ⟨_, rfl⟩
    | zero t => cases s <;> exact ⟨_, rfl⟩
    | finite t n r => cases s <;> cases t <;> exact ⟨_, rfl⟩

/-- No number is larger than itself. -/
theorem compare_self_eq {u : UnpackedFloat} (h : u.isNaN = false) : u.compare u = some .eq := by
  obtain ⟨o, ho⟩ := exists_compare_eq h h
  have hswap := compare_swap u u
  rw [ho] at hswap
  cases o <;> first | exact ho | cases hswap

/-- Values of which neither is larger are zeros, or the same. -/
theorem eq_or_zero_of_compare_eq {u v : UnpackedFloat} (h : u.compare v = some .eq) :
    (∃ s t, u = .zero s ∧ v = .zero t) ∨ u = v := by
  cases u with
  | notANumber => cases h
  | infinity s => cases v with
    | infinity t => cases s <;> cases t <;> first | exact .inr rfl | cases h
    | _ => cases s <;> cases h
  | zero s => cases v with
    | zero t => exact .inl ⟨s, t, rfl, rfl⟩
    | infinity t | finite t => cases t <;> cases h
    | notANumber => cases h
  | finite s m q => cases v with
    | infinity t => cases t <;> cases h
    | zero t => cases s <;> cases h
    | notANumber => cases h
    | finite t n r =>
        cases s <;> cases t <;> simp [UnpackedFloat.compare, Ordering.then_eq_eq] at h
        all_goals
          obtain ⟨rfl, rfl⟩ := h
          exact .inr rfl

/-- An infinity compares as equal with itself alone. -/
theorem compare_eq_iff_of_isInfinite {a b : Float} (ha : isInfinite a = true) :
    a.toModel.unpack.compare b.toModel.unpack = some .eq ↔ a = b := by
  have hu := unpack_of_isInfinite ha
  constructor
  · intro h
    obtain ⟨s, t, hs, -⟩ | heq := eq_or_zero_of_compare_eq h
    · rw [hu] at hs
      cases hs
    · obtain ⟨hb, hsign⟩ := unpack_eq_infinity_iff.1 (heq.symm.trans hu)
      simp only [isInfinite, isSpecial, Bool.and_eq_true, beq_iff_eq] at ha hb
      refine eq_of_fields ?_ (ha.1.trans hb.1.symm) (ha.2.trans hb.2.symm)
      rw [Bool.eq_iff_iff, isNegative_iff, isNegative_iff, hsign]
  · rintro rfl
    rw [hu]
    cases signOf a <;> rfl

/-! ### Differences -/

/-- Where neither of two values is larger, their difference is zero, but that of infinities is no
number. -/
theorem sub_of_compare_eq {u v : UnpackedFloat} (h : u.compare v = some .eq) :
    (∃ s, u = .infinity s ∧ UnpackedFloat.sub Format.binary64 u v = .notANumber) ∨
      (∀ s, u ≠ .infinity s) ∧ ∃ s, UnpackedFloat.sub Format.binary64 u v = .zero s := by
  rcases eq_or_zero_of_compare_eq h with ⟨s, t, rfl, rfl⟩ | rfl
  · exact .inr ⟨nofun, by cases s <;> cases t <;> exact ⟨_, rfl⟩⟩
  · cases u with
    | notANumber => cases h
    | infinity s => exact .inl ⟨s, rfl, by cases s <;> rfl⟩
    | zero s => exact .inr ⟨nofun, by cases s <;> exact ⟨_, rfl⟩⟩
    | finite s m q =>
        refine .inr ⟨nofun, .positive, ?_⟩
        simp [UnpackedFloat.sub, UnpackedFloat.normalize]

/-- Equality up to the tolerance goes by the difference. -/
theorem near_eq {a b : Float} {u : UnpackedFloat}
    (h : UnpackedFloat.sub Format.binary64 a.toModel.unpack b.toModel.unpack = u) :
    near a b = decide ((Float.ofModel (.pack u)).abs < tolerance) := by
  rw [← h]
  rfl

/-- **Values of which neither is larger are equal up to the tolerance**, unless they are
infinite. -/
theorem near_eq_of_compare_eq {a b : Float}
    (h : a.toModel.unpack.compare b.toModel.unpack = some .eq) : near a b = !isInfinite a := by
  rcases sub_of_compare_eq h with ⟨s, ha, hsub⟩ | ⟨ha, s, hsub⟩
  · rw [near_eq hsub, (unpack_eq_infinity_iff.1 ha).1]
    decide +kernel
  · have hfinite : isInfinite a = false :=
      Bool.eq_false_iff.2 fun hinfinite => ha _ (unpack_of_isInfinite hinfinite)
    rw [near_eq hsub, hfinite]
    cases s <;> decide +kernel

end Number

open Number (isInfinite isNaN_neg lt_iff_compare exists_compare_eq compare_swap compare_self_eq
  compare_eq_iff_of_isInfinite near_eq_of_compare_eq)

/-! ### Exactly one of three -/

/-- Whether of three truth values **exactly one** is one and the others are zero. -/
def ExactlyOne (x y z : Float) : Prop :=
  (x = 1.0 ∧ y = 0.0 ∧ z = 0.0) ∨ (x = 0.0 ∧ y = 1.0 ∧ z = 0.0) ∨ (x = 0.0 ∧ y = 0.0 ∧ z = 1.0)

instance (x y z : Float) : Decidable (ExactlyOne x y z) :=
  inferInstanceAs (Decidable (_ ∨ _ ∨ _))

/-- Where two conditions are only asked when a first one fails, exactly one holds if the first one
does, and else if the two differ. -/
theorem exactlyOne_truth_iff (x y z : Bool) :
    ExactlyOne (truth x) (truth (!x && y)) (truth (!x && z)) ↔ x = true ∨ y ≠ z := by
  cases x <;> cases y <;> cases z <;> decide +kernel

/-- **Exactly one comparison of two numbers holds**, unless an infinity is compared with itself. -/
theorem exactlyOne_value_iff (mode : Mode) {a b : Float} (ha : a.isNaN = false)
    (hb : b.isNaN = false) :
    ExactlyOne (BinaryOp.eq.value mode a b) (BinaryOp.gt.value mode a b)
      (BinaryOp.lt.value mode a b) ↔ ¬ (isInfinite a = true ∧ a = b) := by
  obtain ⟨o, ho⟩ : ∃ o, a.toModel.unpack.compare b.toModel.unpack = some o :=
    exists_compare_eq ha hb
  have hless : a < b ↔ o = .lt := by
    rw [lt_iff_compare, ho]
    simp
  have hgreater : b < a ↔ o = .gt := by
    rw [lt_iff_compare, compare_swap, ho]
    cases o <;> simp
  have hdiffer : decide (b < a) ≠ decide (a < b) ↔ o ≠ .eq := by
    simp only [hless, hgreater]
    cases o <;> decide
  show ExactlyOne (truth (near a b)) (truth (!near a b && decide (b < a)))
    (truth (!near a b && decide (a < b))) ↔ _
  rw [exactlyOne_truth_iff, hdiffer]
  by_cases heq : o = .eq
  · rw [heq] at ho
    rw [near_eq_of_compare_eq ho, heq]
    cases hinfinite : isInfinite a with
    | true => simp [(compare_eq_iff_of_isInfinite hinfinite).1 ho]
    | false => simp
  · refine iff_of_true (.inr heq) ?_
    rintro ⟨hinfinite, hsame⟩
    rw [(compare_eq_iff_of_isInfinite hinfinite).2 hsame] at ho
    exact heq (Option.some.inj ho).symm

/-- **A number equals itself** unless it is infinite, and it is neither greater nor less. -/
theorem value_self (mode : Mode) {a : Float} (ha : a.isNaN = false) :
    BinaryOp.eq.value mode a a = truth (!isInfinite a) ∧ BinaryOp.gt.value mode a a = 0.0 ∧
      BinaryOp.lt.value mode a a = 0.0 := by
  have hself : a.toModel.unpack.compare a.toModel.unpack = some .eq := compare_self_eq ha
  have hless : decide (a < a) = false := by
    rw [decide_eq_false_iff_not, lt_iff_compare, hself]
    decide
  have hvalue : truth (!near a a && decide (a < a)) = 0.0 := by
    rw [hless, Bool.and_false]
    rfl
  exact ⟨congrArg truth (near_eq_of_compare_eq hself), hvalue, hvalue⟩

/-- Of equality and inequality one holds, and the other does not. -/
theorem value_unequal (mode : Mode) (a b : Float) :
    (BinaryOp.ne.value mode a b = 1.0 ∧ BinaryOp.eq.value mode a b = 0.0) ∨
      (BinaryOp.ne.value mode a b = 0.0 ∧ BinaryOp.eq.value mode a b = 1.0) := by
  show (truth (!near a b) = 1.0 ∧ truth (near a b) = 0.0) ∨
    (truth (!near a b) = 0.0 ∧ truth (near a b) = 1.0)
  cases near a b with
  | false => exact .inl ⟨rfl, rfl⟩
  | true => exact .inr ⟨rfl, rfl⟩

/-! ### Comparing subformulas -/

/-- **One of three comparisons holds.** Let two subformulas have values that are numbers. Of their
comparisons `=`, `>` and `<` exactly one is one and the others are zero, unless their values are one
and the same infinity; `!=` is one where `=` is zero, and zero where it is one. In particular a
value equals itself unless it is infinite, and is neither greater nor less. -/
theorem Formula.run_comparisons {mode : Mode} {samples : Samples} {left right : Formula}
    {w u v : Workspace} {a b : Float} (hleft : left.run mode samples w = (.ok a, u))
    (hright : right.run mode samples u = (.ok b, v)) (ha : a.isNaN = false)
    (hb : b.isNaN = false) :
    ∃ equal unequal greater less,
      (binary .eq left right).run mode samples w = (.ok equal, v) ∧
      (binary .ne left right).run mode samples w = (.ok unequal, v) ∧
      (binary .gt left right).run mode samples w = (.ok greater, v) ∧
      (binary .lt left right).run mode samples w = (.ok less, v) ∧
      (ExactlyOne equal greater less ↔ ¬ (isInfinite a = true ∧ a = b)) ∧
      (unequal = 1.0 ∧ equal = 0.0 ∨ unequal = 0.0 ∧ equal = 1.0) ∧
      (a = b → equal = truth (!isInfinite a) ∧ greater = 0.0 ∧ less = 0.0) := by
  have hrun := run_binary hleft hright
  refine ⟨_, _, _, _, hrun .eq, hrun .ne, hrun .gt, hrun .lt, exactlyOne_value_iff mode ha hb,
    value_unequal mode a b, ?_⟩
  rintro rfl
  exact value_self mode ha

/-- The square of a variable. -/
def Formula.square : Formula :=
  .binary .mul (.var "x") (.var "x")

/-- A square that overflows is infinite. -/
theorem Formula.exists_run_square :
    ∃ a, isInfinite a = true ∧ a.isNaN = false ∧ a ≠ -a ∧ ∀ mode,
      square.run mode (fun _ => 0.5) { store := .overflowing } =
        (.ok a, { store := .overflowing }) := by
  have hvalue (mode : Mode) :
      BinaryOp.mul.value mode 1e200 1e200 = Float.ofBits 0x7FF0000000000000 := by
    cases mode <;> decide +kernel
  refine ⟨Float.ofBits 0x7FF0000000000000, by decide, by decide, by decide, fun mode => ?_⟩
  rw [← hvalue mode]
  rfl

/-- A square that overflows and its opposite: the two infinities compare like other numbers. -/
theorem Formula.run_comparisons_opposites :
    let w : Workspace := { store := .overflowing }
    let opposite := unary .negate square
    ∃ a, square.run .strict (fun _ => 0.5) w = (.ok a, w) ∧
      opposite.run .strict (fun _ => 0.5) w = (.ok (-a), w) ∧ a.isNaN = false ∧
      (-a).isNaN = false ∧ ∃ equal greater less,
        (binary .eq square opposite).run .strict (fun _ => 0.5) w = (.ok equal, w) ∧
        (binary .gt square opposite).run .strict (fun _ => 0.5) w = (.ok greater, w) ∧
        (binary .lt square opposite).run .strict (fun _ => 0.5) w = (.ok less, w) ∧
        ExactlyOne equal greater less := by
  intro w opposite
  obtain ⟨a, -, ha, hne, hrun⟩ := exists_run_square
  have hopposite : opposite.run .strict (fun _ => 0.5) w = (.ok (-a), w) := by
    rw [run, hrun]
    rfl
  obtain ⟨equal, -, greater, less, hequal, -, hgreater, hless, hone, -⟩ :=
    run_comparisons (hrun .strict) hopposite ha (isNaN_neg ha)
  exact ⟨a, hrun .strict, hopposite, ha, isNaN_neg ha, equal, greater, less, hequal, hgreater,
    hless, hone.2 fun h => hne h.2⟩

/-- **An infinity does not compare with itself.** A square that overflows is a number, but it is not
equal to itself, not greater, and not less, in neither mode. -/
theorem Formula.not_exactlyOne_square :
    let w : Workspace := { store := .overflowing }
    ∃ a, a.isNaN = false ∧ ∀ mode,
      square.run mode (fun _ => 0.5) w = (.ok a, w) ∧
      (binary .eq square square).run mode (fun _ => 0.5) w = (.ok 0.0, w) ∧
      (binary .gt square square).run mode (fun _ => 0.5) w = (.ok 0.0, w) ∧
      (binary .lt square square).run mode (fun _ => 0.5) w = (.ok 0.0, w) ∧
      ¬ ExactlyOne 0.0 0.0 0.0 := by
  intro w
  obtain ⟨a, hinfinite, ha, -, hrun⟩ := exists_run_square
  refine ⟨a, ha, fun mode => ?_⟩
  obtain ⟨hequal, hgreater, hless⟩ := value_self mode ha
  have hfalse : truth (!isInfinite a) = 0.0 := by
    rw [hinfinite]
    rfl
  have hcompare := run_binary (hrun mode) (hrun mode)
  refine ⟨hrun mode, ?_, ?_, ?_, by decide⟩
  · rw [hcompare, hequal, hfalse]
  · rw [hcompare, hgreater]
  · rw [hcompare, hless]

end Formulary
