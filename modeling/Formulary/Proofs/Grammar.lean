import Formulary.Token.Grammar
import Mathlib.Data.List.Forall2

/-!
# The Checker Accepts the Documented Grammar

The checker reads tokens from left to right with an explicit stack of open parentheses; the
grammar is documented as two mutually recursive productions. This module states the grammar as
the relation `Derives` and proves that the checker succeeds on exactly the sequences that it
derives, with exactly the prefix minuses marked.

## Conventions

`Derives c ts vs` carries two token sequences: `ts` is what the grammar derives, and `vs` is the
same sequence with every token that was derived as a prefix minus replaced by its mark
(`Token.negated`). Every other rule puts one and the same token into both. The rules are those
of the module doc of `Formulary.Token.Grammar`, one constructor for each alternative.

## Main results

* `Reading.step_iff`: the eleven transitions of the checker, each with the token it passes on.
* `Derives.check_append`: a derived sequence takes the checker from a value to an operator.
* `exists_derives_of_check`: what the checker reads is a derived formula and a remainder that
  starts with no operator.
* `validate_eq_ok_iff`: soundness and completeness packaged as an equivalence, with the length
  and the places of the marks, and a second check that changes nothing.
-/

namespace Formulary.Token

/-- A **category** of the documented grammar: a row of values with operators between them, or one
value. -/
inductive Category where
  | formula
  | value

/-- The **documented grammar**. `Derives c ts vs` says that `ts` derives from the category `c`,
and that `vs` is `ts` with each prefix minus marked. -/
inductive Derives : Category → List Token → List Token → Prop
  | operand {t : Token} (ht : t.kind = .operand) : Derives .value [t] [t]
  | group {o c : Token} {ts vs : List Token} (ho : o.isOpening = true) (hc : c.isClosing = true) :
      Derives .formula ts vs → Derives .value (o :: (ts ++ [c])) (o :: (vs ++ [c]))
  | minus {t : Token} {ts vs : List Token} (ht : t.isMinus = true) :
      Derives .value ts vs → Derives .value (t :: ts) (t.negated :: vs)
  | call {f o c : Token} {ts vs : List Token} (hf : f.kind = .function)
      (ha : f.isAggregate = false) (ho : o.isOpening = true) (hc : c.isClosing = true) :
      Derives .formula ts vs →
      Derives .value (f :: o :: (ts ++ [c])) (f :: o :: (vs ++ [c]))
  | aggregate {f o i s₁ s₂ c : Token} {ls lv bs bv : List Token} (hf : f.isAggregate = true)
      (ho : o.isOpening = true) (hi : i.kind = .operand) (h₁ : s₁.isComma = true)
      (h₂ : s₂.isComma = true) (hc : c.isClosing = true) :
      Derives .formula ls lv →
      Derives .formula bs bv →
      Derives .value (f :: o :: i :: s₁ :: (ls ++ s₂ :: (bs ++ [c])))
        (f :: o :: i :: s₁ :: (lv ++ s₂ :: (bv ++ [c])))
  | single {ts vs : List Token} : Derives .value ts vs → Derives .formula ts vs
  | chain {op : Token} {ls lv rs rv : List Token} (hop : op.kind.isBinary = true) :
      Derives .formula ls lv →
      Derives .value rs rv →
      Derives .formula (ls ++ op :: rs) (lv ++ op :: rv)

/-! ### Marks -/

/-- A marked minus still stands for a minus. -/
@[simp] theorem isMinus_negated (t : Token) : t.negated.isMinus = true :=
  rfl

/-- Marking a minus twice is marking it once. -/
@[simp] theorem negated_negated (t : Token) : t.negated.negated = t.negated :=
  rfl

/-- How a token leaves the checker: as it is, or as the mark of a minus. -/
def Marked (t v : Token) : Prop :=
  v = t ∨ (t.isMinus = true ∧ v = t.negated)

/-- A token that is passed on as it is. -/
theorem Marked.refl (t : Token) : Marked t t :=
  .inl rfl

/-- The marked sequence agrees with the derived one token by token, the marks apart. -/
theorem Derives.forall₂_marked {c : Category} {ts vs : List Token} (h : Derives c ts vs) :
    List.Forall₂ Marked ts vs := by
  induction h with
  | operand => exact .cons (.refl _) .nil
  | group _ _ _ ih =>
      exact .cons (.refl _) (List.rel_append ih (.cons (.refl _) .nil))
  | minus ht _ ih => exact .cons (.inr ⟨ht, rfl⟩) ih
  | call _ _ _ _ _ ih =>
      exact .cons (.refl _) (.cons (.refl _) (List.rel_append ih (.cons (.refl _) .nil)))
  | aggregate _ _ _ _ _ _ _ _ ihl ihb =>
      refine .cons (.refl _) (.cons (.refl _) (.cons (.refl _) (.cons (.refl _) ?_)))
      refine List.rel_append ihl (.cons (.refl _) ?_)
      exact List.rel_append ihb (.cons (.refl _) .nil)
  | single _ ih => exact ih
  | chain _ _ _ ihl ihr => exact List.rel_append ihl (.cons (.refl _) ihr)

/-- Marking keeps the number of tokens. -/
theorem Derives.length_eq {c : Category} {ts vs : List Token} (h : Derives c ts vs) :
    vs.length = ts.length :=
  h.forall₂_marked.length_eq.symm

/-- The marked sequence derives in the same way, and its marks stay as they are. -/
theorem Derives.marked {c : Category} {ts vs : List Token} (h : Derives c ts vs) :
    Derives c vs vs := by
  induction h with
  | operand ht => exact .operand ht
  | group ho hc _ ih => exact .group ho hc ih
  | @minus t _ _ _ _ ih =>
      have := Derives.minus (isMinus_negated t) ih
      rwa [negated_negated] at this
  | call hf ha ho hc _ ih => exact .call hf ha ho hc ih
  | aggregate hf ho hi h₁ h₂ hc _ _ ihl ihb => exact .aggregate hf ho hi h₁ h₂ hc ihl ihb
  | single _ ih => exact .single ih
  | chain hop _ _ ihl ihr => exact .chain hop ihl ihr

/-- Two formulas with an operator between them are a formula. -/
theorem Derives.append {op : Token} {ls lv rs rv : List Token} (hop : op.kind.isBinary = true)
    (hl : Derives .formula ls lv) (hr : Derives .formula rs rv) :
    Derives .formula (ls ++ op :: rs) (lv ++ op :: rv) := by
  generalize hc : Category.formula = c at hr
  induction hr with
  | operand => cases hc
  | group => cases hc
  | minus => cases hc
  | call => cases hc
  | aggregate => cases hc
  | single hv => exact .chain hop hl hv
  | chain hop' _ hr ihl =>
      have := Derives.chain hop' (ihl hc) hr
      simpa only [List.append_assoc, List.cons_append] using this

/-! ### The transitions of the checker -/

/-- A **transition** of the checker: `Step r t next v` says that the token `t` takes the reading
`r` to `next` and leaves the checker as `v`. -/
inductive Reading.Step : Reading → Token → Reading → Token → Prop
  | operand {t : Token} {stack : List Awaiting} (h : t.kind = .operand) :
      Step ⟨.value, stack⟩ t ⟨.operator, stack⟩ t
  | function {t : Token} {stack : List Awaiting} (h : t.kind = .function) :
      Step ⟨.value, stack⟩ t ⟨.opening t.isAggregate, stack⟩ t
  | group {t : Token} {stack : List Awaiting} (h : t.isOpening = true) :
      Step ⟨.value, stack⟩ t ⟨.value, .closing :: stack⟩ t
  | minus {t : Token} {stack : List Awaiting} (h : t.isMinus = true) :
      Step ⟨.value, stack⟩ t ⟨.value, stack⟩ t.negated
  | argument {t : Token} {stack : List Awaiting} (h : t.isOpening = true) :
      Step ⟨.opening false, stack⟩ t ⟨.value, .closing :: stack⟩ t
  | counting {t : Token} {stack : List Awaiting} (h : t.isOpening = true) :
      Step ⟨.opening true, stack⟩ t ⟨.counter, stack⟩ t
  | counter {t : Token} {stack : List Awaiting} (h : t.kind = .operand) :
      Step ⟨.counter, stack⟩ t ⟨.counterComma, stack⟩ t
  | limit {t : Token} {stack : List Awaiting} (h : t.isComma = true) :
      Step ⟨.counterComma, stack⟩ t ⟨.value, .comma :: stack⟩ t
  | operator {t : Token} {stack : List Awaiting} (h : t.kind.isBinary = true) :
      Step ⟨.operator, stack⟩ t ⟨.value, stack⟩ t
  | closing {t : Token} {stack : List Awaiting} (h : t.isClosing = true) :
      Step ⟨.operator, .closing :: stack⟩ t ⟨.operator, stack⟩ t
  | body {t : Token} {stack : List Awaiting} (h : t.isComma = true) :
      Step ⟨.operator, .comma :: stack⟩ t ⟨.value, .closing :: stack⟩ t

/-- The kind of an opening parenthesis. -/
theorem kind_of_isOpening {t : Token} (h : t.isOpening = true) : t.kind = .structural := by
  simp only [isOpening, Bool.and_eq_true, beq_iff_eq] at h
  exact h.1

/-- The kind of a closing parenthesis. -/
theorem kind_of_isClosing {t : Token} (h : t.isClosing = true) : t.kind = .structural := by
  simp only [isClosing, Bool.and_eq_true, beq_iff_eq] at h
  exact h.1

/-- The kind of a comma. -/
theorem kind_of_isComma {t : Token} (h : t.isComma = true) : t.kind = .structural := by
  simp only [isComma, Bool.and_eq_true, beq_iff_eq] at h
  exact h.1

/-- A function that counts is a function. -/
theorem kind_of_isAggregate {t : Token} (h : t.isAggregate = true) : t.kind = .function := by
  simp only [isAggregate, Bool.and_eq_true, beq_iff_eq] at h
  exact h.1

/-- The kinds of a minus. -/
theorem kind_of_isMinus {t : Token} (h : t.isMinus = true) :
    t.kind = .additive ∨ t.kind = .negation := by
  simp only [isMinus, Bool.or_eq_true, Bool.and_eq_true, beq_iff_eq] at h
  exact h.imp_left And.left

/-- A token whose kind is no minus is not marked. -/
theorem Reading.mark_eq_self {r : Reading} {t : Token} (ha : t.kind ≠ .additive)
    (hn : t.kind ≠ .negation) : r.mark t = t := by
  rw [Reading.mark, if_neg]
  rintro ⟨-, h⟩
  exact (kind_of_isMinus h).elim ha hn

/-- Away from a value nothing is marked. -/
theorem Reading.mark_eq_self_of_ne {r : Reading} {t : Token} (h : r.expecting ≠ .value) :
    r.mark t = t := by
  rw [Reading.mark, if_neg]
  exact fun hv => h hv.1

/-- Every transition is one of the checker. -/
theorem Reading.Step.step_eq {r next : Reading} {t v : Token} (h : Step r t next v) :
    r.step t = .ok next ∧ v = r.mark t := by
  cases h with
  | operand h =>
      refine ⟨by simp [step, stepValue, h], (mark_eq_self ?_ ?_).symm⟩ <;> simp [h]
  | function h =>
      refine ⟨by simp [step, stepValue, h], (mark_eq_self ?_ ?_).symm⟩ <;> simp [h]
  | group h =>
      have hk := kind_of_isOpening h
      refine ⟨by simp [step, stepValue, h, hk], (mark_eq_self ?_ ?_).symm⟩ <;> simp [hk]
  | minus h =>
      refine ⟨?_, by simp [mark, h]⟩
      rcases kind_of_isMinus h with hk | hk <;>
        simp [step, stepValue, h, hk, isOpening]
  | argument h => exact ⟨by simp [step, h], (mark_eq_self_of_ne (by simp)).symm⟩
  | counting h => exact ⟨by simp [step, h], (mark_eq_self_of_ne (by simp)).symm⟩
  | counter h => exact ⟨by simp [step, h], (mark_eq_self_of_ne (by simp)).symm⟩
  | limit h => exact ⟨by simp [step, h], (mark_eq_self_of_ne (by simp)).symm⟩
  | operator h =>
      exact ⟨by simp [step, stepOperator, h], (mark_eq_self_of_ne (by simp)).symm⟩
  | closing h =>
      have hb : t.kind.isBinary = false := by rw [kind_of_isClosing h]; rfl
      exact ⟨by simp [step, stepOperator, h, hb], (mark_eq_self_of_ne (by simp)).symm⟩
  | body h =>
      have hb : t.kind.isBinary = false := by rw [kind_of_isComma h]; rfl
      exact ⟨by simp [step, stepOperator, h, hb], (mark_eq_self_of_ne (by simp)).symm⟩

/-- Every success of the checker is one of the transitions. -/
theorem Reading.Step.of_step {r next : Reading} {t : Token} (h : r.step t = .ok next) :
    Step r t next (r.mark t) := by
  obtain ⟨expecting, stack⟩ := r
  have hmark {next : Reading} {v : Token} (hs : Step ⟨expecting, stack⟩ t next v) :
      Step ⟨expecting, stack⟩ t next (Reading.mark ⟨expecting, stack⟩ t) :=
    hs.step_eq.2 ▸ hs
  cases expecting with
  | value =>
      simp only [step, stepValue] at h
      split at h
      · cases h; exact hmark (.operand ‹_›)
      split at h
      · cases h; exact hmark (.function ‹_›)
      split at h
      · cases h; exact hmark (.group ‹_›)
      split at h
      · cases h; exact hmark (.minus ‹_›)
      · cases h
  | opening aggregate =>
      simp only [step] at h
      split at h
      · cases aggregate <;> cases h
        · exact hmark (.argument ‹_›)
        · exact hmark (.counting ‹_›)
      · cases h
  | counter =>
      simp only [step] at h
      split at h
      · cases h; exact hmark (.counter ‹_›)
      · cases h
  | counterComma =>
      simp only [step] at h
      split at h
      · cases h; exact hmark (.limit ‹_›)
      · cases h
  | operator =>
      simp only [step, stepOperator] at h
      split at h
      · cases h; exact hmark (.operator ‹_›)
      rcases stack with - | ⟨_ | _, outer⟩
      · cases h
      · simp only at h
        split at h
        · cases h; exact hmark (.closing ‹_›)
        · cases h
      · simp only at h
        split at h
        · cases h; exact hmark (.body ‹_›)
        · cases h

/-- The transitions are exactly the successes of the checker on one token. -/
theorem Reading.step_iff {r next : Reading} {t v : Token} :
    Step r t next v ↔ r.step t = .ok next ∧ v = r.mark t :=
  ⟨Step.step_eq, fun ⟨h, e⟩ => e ▸ .of_step h⟩

/-- **What a token is refused for.** It is unexpected, or a parenthesis is not closed by it; only an
end mark makes an early end. -/
theorem Reading.fault_of_step {r : Reading} {t : Token} {fault : Fault}
    (h : r.step t = .error fault) :
    (∃ wanted, fault = .unexpectedToken t.text wanted t.column) ∨
      fault = .unevenParentheses t.column ∨
      (t.kind = .finish ∧ ∃ wanted, fault = .unexpectedEnd wanted) := by
  have hmismatch {wanted : Wanted} (h : mismatch t wanted = fault) :
      (∃ wanted, fault = .unexpectedToken t.text wanted t.column) ∨
        fault = .unevenParentheses t.column ∨
        (t.kind = .finish ∧ ∃ wanted, fault = .unexpectedEnd wanted) := by
    rw [mismatch] at h
    split at h
    · exact .inr (.inr ⟨‹_›, wanted, h.symm⟩)
    · exact .inl ⟨some wanted, h.symm⟩
  obtain ⟨expecting, stack⟩ := r
  cases expecting with
  | value =>
      simp only [step, stepValue] at h
      split at h
      · cases h
      split at h
      · cases h
      split at h
      · cases h
      split at h
      · cases h
      · exact .inl ⟨some .operand, (Except.error.inj h).symm⟩
  | opening aggregate =>
      simp only [step] at h
      split at h
      · cases h
      · exact hmismatch (Except.error.inj h)
  | counter =>
      simp only [step] at h
      split at h
      · cases h
      · exact .inl ⟨some .counter, (Except.error.inj h).symm⟩
  | counterComma =>
      simp only [step] at h
      split at h
      · cases h
      · exact hmismatch (Except.error.inj h)
  | operator =>
      simp only [step, stepOperator] at h
      split at h
      · cases h
      rcases stack with - | ⟨_ | _, outer⟩
      · exact .inl ⟨none, (Except.error.inj h).symm⟩
      · simp only at h
        split at h
        · cases h
        · exact .inr (.inl (Except.error.inj h).symm)
      · simp only at h
        split at h
        · cases h
        · exact hmismatch (Except.error.inj h)

/-- No transition is made by an end mark. -/
theorem Reading.Step.kind_ne_finish {r next : Reading} {t v : Token} (h : Step r t next v) :
    t.kind ≠ .finish := by
  cases h with
  | operand h => simp [h]
  | function h => simp [h]
  | group h => simp [kind_of_isOpening h]
  | minus h => rcases kind_of_isMinus h with hk | hk <;> simp [hk]
  | argument h => simp [kind_of_isOpening h]
  | counting h => simp [kind_of_isOpening h]
  | counter h => simp [h]
  | limit h => simp [kind_of_isComma h]
  | operator h => rintro hk; rw [hk] at h; cases h
  | closing h => simp [kind_of_isClosing h]
  | body h => simp [kind_of_isComma h]

/-- A token that is no end mark does not end the formula. -/
theorem Reading.endsWith_eq_false {r : Reading} {t : Token} (h : t.kind ≠ .finish) :
    r.endsWith t = false := by
  simp [endsWith, h]

/-- A transition is the first step of a check. -/
theorem Reading.Step.check_cons {r next : Reading} {t v : Token} (h : Step r t next v)
    (rest : List Token) : check r (t :: rest) = (check next rest).map (v :: ·) := by
  obtain ⟨hs, rfl⟩ := h.step_eq
  exact Token.check_cons (endsWith_eq_false h.kind_ne_finish) hs

/-- What a successful check of a first token leaves: a transition and a successful check. -/
theorem Reading.exists_step_of_check {r : Reading} {t : Token} {rest vs : List Token}
    (ht : t.kind ≠ .finish) (h : check r (t :: rest) = .ok vs) :
    ∃ next v ws, Step r t next v ∧ check next rest = .ok ws ∧ vs = v :: ws := by
  cases hs : r.step t with
  | error fault =>
      rw [check, if_neg (by simp [endsWith_eq_false ht]), hs] at h
      cases h
  | ok next =>
      rw [(Step.of_step hs).check_cons] at h
      cases hc : check next rest with
      | error fault => rw [hc] at h; cases h
      | ok ws =>
          rw [hc] at h
          cases h
          exact ⟨next, r.mark t, ws, .of_step hs, hc, rfl⟩

/-! ### Completeness -/

/-- **Completeness.** In front of any remainder, a derived sequence takes the checker from where
a value is expected to where an operator is, under the same open parentheses, and leaves it
marked. -/
theorem Derives.check_append {c : Category} {ts vs : List Token} (h : Derives c ts vs) :
    ∀ (stack : List Awaiting) (rest : List Token),
      check ⟨.value, stack⟩ (ts ++ rest) =
        (check ⟨.operator, stack⟩ rest).map (vs ++ ·) := by
  induction h with
  | operand ht =>
      intro stack rest
      exact (Reading.Step.operand ht).check_cons rest
  | group ho hc _ ih =>
      intro stack rest
      simp only [List.cons_append, List.append_assoc, List.nil_append]
      rw [(Reading.Step.group ho).check_cons, ih, (Reading.Step.closing hc).check_cons,
        Fault.map_map, Fault.map_map]
  | minus ht _ ih =>
      intro stack rest
      rw [List.cons_append, (Reading.Step.minus ht).check_cons, ih, Fault.map_map]
      rfl
  | call hf ha ho hc _ ih =>
      intro stack rest
      have hopen : Reading.Step ⟨.value, stack⟩ _ ⟨.opening _, stack⟩ _ := .function hf
      rw [ha] at hopen
      simp only [List.cons_append, List.append_assoc, List.nil_append]
      rw [hopen.check_cons, (Reading.Step.argument ho).check_cons, ih,
        (Reading.Step.closing hc).check_cons, Fault.map_map, Fault.map_map, Fault.map_map]
  | aggregate hf ho hi h₁ h₂ hc _ _ ihl ihb =>
      intro stack rest
      have hopen : Reading.Step ⟨.value, stack⟩ _ ⟨.opening _, stack⟩ _ :=
        .function (kind_of_isAggregate hf)
      rw [hf] at hopen
      simp only [List.cons_append, List.append_assoc, List.nil_append]
      rw [hopen.check_cons, (Reading.Step.counting ho).check_cons,
        (Reading.Step.counter hi).check_cons, (Reading.Step.limit h₁).check_cons, ihl,
        (Reading.Step.body h₂).check_cons, ihb, (Reading.Step.closing hc).check_cons]
      simp only [Fault.map_map]
  | single _ ih => exact ih
  | chain hop _ _ ihl ihr =>
      intro stack rest
      simp only [List.cons_append, List.append_assoc]
      rw [ihl, (Reading.Step.operator hop).check_cons, ihr, Fault.map_map, Fault.map_map]

/-- A derived formula is accepted, with its minuses marked. -/
theorem Derives.validate_eq {ts vs : List Token} (h : Derives .formula ts vs) :
    validate ts = .ok vs := by
  have := h.check_append [] []
  rw [List.append_nil] at this
  rw [validate, Reading.initial, this]
  simp [check, Reading.endFault?, Except.map]

/-! ### Soundness -/

/-- What the checker reads as one value: a derived value, and a remainder that it accepts where an
operator is expected. -/
def ReadsValue (stack : List Awaiting) (ts vs : List Token) : Prop :=
  ∃ ts₁ ts₂ vs₁ vs₂, ts = ts₁ ++ ts₂ ∧ vs = vs₁ ++ vs₂ ∧ Derives .value ts₁ vs₁ ∧
    check ⟨.operator, stack⟩ ts₂ = .ok vs₂

/-- What the checker reads as one formula: a derived formula, and a remainder that it accepts
where an operator is expected, although it starts with none. -/
def ReadsFormula (stack : List Awaiting) (ts vs : List Token) : Prop :=
  ∃ ts₁ ts₂ vs₁ vs₂, ts = ts₁ ++ ts₂ ∧ vs = vs₁ ++ vs₂ ∧ Derives .formula ts₁ vs₁ ∧
    check ⟨.operator, stack⟩ ts₂ = .ok vs₂ ∧ ∀ t ∈ ts₂.head?, t.kind.isBinary = false

/-- Whether no token is an end mark. -/
def WithoutEnd (ts : List Token) : Prop :=
  ∀ t ∈ ts, t.kind ≠ .finish

/-- The tokens behind the first one. -/
theorem WithoutEnd.tail {t : Token} {ts : List Token} (h : WithoutEnd (t :: ts)) : WithoutEnd ts :=
  fun x hx => h x (List.mem_cons_of_mem t hx)

/-- The tokens behind a first part. -/
theorem WithoutEnd.of_append_right {ts₁ ts₂ : List Token} (h : WithoutEnd (ts₁ ++ ts₂)) :
    WithoutEnd ts₂ :=
  fun x hx => h x (List.mem_append_right ts₁ hx)

/-- What the checker accepts behind a complete formula in parentheses: the closing parenthesis
and a remainder. -/
theorem exists_closing_of_check {stack : List Awaiting} {ts vs : List Token} (hts : WithoutEnd ts)
    (h : check ⟨.operator, .closing :: stack⟩ ts = .ok vs)
    (hhead : ∀ t ∈ ts.head?, t.kind.isBinary = false) :
    ∃ c rest ws, ts = c :: rest ∧ vs = c :: ws ∧ c.isClosing = true ∧
      check ⟨.operator, stack⟩ rest = .ok ws := by
  rcases ts with - | ⟨c, rest⟩
  · cases h
  obtain ⟨next, v, ws, hs, hc, rfl⟩ := Reading.exists_step_of_check (hts c List.mem_cons_self) h
  cases hs with
  | operator hop => rw [hhead c rfl] at hop; cases hop
  | closing hcl => exact ⟨c, rest, ws, rfl, rfl, hcl, hc⟩

/-- What the checker accepts behind the complete limit of an aggregate: a comma, and a remainder
that starts with the body. -/
theorem exists_comma_of_check {stack : List Awaiting} {ts vs : List Token} (hts : WithoutEnd ts)
    (h : check ⟨.operator, .comma :: stack⟩ ts = .ok vs)
    (hhead : ∀ t ∈ ts.head?, t.kind.isBinary = false) :
    ∃ s rest ws, ts = s :: rest ∧ vs = s :: ws ∧ s.isComma = true ∧
      check ⟨.value, .closing :: stack⟩ rest = .ok ws := by
  rcases ts with - | ⟨s, rest⟩
  · cases h
  obtain ⟨next, v, ws, hs, hc, rfl⟩ := Reading.exists_step_of_check (hts s List.mem_cons_self) h
  cases hs with
  | operator hop => rw [hhead s rfl] at hop; cases hop
  | body hcomma => exact ⟨s, rest, ws, rfl, rfl, hcomma, hc⟩

/-- What the checker accepts behind a function: an opening parenthesis, and a remainder that
starts with the argument or with the counter. -/
theorem exists_opening_of_check {aggregate : Bool} {stack : List Awaiting} {ts vs : List Token}
    (hts : WithoutEnd ts) (h : check ⟨.opening aggregate, stack⟩ ts = .ok vs) :
    ∃ o rest ws, ts = o :: rest ∧ vs = o :: ws ∧ o.isOpening = true ∧
      check (if aggregate then ⟨.counter, stack⟩ else ⟨.value, .closing :: stack⟩) rest =
        .ok ws := by
  rcases ts with - | ⟨o, rest⟩
  · cases h
  obtain ⟨next, v, ws, hs, hc, rfl⟩ := Reading.exists_step_of_check (hts o List.mem_cons_self) h
  cases hs with
  | argument ho => exact ⟨o, rest, ws, rfl, rfl, ho, hc⟩
  | counting ho => exact ⟨o, rest, ws, rfl, rfl, ho, hc⟩

/-- What the checker accepts where a counter is expected: an operand, a comma, and a remainder
that starts with the limit. -/
theorem exists_counter_of_check {stack : List Awaiting} {ts vs : List Token} (hts : WithoutEnd ts)
    (h : check ⟨.counter, stack⟩ ts = .ok vs) :
    ∃ i s rest ws, ts = i :: s :: rest ∧ vs = i :: s :: ws ∧ i.kind = .operand ∧
      s.isComma = true ∧ check ⟨.value, .comma :: stack⟩ rest = .ok ws := by
  rcases ts with - | ⟨i, ts⟩
  · cases h
  obtain ⟨next, v, ws, hs, hc, rfl⟩ := Reading.exists_step_of_check (hts i List.mem_cons_self) h
  cases hs with
  | counter hi =>
      rcases ts with - | ⟨s, rest⟩
      · cases hc
      obtain ⟨next, v, ws, hs, hrest, rfl⟩ :=
        Reading.exists_step_of_check (hts.tail s List.mem_cons_self) hc
      cases hs with
      | limit hcomma => exact ⟨i, s, rest, ws, rfl, rfl, hi, hcomma, hrest⟩

/-- A formula in parentheses is read with its closing parenthesis. -/
theorem ReadsFormula.exists_closing {stack : List Awaiting} {ts vs : List Token}
    (hts : WithoutEnd ts) (h : ReadsFormula (.closing :: stack) ts vs) :
    ∃ ts₁ c rest vs₁ ws, ts = ts₁ ++ c :: rest ∧ vs = vs₁ ++ c :: ws ∧
      Derives .formula ts₁ vs₁ ∧ c.isClosing = true ∧
      check ⟨.operator, stack⟩ rest = .ok ws := by
  obtain ⟨ts₁, ts₂, vs₁, vs₂, rfl, rfl, hd, hc, hhead⟩ := h
  obtain ⟨c, rest, ws, rfl, rfl, hcl, hc⟩ := exists_closing_of_check hts.of_append_right hc hhead
  exact ⟨ts₁, c, rest, vs₁, ws, rfl, rfl, hd, hcl, hc⟩

/-- The limit of an aggregate is read with the comma behind it. -/
theorem ReadsFormula.exists_comma {stack : List Awaiting} {ts vs : List Token}
    (hts : WithoutEnd ts) (h : ReadsFormula (.comma :: stack) ts vs) :
    ∃ ts₁ s rest vs₁ ws, ts = ts₁ ++ s :: rest ∧ vs = vs₁ ++ s :: ws ∧
      Derives .formula ts₁ vs₁ ∧ s.isComma = true ∧
      check ⟨.value, .closing :: stack⟩ rest = .ok ws := by
  obtain ⟨ts₁, ts₂, vs₁, vs₂, rfl, rfl, hd, hc, hhead⟩ := h
  obtain ⟨s, rest, ws, rfl, rfl, hcomma, hc⟩ :=
    exists_comma_of_check hts.of_append_right hc hhead
  exact ⟨ts₁, s, rest, vs₁, ws, rfl, rfl, hd, hcomma, hc⟩

/-- Whether all sequences below a length are read as formulas wherever they are accepted. -/
def ReadsBelow (n : ℕ) : Prop :=
  ∀ ts : List Token, ts.length < n → WithoutEnd ts → ∀ stack vs,
    check ⟨.value, stack⟩ ts = .ok vs → ReadsFormula stack ts vs

/-- A function that does not count is read with its argument. -/
theorem readsValue_call {f : Token} {stack : List Awaiting} {ts vs : List Token}
    (ih : ReadsBelow ts.length) (hf : f.kind = .function) (ha : f.isAggregate = false)
    (hts : WithoutEnd ts) (h : check ⟨.opening false, stack⟩ ts = .ok vs) :
    ReadsValue stack (f :: ts) (f :: vs) := by
  obtain ⟨o, rest, ws, rfl, rfl, ho, hc⟩ := exists_opening_of_check hts h
  have hread := ih rest (by simp) hts.tail _ _ hc
  obtain ⟨ts₁, c, rest, vs₁, ws, rfl, rfl, hd, hcl, hc⟩ := hread.exists_closing hts.tail
  exact ⟨f :: o :: (ts₁ ++ [c]), rest, f :: o :: (vs₁ ++ [c]), ws, by simp, by simp,
    .call hf ha ho hcl hd, hc⟩

/-- A function that counts is read with its counter, its limit and its body. -/
theorem readsValue_aggregate {f : Token} {stack : List Awaiting} {ts vs : List Token}
    (ih : ReadsBelow ts.length) (hf : f.isAggregate = true) (hts : WithoutEnd ts)
    (h : check ⟨.opening true, stack⟩ ts = .ok vs) :
    ReadsValue stack (f :: ts) (f :: vs) := by
  obtain ⟨o, rest, ws, rfl, rfl, ho, hc⟩ := exists_opening_of_check hts h
  obtain ⟨i, s₁, rest, ws, rfl, rfl, hi, h₁, hc⟩ := exists_counter_of_check hts.tail hc
  have hlimit := ih rest (by simp; omega) hts.tail.tail.tail _ _ hc
  obtain ⟨ls, s₂, rest, lv, ws, rfl, rfl, hl, h₂, hc⟩ :=
    hlimit.exists_comma hts.tail.tail.tail
  have hrest : WithoutEnd rest := hts.tail.tail.tail.of_append_right.tail
  have hbody := ih rest (by simp; omega) hrest _ _ hc
  obtain ⟨bs, c, rest, bv, ws, rfl, rfl, hb, hcl, hc⟩ := hbody.exists_closing hrest
  exact ⟨f :: o :: i :: s₁ :: (ls ++ s₂ :: (bs ++ [c])), rest,
    f :: o :: i :: s₁ :: (lv ++ s₂ :: (bv ++ [c])), ws, by simp, by simp,
    .aggregate hf ho hi h₁ h₂ hcl hl hb, hc⟩

/-- A row of values is read to its end: behind a value stands an operator with a formula, or
nothing that continues the formula. -/
theorem ReadsValue.readsFormula {stack : List Awaiting} {ts vs : List Token}
    (ih : ReadsBelow ts.length) (hts : WithoutEnd ts) (h : ReadsValue stack ts vs) :
    ReadsFormula stack ts vs := by
  obtain ⟨ts₁, ts₂, vs₁, vs₂, rfl, rfl, hd, hc⟩ := h
  by_cases hhead : ∀ t ∈ ts₂.head?, t.kind.isBinary = false
  · exact ⟨ts₁, ts₂, vs₁, vs₂, rfl, rfl, .single hd, hc, hhead⟩
  rcases ts₂ with - | ⟨op, rest⟩
  · exact absurd (by simp) hhead
  have hop : op.kind.isBinary = true := by simpa using hhead
  have hrest : WithoutEnd (op :: rest) := hts.of_append_right
  obtain ⟨next, v, ws, hs, hcheck, rfl⟩ :=
    Reading.exists_step_of_check (hrest op List.mem_cons_self) hc
  cases hs with
  | operator =>
      obtain ⟨rs, ts₃, rv, vs₃, rfl, rfl, hr, hc₃, hhead₃⟩ :=
        ih rest (by simp; omega) hrest.tail _ _ hcheck
      exact ⟨ts₁ ++ op :: rs, ts₃, vs₁ ++ op :: rv, vs₃, by simp, by simp,
        Derives.append hop (.single hd) hr, hc₃, hhead₃⟩
  | closing hcl => rw [kind_of_isClosing hcl] at hop; cases hop
  | body hcomma => rw [kind_of_isComma hcomma] at hop; cases hop

/-- **Soundness, one value.** Where a value is expected, an accepted sequence starts with one. -/
theorem readsValue_of_check {ts : List Token} (hts : WithoutEnd ts) (ih : ReadsBelow ts.length) :
    ∀ stack vs, check ⟨.value, stack⟩ ts = .ok vs → ReadsValue stack ts vs := by
  induction ts with
  | nil => intro stack vs h; cases h
  | cons t rest ihrest =>
      intro stack vs h
      have hbelow : ReadsBelow rest.length :=
        fun ts' hlt => ih ts' (by simp; omega)
      obtain ⟨next, v, ws, hs, hc, rfl⟩ :=
        Reading.exists_step_of_check (hts t List.mem_cons_self) h
      cases hs with
      | operand ht => exact ⟨[t], rest, [t], ws, rfl, rfl, .operand ht, hc⟩
      | function hf =>
          cases ha : t.isAggregate with
          | false => rw [ha] at hc; exact readsValue_call hbelow hf ha hts.tail hc
          | true => rw [ha] at hc; exact readsValue_aggregate hbelow ha hts.tail hc
      | group ho =>
          have hread := ih rest (by simp) hts.tail _ _ hc
          obtain ⟨ts₁, c, rest, vs₁, ws, rfl, rfl, hd, hcl, hc⟩ := hread.exists_closing hts.tail
          exact ⟨t :: (ts₁ ++ [c]), rest, t :: (vs₁ ++ [c]), ws, by simp, by simp,
            .group ho hcl hd, hc⟩
      | minus ht =>
          obtain ⟨ts₁, ts₂, vs₁, vs₂, rfl, rfl, hd, hc⟩ := ihrest hts.tail hbelow _ _ hc
          exact ⟨t :: ts₁, ts₂, t.negated :: vs₁, vs₂, rfl, rfl, .minus ht hd, hc⟩

/-- All sequences are read as formulas wherever they are accepted. -/
theorem readsBelow (n : ℕ) : ReadsBelow n := by
  induction n with
  | zero => intro ts hlt; exact absurd hlt (Nat.not_lt_zero _)
  | succ n ih =>
      intro ts hlt hts stack vs h
      have hbelow : ReadsBelow ts.length :=
        fun ts' hlt' => ih ts' (by omega)
      exact (readsValue_of_check hts hbelow stack vs h).readsFormula hbelow hts

/-- **Soundness.** Where a value is expected, an accepted sequence starts with a derived formula,
and what follows it starts with no operator. -/
theorem exists_derives_of_check {stack : List Awaiting} {ts vs : List Token} (hts : WithoutEnd ts)
    (h : check ⟨.value, stack⟩ ts = .ok vs) : ReadsFormula stack ts vs :=
  readsBelow (ts.length + 1) ts (Nat.lt_succ_self _) hts stack vs h

/-- An accepted sequence is a derived formula. -/
theorem derives_of_validate {ts vs : List Token} (hts : WithoutEnd ts) (h : validate ts = .ok vs) :
    Derives .formula ts vs := by
  obtain ⟨ts₁, ts₂, vs₁, vs₂, rfl, rfl, hd, hc, hhead⟩ := exists_derives_of_check hts h
  rcases ts₂ with - | ⟨t, rest⟩
  · cases hc
    simpa using hd
  obtain ⟨next, v, ws, hs, -, -⟩ :=
    Reading.exists_step_of_check (hts.of_append_right t List.mem_cons_self) hc
  cases hs with
  | operator hop => rw [hhead t rfl] at hop; cases hop

/-! ### The equivalence -/

/-- **The checker accepts exactly the documented grammar.** Without end marks, it succeeds with a
sequence exactly when the grammar derives that marking. The marked sequence has as many tokens,
each of them as it was or the mark of a minus in its place, and a second check keeps it. -/
theorem validate_eq_ok_iff {ts : List Token} (hts : ∀ t ∈ ts, t.kind ≠ .finish) :
    (∀ vs, validate ts = .ok vs ↔ Derives .formula ts vs) ∧
      ∀ vs, validate ts = .ok vs →
        vs.length = ts.length ∧ List.Forall₂ Marked ts vs ∧ validate vs = .ok vs := by
  refine ⟨fun vs => ⟨derives_of_validate hts, Derives.validate_eq⟩, fun vs h => ?_⟩
  have hd := derives_of_validate hts h
  exact ⟨hd.length_eq, hd.forall₂_marked, hd.marked.validate_eq⟩

/-- The second of three minuses between values is the operator: `-x - -y`. -/
theorem validate_minuses :
    let ts : List Token := [⟨"-", .additive, some 1⟩, ⟨"x", .operand, some 2⟩,
      ⟨"-", .additive, some 4⟩, ⟨"-", .additive, some 6⟩, ⟨"y", .operand, some 7⟩]
    let vs : List Token := [⟨"--", .negation, some 1⟩, ⟨"x", .operand, some 2⟩,
      ⟨"-", .additive, some 4⟩, ⟨"--", .negation, some 6⟩, ⟨"y", .operand, some 7⟩]
    (∀ t ∈ ts, t.kind ≠ .finish) ∧ Derives .formula ts vs ∧ validate vs = .ok vs := by
  intro ts vs
  have hts : ∀ t ∈ ts, t.kind ≠ .finish := by decide
  have hok : validate ts = .ok vs := rfl
  obtain ⟨hiff, hlaws⟩ := validate_eq_ok_iff hts
  exact ⟨hts, (hiff vs).1 hok, (hlaws vs hok).2.2⟩

end Formulary.Token
