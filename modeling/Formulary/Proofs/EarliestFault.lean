import Formulary.Proofs.Grammar

/-!
# Faults Show at the Earliest Token

The checker stops at the first token that it cannot take, and blames it. This module proves that no
checker could blame an earlier token and none could let this one pass: what was read before it is
the beginning of a formula, and together with it no longer is. If the sequence ends without such a
token, it is the beginning of a formula as a whole, and the fault has no position.

## Conventions

`Steps r ts next` is a run of transitions, and `Accepts r ts` says that the check of `ts` from the
reading `r` succeeds. No transition leads into a dead end: `completion r` is a sequence that every
reading accepts, one operand for each value that is still missing and a closing parenthesis for each
open one.

A position is the column of a token, so it tells a token only if the columns are there and differ.

## Main results

* `Reading.accepts_completion`: every reading can be completed.
* `Reading.Steps.accepts_iff`: what follows a run decides whether the sequence is accepted.
* `exists_stop_of_check`: where a check that fails has stopped.
* `validate_error_earliest`: the position of a fault is the end of the longest beginning.
-/

namespace Formulary.Token

namespace Reading

/-! ### Runs of transitions -/

/-- Whether the check of a sequence **succeeds** from a reading on. -/
def Accepts (r : Reading) (ts : List Token) : Prop :=
  ∃ vs, check r ts = .ok vs

/-- A **run**: the tokens take the first reading to the last one. -/
inductive Steps : Reading → List Token → Reading → Prop
  | nil (r : Reading) : Steps r [] r
  | cons {r middle next : Reading} {t v : Token} {ts : List Token} :
      Step r t middle v → Steps middle ts next → Steps r (t :: ts) next

/-- A transition leaves the decision to what follows. -/
theorem Step.accepts_iff {r next : Reading} {t v : Token} (h : Step r t next v)
    (rest : List Token) : r.Accepts (t :: rest) ↔ next.Accepts rest := by
  constructor
  · rintro ⟨vs, hvs⟩
    obtain ⟨next', v', ws, hs, hws, -⟩ := exists_step_of_check h.kind_ne_finish hvs
    obtain rfl : next' = next := Except.ok.inj (hs.step_eq.1.symm.trans h.step_eq.1)
    exact ⟨ws, hws⟩
  · rintro ⟨ws, hws⟩
    exact ⟨v :: ws, by rw [h.check_cons, hws]; rfl⟩

/-- **So does a run.** -/
theorem Steps.accepts_iff {r next : Reading} {ts : List Token} (h : Steps r ts next)
    (rest : List Token) : r.Accepts (ts ++ rest) ↔ next.Accepts rest := by
  induction h with
  | nil => rfl
  | cons hs _ ih => rw [List.cons_append, hs.accepts_iff, ih]

/-- A token that a reading does not take cannot be made up for. -/
theorem not_accepts_of_step {r : Reading} {t : Token} {fault : Fault} (ht : t.kind ≠ .finish)
    (h : r.step t = .error fault) (rest : List Token) : ¬ r.Accepts (t :: rest) := by
  rintro ⟨vs, hvs⟩
  obtain ⟨next, v, ws, hs, -, -⟩ := exists_step_of_check ht hvs
  rw [hs.step_eq.1] at h
  cases h

/-! ### Completions -/

/-- An operand that stands for a missing value. -/
def placeholder : Token := ⟨"x", .operand, none⟩

/-- A closing parenthesis. -/
def closer : Token := ⟨")", .structural, none⟩

/-- A comma. -/
def separator : Token := ⟨",", .structural, none⟩

/-- Tokens that **close** the open parentheses behind a complete formula, the innermost first. -/
def closings : List Awaiting → List Token
  | [] => []
  | .closing :: outer => closer :: closings outer
  | .comma :: outer => separator :: placeholder :: closer :: closings outer

/-- Tokens that **complete** a reading: what is expected next, and then the closing parentheses. -/
def completion (r : Reading) : List Token :=
  match r.expecting with
  | .operator => closings r.awaiting
  | .value => placeholder :: closings r.awaiting
  | .opening false => ⟨"(", .structural, none⟩ :: placeholder :: closings (.closing :: r.awaiting)
  | .opening true =>
    ⟨"(", .structural, none⟩ :: placeholder :: separator :: placeholder ::
      closings (.comma :: r.awaiting)
  | .counter => placeholder :: separator :: placeholder :: closings (.comma :: r.awaiting)
  | .counterComma => separator :: placeholder :: closings (.comma :: r.awaiting)

/-- Where an operator is expected, every stack of open parentheses can be closed. -/
theorem accepts_closings (stack : List Awaiting) :
    Accepts ⟨.operator, stack⟩ (closings stack) := by
  induction stack with
  | nil => exact ⟨[], rfl⟩
  | cons awaiting outer ih =>
      cases awaiting with
      | closing => exact ((Step.closing rfl).accepts_iff _).2 ih
      | comma =>
          rw [closings, (Step.body rfl).accepts_iff, (Step.operand rfl).accepts_iff,
            (Step.closing rfl).accepts_iff]
          exact ih

/-- **No reading is a dead end.** -/
theorem accepts_completion (r : Reading) : r.Accepts r.completion := by
  obtain ⟨expecting, stack⟩ := r
  have hvalue (stack : List Awaiting) : Accepts ⟨.value, stack⟩ (placeholder :: closings stack) :=
    ((Step.operand rfl).accepts_iff _).2 (accepts_closings stack)
  have hlimit : Accepts ⟨.counterComma, stack⟩
      (separator :: placeholder :: closings (.comma :: stack)) :=
    ((Step.limit rfl).accepts_iff _).2 (hvalue _)
  have hcounter : Accepts ⟨.counter, stack⟩
      (placeholder :: separator :: placeholder :: closings (.comma :: stack)) :=
    ((Step.counter rfl).accepts_iff _).2 hlimit
  cases expecting with
  | operator => exact accepts_closings stack
  | value => exact hvalue stack
  | opening aggregate =>
      cases aggregate with
      | false => exact ((Step.argument rfl).accepts_iff _).2 (hvalue _)
      | true => exact ((Step.counting rfl).accepts_iff _).2 hcounter
  | counter => exact hcounter
  | counterComma => exact hlimit

/-- A completion holds no end mark. -/
theorem withoutEnd_completion (r : Reading) : WithoutEnd r.completion := by
  have hclosings (stack : List Awaiting) : WithoutEnd (closings stack) := by
    induction stack with
    | nil => intro t ht; cases ht
    | cons awaiting outer ih =>
        cases awaiting <;>
          simpa [closings, WithoutEnd, closer, separator, placeholder] using ih
  obtain ⟨expecting, stack⟩ := r
  have hstack := hclosings stack
  cases expecting with
  | opening aggregate =>
      cases aggregate <;>
        simpa [completion, closings, WithoutEnd, closer, separator, placeholder] using hstack
  | _ => simpa [completion, closings, WithoutEnd, closer, separator, placeholder] using hstack

/-! ### Positions -/

/-- **A token that is not taken is blamed.** -/
theorem position_of_step {r : Reading} {t : Token} {fault : Fault} (ht : t.kind ≠ .finish)
    (h : r.step t = .error fault) : fault.position = t.column := by
  rcases fault_of_step h with ⟨wanted, rfl⟩ | rfl | ⟨hfinish, -⟩
  · rfl
  · rfl
  · exact absurd hfinish ht

/-- An early end has no position, whatever it lacks. -/
theorem position_of_endFault? {r : Reading} {fault : Fault} (h : r.endFault? = some fault) :
    fault.position = none := by
  obtain ⟨expecting, stack⟩ := r
  cases expecting with
  | operator =>
      rcases stack with - | ⟨_ | _, outer⟩ <;> cases h <;> rfl
  | _ => cases h; rfl

end Reading

/-! ### Where a check stops -/

/-- **A check that fails has stopped in one of two places**: at the end of the sequence, or at a
token that the reading before it does not take. -/
theorem exists_stop_of_check {r : Reading} {ts : List Token} {fault : Fault}
    (hts : WithoutEnd ts) (h : check r ts = .error fault) :
    (∃ next, r.Steps ts next ∧ next.endFault? = some fault) ∨
      ∃ before t after next, ts = before ++ t :: after ∧ r.Steps before next ∧
        next.step t = .error fault := by
  induction ts generalizing r with
  | nil =>
      rw [check] at h
      cases hend : r.endFault? with
      | none =>
          rw [hend] at h
          cases h
      | some fault' =>
          rw [hend] at h
          cases h
          exact .inl ⟨r, .nil r, hend⟩
  | cons t rest ih =>
      cases hs : r.step t with
      | error fault' =>
          rw [check, if_neg (by simp [Reading.endsWith_eq_false (hts t List.mem_cons_self)]),
            hs] at h
          cases h
          exact .inr ⟨[], t, rest, r, rfl, .nil r, hs⟩
      | ok middle =>
          have hstep := Reading.Step.of_step hs
          rw [hstep.check_cons] at h
          cases hc : check middle rest with
          | ok vs =>
              rw [hc] at h
              cases h
          | error fault' =>
              rw [hc] at h
              cases h
              rcases ih hts.tail hc with ⟨next, hsteps, hend⟩ |
                ⟨before, u, after, next, rfl, hsteps, hu⟩
              · exact .inl ⟨next, .cons hstep hsteps, hend⟩
              · exact .inr ⟨t :: before, u, after, next, rfl, .cons hstep hsteps, hu⟩

/-- Whether tokens are the **beginning** of a formula: with some more tokens, none of them an end
mark, they are accepted. -/
def Begins (ts : List Token) : Prop :=
  ∃ more vs, WithoutEnd more ∧ validate (ts ++ more) = .ok vs

/-- What is read from the first token on is the beginning of a formula. -/
theorem Reading.Steps.begins {ts : List Token} {r : Reading} (h : Steps .initial ts r) :
    Begins ts := by
  obtain ⟨vs, hvs⟩ := (h.accepts_iff r.completion).2 r.accepts_completion
  exact ⟨r.completion, vs, r.withoutEnd_completion, hvs⟩

/-- A column tells its token if the columns differ. -/
theorem eq_of_column {ts : List Token} (hts : (ts.map Token.column).Nodup) {i j : ℕ} {t u : Token}
    (ht : ts[i]? = some t) (hu : ts[j]? = some u) (h : u.column = t.column) : j = i := by
  have hj : j < (ts.map Token.column).length := by
    rw [List.length_map]
    exact (List.getElem?_eq_some_iff.1 hu).1
  refine (List.getElem?_inj hj hts).1 ?_
  rw [List.getElem?_map, List.getElem?_map, hu, ht, Option.map_some, Option.map_some, h]

/-- **Faults show at the earliest token.** If a fault has a position, this is the column of one
token; the tokens before it are the beginning of a formula, and no sequence that begins with them
and that token is accepted. A fault has no position exactly if the whole sequence is the beginning
of a formula, which only ends too early, and that an end is unexpected is never said of a
position. -/
theorem validate_error_earliest {ts : List Token} {fault : Fault}
    (hend : ∀ t ∈ ts, t.kind ≠ .finish) (hcolumns : ∀ t ∈ ts, t.column ≠ none)
    (hdistinct : (ts.map Token.column).Nodup) (h : validate ts = .error fault) :
    (∀ column, fault.position = some column → ∃ k t, ts[k]? = some t ∧ t.column = some column ∧
      (∀ j u, ts[j]? = some u → u.column = some column → j = k) ∧
      Begins (ts.take k) ∧ ∀ more vs, validate (ts.take (k + 1) ++ more) ≠ .ok vs) ∧
    (fault.position = none ↔ Begins ts) ∧
    ∀ wanted, fault = .unexpectedEnd wanted → fault.position = none := by
  have hearly (wanted : Wanted) (hf : fault = .unexpectedEnd wanted) : fault.position = none := by
    rw [hf, Fault.position_unexpectedEnd]
  rcases exists_stop_of_check hend h with ⟨r, hsteps, hfault⟩ |
    ⟨before, t, after, r, rfl, hsteps, hfault⟩
  · have hposition := Reading.position_of_endFault? hfault
    refine ⟨fun column hcolumn => ?_, iff_of_true hposition hsteps.begins, hearly⟩
    rw [hposition] at hcolumn
    cases hcolumn
  · have ht : t ∈ before ++ t :: after := by simp
    have hposition := Reading.position_of_step (hend t ht) hfault
    have hrefused (more vs : List Token) : validate (before ++ t :: more) ≠ .ok vs := by
      intro hvs
      exact Reading.not_accepts_of_step (hend t ht) hfault more
        ((hsteps.accepts_iff (t :: more)).1 ⟨vs, hvs⟩)
    have hget : (before ++ t :: after)[before.length]? = some t := by simp
    refine ⟨fun column hcolumn => ⟨before.length, t, hget, ?_, fun j u hu hcolumn' => ?_, ?_, ?_⟩,
      iff_of_false ?_ ?_, hearly⟩
    · rw [← hposition, hcolumn]
    · exact eq_of_column hdistinct hget hu (by rw [hcolumn', ← hcolumn, hposition])
    · rw [List.take_left]
      exact hsteps.begins
    · intro more vs
      rw [List.take_length_add_append, List.take_succ_cons, List.take_zero, List.append_assoc]
      exact hrefused more vs
    · rw [hposition]
      exact hcolumns t ht
    · rintro ⟨more, vs, -, hvs⟩
      rw [List.append_assoc] at hvs
      exact hrefused _ vs hvs

/-- A sum that lacks its body: with the parenthesis that comes too early the tokens cannot be
continued, without it they can. -/
theorem validate_error_earliest_closing :
    let ts : List Token := [⟨"sum", .function, some 1⟩, ⟨"(", .structural, some 4⟩,
      ⟨"i", .operand, some 5⟩, ⟨",", .structural, some 6⟩, ⟨"n", .operand, some 7⟩,
      ⟨")", .structural, some 8⟩, ⟨"x", .operand, some 9⟩]
    validate ts = .error (.unexpectedToken ")" (some .comma) (some 8)) ∧ Begins (ts.take 5) ∧
      (∀ more vs, validate (ts.take 6 ++ more) ≠ .ok vs) ∧
      validate (ts.take 5) = .error (.unexpectedEnd .comma) := by
  intro ts
  have hts : (∀ t ∈ ts, t.kind ≠ .finish) ∧ (∀ t ∈ ts, t.column ≠ none) ∧
      (ts.map Token.column).Nodup := by decide
  obtain ⟨hposition, -⟩ := validate_error_earliest hts.1 hts.2.1 hts.2.2 rfl
  obtain ⟨k, t, -, -, hunique, hbegins, hrefused⟩ := hposition 8 rfl
  obtain rfl : 5 = k := hunique 5 ⟨")", .structural, some 8⟩ rfl rfl
  exact ⟨rfl, hbegins, hrefused, rfl⟩

end Formulary.Token
