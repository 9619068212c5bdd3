import Formulary.Journal.Sink
import Formulary.Proofs.Frame
import Formulary.Session

/-!
# Sessions Are Never Half Changed

A step of a session can be refused for many reasons: the text of a formula has a fault, a value is
spelled wrong, a variable is missing in the middle of a round, or the value of a formula has no
whole part although it was evaluated without a fault. This module proves that none of them leaves a
trace. After a refusal the session has the formula, the mode and the variables that it had, and
after a step that only looks at them it has them in any case. The evaluation is among those,
although it works in the store of the session.

## Conventions

Two sessions **match** if they have the same formula, the same mode and the same variables in the
same order. How many samples were drawn is not compared, since every evaluation may draw some.

A session is played with a sink or without one. The events of a step are recorded before the next
step is taken, on any disk and whether or not the disk accepts them.

## Main results

* `Session.matches_step`: a refused step leaves a session that matches, and so does an observer.
* `Session.getElem?_play`: the turns of a session are those of its steps, one after the other.
* `Session.playOn_eq`: a sink does not change the turns.
* `Session.playOn_matches`: no step of a session leaves it half changed.
-/

namespace Formulary.Session

/-- Whether a step is an **observer**: it asks for something and sets nothing. -/
def Step.observes : Step → Bool
  | get _ | listVariables | judge .. | calculate | calculateWhole | showText | summarize
  | showFormula => true
  | restart .. | adopt .. | put .. | remove _ | setFormula .. | setMode _ => false

/-- Whether two sessions **match**: in the formula, the mode and the ordered variables. -/
def Matches (s t : Session) : Prop :=
  t.formula = s.formula ∧ t.mode = s.mode ∧ t.store = s.store

/-- A session matches itself. -/
theorem Matches.refl (s : Session) : s.Matches s :=
  ⟨rfl, rfl, rfl⟩

/-- What matches a match matches. -/
theorem Matches.trans {s t u : Session} (hst : s.Matches t) (htu : t.Matches u) : s.Matches u :=
  ⟨htu.1.trans hst.1, htu.2.1.trans hst.2.1, htu.2.2.trans hst.2.2⟩

/-! ### One step -/

/-- An evaluation leaves a session that matches, however it ends. -/
theorem matches_evaluate (s : Session) : s.Matches s.evaluate.2.1 := by
  refine ⟨s.evaluate_formula, s.evaluate_mode, ?_⟩
  unfold evaluate
  split
  · rfl
  · rename_i f _
    have hstore := f.run_store s.mode s.samples { store := s.store, drawn := s.drawn }
    simp only
    split <;> exact hstore

/-- **A refused step leaves a session that matches, and so does an observer.** -/
theorem matches_step {s : Session} {step : Step}
    (h : (∃ refusal, (s.step step).answer = .error refusal) ∨ step.observes = true) :
    s.Matches (s.step step).next := by
  cases step with
  | restart mode samples => rcases h with ⟨_, h⟩ | h <;> cases h
  | adopt formula store mode samples => rcases h with ⟨_, h⟩ | h <;> cases h
  | put name text =>
      obtain ⟨refusal, h⟩ := h.resolve_right Bool.false_ne_true
      rw [Session.step] at h ⊢
      split at h
      · cases h
      · exact .refl s
  | get name => exact .refl s
  | listVariables => exact .refl s
  | remove name => rcases h with ⟨_, h⟩ | h <;> cases h
  | setFormula text declared =>
      obtain ⟨refusal, h⟩ := h.resolve_right Bool.false_ne_true
      rw [Session.step, withFormula] at h ⊢
      split at h
      · cases h
      · exact .refl s
  | judge text declared =>
      rw [Session.step]
      split <;> exact .refl s
  | setMode mode => rcases h with ⟨_, h⟩ | h <;> cases h
  | calculate => exact s.matches_evaluate
  | calculateWhole => exact s.matches_evaluate
  | showText => exact .refl s
  | summarize => exact .refl s
  | showFormula => exact .refl s

/-! ### Sessions of many steps -/

/-- The session **after** some steps. -/
def after (s : Session) (steps : List Step) : Session :=
  steps.foldl (fun s step => (s.step step).next) s

/-- **Plays** a session: takes its steps one after the other and gives their turns. -/
def play (s : Session) : List Step → List Turn
  | [] => []
  | step :: rest => s.step step :: (s.step step).next.play rest

/-- Plays a session and records the events of each step in the sink that is set. -/
def playOn {m : Type → Type} [Monad m] (disk : Disk m) (sink : Option Sink) (s : Session) :
    List Step → m (List Turn)
  | [] => return []
  | step :: rest => do
    let turn := s.step step
    Sink.emitAll disk sink turn.events
    return turn :: (← turn.next.playOn disk sink rest)

/-- **The turns of a session** are those of its steps, each in the session after the ones before. -/
theorem getElem?_play (s : Session) {steps : List Step} {i : ℕ} (hi : i < steps.length) :
    (s.play steps)[i]? = some ((s.after (steps.take i)).step steps[i]) := by
  induction steps generalizing s i with
  | nil => cases hi
  | cons step rest ih =>
      cases i with
      | zero => rfl
      | succ i => exact ih (s.step step).next (Nat.lt_of_succ_lt_succ hi)

/-- The session after one more step is the one that its turn leaves. -/
theorem after_take_succ (s : Session) {steps : List Step} {i : ℕ} (hi : i < steps.length) :
    s.after (steps.take (i + 1)) = ((s.after (steps.take i)).step steps[i]).next := by
  rw [after, List.take_succ_eq_append_getElem hi, List.foldl_append]
  rfl

/-- **A sink does not change the turns**: playing with it records the events of the turns that are
played without it. -/
theorem playOn_eq {m : Type → Type} [Monad m] [LawfulMonad m] (disk : Disk m) (sink : Option Sink)
    (s : Session) (steps : List Step) :
    s.playOn disk sink steps = (do
      Sink.emitAll disk sink ((s.play steps).flatMap (·.events))
      return s.play steps) := by
  induction steps generalizing s with
  | nil => simp [playOn, play, Sink.emitAll]
  | cons step rest ih => simp [playOn, play, ih, Sink.emitAll, List.forM_append]

/-- Steps that are refused or observe leave a session that matches, however many they are. -/
theorem matches_after {s : Session} {steps : List Step}
    (h : ∀ (i : ℕ) (hi : i < steps.length),
      (∃ refusal, ((s.after (steps.take i)).step steps[i]).answer = .error refusal) ∨
        steps[i].observes = true) :
    s.Matches (s.after steps) := by
  have htake : ∀ n ≤ steps.length, s.Matches (s.after (steps.take n)) := by
    intro n
    induction n with
    | zero => exact fun _ => .refl s
    | succ n ih =>
        intro hn
        rw [after_take_succ s hn]
        exact (ih (Nat.le_of_succ_le hn)).trans (matches_step (h n hn))
  simpa using htake steps.length (Nat.le_refl _)

/-- **No step of a session leaves it half changed.** On any disk, with a sink or without, a session
has one turn for each of its steps. If the turn is a refusal, or if the step is an observer, then
the session after it matches the session before it, and so it does after any number of such
steps. -/
theorem playOn_matches {m : Type → Type} [Monad m] [LawfulMonad m] (disk : Disk m)
    (sink : Option Sink) (s : Session) (steps : List Step) :
    s.playOn disk sink steps = (do
      Sink.emitAll disk sink ((s.play steps).flatMap (·.events))
      return s.play steps) ∧
    (∀ (i : ℕ) (hi : i < steps.length), ∃ turn, (s.play steps)[i]? = some turn ∧
      turn.next = s.after (steps.take (i + 1)) ∧
      ((∃ refusal, turn.answer = .error refusal) ∨ steps[i].observes = true →
        (s.after (steps.take i)).Matches turn.next)) ∧
    ((∀ (i : ℕ) (hi : i < steps.length), steps[i].observes = true ∨
        ∃ turn refusal, (s.play steps)[i]? = some turn ∧ turn.answer = .error refusal) →
      s.Matches (s.after steps)) := by
  refine ⟨playOn_eq disk sink s steps, fun i hi => ?_, fun h => matches_after fun i hi => ?_⟩
  · exact ⟨_, s.getElem?_play hi, (s.after_take_succ hi).symm, matches_step⟩
  · obtain hobserves | ⟨turn, refusal, hsome, hrefused⟩ := h i hi
    · exact .inr hobserves
    · rw [s.getElem?_play hi] at hsome
      obtain rfl := Option.some.inj hsome
      exact .inl ⟨refusal, hrefused⟩

/-- A session with a sink in a directory that does not exist: a variable is missing in the middle of
a sum over a counter that is set, and then a value is spelled wrong. -/
theorem playOn_matches_refused :
    let disk := FileTree.disk "now"
    let sink : Option Sink := some { directory := .ofString "/log" }
    let f : Formula := .aggregate .sum "i" (.literal 2.0) (.binary .add (.var "i") (.var "y"))
    let s : Session :=
      { formula := some f, store := .ofList [("i", 5.0)], mode := .strict, samples := fun _ => 0.5 }
    let steps : List Step := [.calculate, .put "i" "two"]
    (∃ turns, s.playOn disk sink steps = (do
        Sink.emitAll disk sink (turns.flatMap Turn.events)
        return turns)) ∧
      (∃ turn, (s.play steps)[0]? = some turn ∧
        turn.answer = .error (.fault (.unknownVariable "y" ["i"])) ∧ s.Matches turn.next) ∧
      s.Matches (s.after steps) := by
  intro disk sink f s steps
  obtain ⟨hplay, hturns, hafter⟩ := playOn_matches disk sink s steps
  obtain ⟨first, hfirst, -, hmatches⟩ := hturns 0 (by decide)
  obtain ⟨second, hsecond, -⟩ := hturns 1 (by decide)
  have hmissing : first.answer = .error (.fault (.unknownVariable "y" ["i"])) := by
    obtain rfl := Option.some.inj hfirst
    rfl
  have hrefused : second.answer = .error (.conversion (.notANumber "two")) := by
    obtain rfl := Option.some.inj hsecond
    rfl
  refine ⟨⟨_, hplay⟩, ⟨first, hfirst, hmissing, hmatches (.inl ⟨_, hmissing⟩)⟩, ?_⟩
  refine hafter fun i hi => ?_
  obtain rfl | rfl : i = 0 ∨ i = 1 := by
    have : steps.length = 2 := rfl
    omega
  · exact .inl rfl
  · exact .inr ⟨second, _, hsecond, hrefused⟩

end Formulary.Session
