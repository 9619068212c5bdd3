import Formulary.Proofs.Sessions

/-!
# Sessions Are Recorded Step by Step

What a step leaves for the log is determined by the step and its answer: a formula that is accepted
or refused, a choice of mode, and an evaluation that misses a variable. This module proves that the
events of a step are those that its answer calls for, and that a sink that works records them step
by step, behind everything that it recorded before.

## Conventions

A sink **works** on a disk if its log can be read from the state of the disk and appending to its
file succeeds and appends to that log. The clock may be part of the state. A file tree with the
directory of the sink is such a disk (`FileTree.works`).

A **report** is what an event is filed under, in the words of the log: its kind, its level, the code
of a fault, and the keys that its kind requires.

## Main results

* `Event.Complete.prepared`: an event that has its keys is recorded as what it is.
* `Session.step_reports`: the events of a step are those that its answer calls for.
* `Session.playOn_append`: a session is played in parts.
* `Session.playOn_take_succ`: one more step is recorded behind the steps before it.
-/

namespace Formulary

/-! ### Events with all their keys -/

/-- A **report**: what an event is filed under. -/
structure Report where
  kind : String
  level : String
  code : Option String
  keys : List String
  deriving DecidableEq, Repr

/-- Cutting long texts keeps the names of the fields. -/
theorem Json.has_truncateFields (fields : Json.Fields) (name : String) :
    Json.Fields.has (Json.truncateFields fields) name = Json.Fields.has fields name := by
  induction fields with
  | nil => rw [Json.truncateFields]
  | cons field rest ih =>
      rw [Json.Fields.has] at ih ⊢
      rw [Json.truncateFields, List.any_cons, ih]
      rfl

namespace Event

/-- What the event is filed under. -/
def report (e : Event) : Report where
  kind := e.kind.name
  level := e.level.name
  code := e.code
  keys := e.kind.requiredKeys

/-- Whether an event is **complete**: it has the keys that its kind requires, and no note of missing
ones. -/
structure Complete (e : Event) : Prop where
  keys : e.missingKeys = []
  unnoted : Json.Fields.has e.context "_missing_attribution" = false

/-- Cutting long texts takes no key away. -/
theorem missingKeys_truncate (e : Event) :
    ({ e with context := Json.truncateFields e.context } : Event).missingKeys = e.missingKeys := by
  simp only [missingKeys, Json.has_truncateFields]

/-- A complete event is prepared by cutting its long texts. -/
theorem Complete.prepared_eq {e : Event} (h : e.Complete) :
    e.prepared = { e with context := Json.truncateFields e.context } := by
  rw [Event.prepared, attributed, if_pos (by rw [e.missingKeys_truncate, h.keys]; rfl)]

/-- **A complete event is recorded as what it is**, with its long texts cut. -/
theorem Complete.prepared {e : Event} (h : e.Complete) :
    e.prepared.Complete ∧ e.prepared.report = e.report := by
  rw [h.prepared_eq]
  exact ⟨⟨e.missingKeys_truncate.trans h.keys, by rw [Json.has_truncateFields, h.unnoted]⟩, rfl⟩

end Event

/-! ### Sinks that work -/

/-- Whether a sink **works** on a disk: as long as the state of the disk is usable, reading the
clock keeps the log, and appending to the file of the sink succeeds and appends to the log. -/
structure Sink.Works {σ : Type} (disk : Disk (StateM σ)) (sink : Sink) (usable : σ → Prop)
    (log : σ → Log) : Prop where
  now {w : σ} : usable w → usable (disk.now w).2 ∧ log (disk.now w).2 = log w
  append {w : σ} (bytes : List UInt8) : usable w →
    ∃ next, disk.append sink.file bytes w = (.ok (), next) ∧ usable next ∧ log next = log w ++ bytes

/-- A sink that works writes an event behind all others, at the present time. -/
theorem Sink.Works.write {σ : Type} {disk : Disk (StateM σ)} {sink : Sink} {usable : σ → Prop}
    {log : σ → Log} (h : sink.Works disk usable log) {w : σ} (hw : usable w) (e : Event) :
    ∃ next, sink.write disk e w = (.ok (), next) ∧ usable next ∧
      log next = log w ++ Log.line e (disk.now w).1 := by
  obtain ⟨husable, hlog⟩ := h.now hw
  obtain ⟨next, happend, hnext, hlog'⟩ := h.append (Log.line e (disk.now w).1) husable
  exact ⟨next, happend, hnext, by rw [hlog', hlog]⟩

/-- A sink that works records an event as it is prepared. -/
theorem Sink.Works.emit {σ : Type} {disk : Disk (StateM σ)} {sink : Sink} {usable : σ → Prop}
    {log : σ → Log} (h : sink.Works disk usable log) {w : σ} (hw : usable w) (e : Event) :
    ∃ next, Sink.emit disk (some sink) e w = ((), next) ∧ usable next ∧
      log next = log w ++ Log.line e.prepared (disk.now w).1 := by
  obtain ⟨next, hwrite, hnext, hlog⟩ := h.write hw e.prepared
  refine ⟨next, ?_, hnext, hlog⟩
  show (((), (sink.write disk e.prepared w).2) : Unit × σ) = ((), next)
  rw [hwrite]

/-- A sink that works stays usable, whatever it records. -/
theorem Sink.Works.usable_emitAll {σ : Type} {disk : Disk (StateM σ)} {sink : Sink}
    {usable : σ → Prop} {log : σ → Log} (h : sink.Works disk usable log) {w : σ} (hw : usable w)
    (es : List Event) : usable (Sink.emitAll disk (some sink) es w).2 := by
  induction es generalizing w with
  | nil => exact hw
  | cons e rest ih =>
      obtain ⟨next, hemit, hnext, -⟩ := h.emit hw e
      have hcons : Sink.emitAll disk (some sink) (e :: rest) w =
          Sink.emitAll disk (some sink) rest (Sink.emit disk (some sink) e w).2 := rfl
      rw [hcons, hemit]
      exact ih hnext

/-! ### File trees -/

namespace FileTree

/-- The parts of a path with a name below it. -/
theorem resolveParts_append {name : String} (hname : name ≠ "..") (above parts : List String) :
    resolveParts above (parts ++ [name]) = resolveParts above parts ++ [name] := by
  induction parts generalizing above with
  | nil => simp [resolveParts, hname]
  | cons part rest ih =>
      rw [List.cons_append, resolveParts, resolveParts, ih, ih]
      split <;> rfl

/-- The file of a sink lies in its directory. -/
theorem resolve_file (sink : Sink) :
    resolve sink.file = (resolve sink.directory).child Sink.fileName := by
  rw [resolve, Sink.file, Path.child, resolveParts_append (by decide)]
  rfl

/-- Whether a sink is **usable** in a file tree: its directory is there, and no directory is in the
place of its file. -/
def Usable (sink : Sink) (t : FileTree) : Prop :=
  t.kindAt sink.directory = some .directory ∧ t.kindAt sink.file ≠ some .directory

/-- The **log** of a sink in a file tree. -/
def logAt (sink : Sink) (t : FileTree) : Log :=
  match t.readAt sink.file with
  | .ok bytes => bytes
  | .error _ => []

/-- A sink works on a file tree with its directory. -/
theorem works (sink : Sink) (time : String) :
    sink.Works (disk time) (Usable sink) (logAt sink) where
  now hw := ⟨hw, rfl⟩
  append {t} bytes hw := by
    obtain ⟨hdirectory, hfile⟩ := hw
    have hparts : (resolve sink.file).parts ≠ [] := by
      rw [resolve_file]
      exact List.append_ne_nil_of_right_ne_nil _ (List.cons_ne_nil _ _)
    have hparent : (resolve sink.file).parent = resolve sink.directory := by
      rw [resolve_file, Path.child, Path.parent, List.dropLast_concat]
    have hne : resolve sink.directory ≠ resolve sink.file := by
      intro heq
      have hlen := congrArg (fun p : Path => p.parts.length) (heq.trans (resolve_file sink))
      simp [Path.child] at hlen
    -- whatever the file holds, it is set to that and the new bytes
    have hset (content : List UInt8) (hlog : logAt sink t = content)
        (hmodify : t.modifyAt sink.file (· ++ bytes) =
          .ok (t.set (resolve sink.file) (.file (content ++ bytes)))) :
        ∃ next, (disk time).append sink.file bytes t = (.ok (), next) ∧ Usable sink next ∧
          logAt sink next = logAt sink t ++ bytes := by
      refine ⟨t.set (resolve sink.file) (.file (content ++ bytes)), ?_, ⟨?_, ?_⟩, ?_⟩
      · show modifying (fun t => t.modifyAt sink.file (· ++ bytes)) t = _
        rw [modifying, hmodify]
      · rw [kindAt, find?_set _ _ _ _ hparts, if_neg hne]
        exact hdirectory
      · rw [kindAt, find?_set _ _ _ _ hparts, if_pos rfl]
        simp [Entry.kind]
      · rw [logAt, readAt, find?_set _ _ _ _ hparts, if_pos rfl, hlog]
    cases hfind : t.find? (resolve sink.file) with
    | none =>
        refine hset [] (by rw [logAt, readAt, hfind]) ?_
        obtain ⟨entry, hentry, hkind⟩ := Option.map_eq_some_iff.1 hdirectory
        cases entry with
        | file => cases hkind
        | directory => simp only [modifyAt, hparent, hfind, hentry]
    | some entry =>
        cases entry with
        | directory => exact absurd (by rw [kindAt, hfind]; rfl) hfile
        | file content =>
            exact hset content (by rw [logAt, readAt, hfind]) (by simp only [modifyAt, hfind])

end FileTree

namespace Session

/-! ### Steps -/

/-- The **report that is due** for a step and its answer, if any. -/
def Step.report? : Step → Except Refusal Answer → Option Report
  | .setFormula .., .ok _ => some ⟨"formula_parsed", "info", none, ["formula"]⟩
  | .setFormula .., .error (.fault fault) =>
    if fault.isUserError then
      some ⟨"formula_rejected", "warning", some fault.code, ["formula"]⟩
    else none
  | .setMode _, .ok _ => some ⟨"mode_changed", "info", none, ["strict"]⟩
  | .calculate, .error (.fault (.unknownVariable ..))
  | .calculateWhole, .error (.fault (.unknownVariable ..)) =>
    some ⟨"formula_eval_failed", "error", some "unknown_variable", ["formula"]⟩
  | _, _ => none

/-- What an evaluation leaves for the log. -/
theorem evaluate_events (s : Session) :
    (∃ name available, s.evaluate.1 = .error (.fault (.unknownVariable name available)) ∧
        ∃ e : Event, s.evaluate.2.2 = [e] ∧ e.Complete ∧
          e.report = ⟨"formula_eval_failed", "error", some "unknown_variable", ["formula"]⟩) ∨
      (∀ fault, s.evaluate.1 ≠ .error (.fault fault)) ∧ s.evaluate.2.2 = [] := by
  unfold evaluate
  split
  · exact .inr ⟨fun fault h => (by cases h), rfl⟩
  · simp only
    split
    · exact .inr ⟨fun fault h => (by cases h), rfl⟩
    · exact .inr ⟨fun fault h => (by cases h), rfl⟩
    · exact .inl ⟨_, _, rfl, _, rfl, ⟨rfl, rfl⟩, rfl⟩

/-- An evaluation that misses no variable is not reported. -/
theorem report?_of_ne_fault {answer : Except Refusal Answer}
    (h : ∀ fault, answer ≠ .error (.fault fault)) :
    Step.calculate.report? answer = none ∧ Step.calculateWhole.report? answer = none := by
  rcases answer with refusal | answer
  · cases refusal with
    | fault f => exact absurd rfl (h f)
    | conversion | noFormula | endless => exact ⟨rfl, rfl⟩
  · exact ⟨rfl, rfl⟩

/-- The events of an evaluation are those that a step with its fault or its value calls for. -/
theorem evaluate_reports (s : Session) {step : Step}
    (hstep : step = .calculate ∨ step = .calculateWhole) (next : Float → Except Refusal Answer)
    (hnext : ∀ x fault, next x ≠ .error (.fault fault)) :
    s.evaluate.2.2.map Event.report = (step.report? (s.evaluate.1.bind next)).toList ∧
      ∀ e ∈ s.evaluate.2.2, e.Complete := by
  rcases s.evaluate_events with ⟨name, available, heq, e, hevents, he, hreport⟩ | ⟨hne, hevents⟩
  · rw [heq, hevents, List.map_singleton, hreport]
    refine ⟨?_, List.forall_mem_singleton.2 he⟩
    rcases hstep with rfl | rfl <;> rfl
  · have hnone : ∀ fault, s.evaluate.1.bind next ≠ .error (.fault fault) := by
      intro fault
      cases hresult : s.evaluate.1 with
      | error refusal =>
          intro h
          cases h
          exact hne fault hresult
      | ok x => exact hnext x fault
    rw [hevents]
    refine ⟨?_, fun e he => absurd he List.not_mem_nil⟩
    rcases hstep with rfl | rfl
    · rw [(report?_of_ne_fault hnone).1]
      rfl
    · rw [(report?_of_ne_fault hnone).2]
      rfl

/-- **The events of a step are those that its answer calls for**, and they have all their keys. -/
theorem step_reports (s : Session) (step : Step) :
    (s.step step).events.map Event.report = (step.report? (s.step step).answer).toList ∧
      ∀ e ∈ (s.step step).events, e.Complete := by
  cases step with
  | setFormula text declared =>
      rw [Session.step, withFormula]
      split
      · exact ⟨rfl, List.forall_mem_singleton.2 ⟨rfl, rfl⟩⟩
      · rename_i fault _
        cases huser : fault.isUserError with
        | false => simp [Step.report?, huser]
        | true =>
            simp only [Step.report?, huser, if_true]
            exact ⟨rfl, List.forall_mem_singleton.2 ⟨rfl, rfl⟩⟩
  | setMode mode => exact ⟨rfl, List.forall_mem_singleton.2 ⟨rfl, rfl⟩⟩
  | calculate =>
      have hanswer : (s.step .calculate).answer =
          s.evaluate.1.bind fun x => .ok (.number x) := by
        simp only [Session.step]
        cases s.evaluate.1 <;> rfl
      rw [hanswer]
      exact s.evaluate_reports (.inl rfl) _ fun x fault h => by cases h
  | calculateWhole =>
      have hanswer : (s.step .calculateWhole).answer = s.evaluate.1.bind fun x =>
          ((Number.toWhole x).map .whole).mapError .conversion := by
        simp only [Session.step]
        cases s.evaluate.1 with
        | error refusal => rfl
        | ok x =>
            simp only [Except.bind]
            cases Number.toWhole x <;> rfl
      rw [hanswer]
      refine s.evaluate_reports (.inr rfl) _ fun x fault h => ?_
      cases hwhole : Number.toWhole x <;> rw [hwhole] at h <;> cases h
  | put name text =>
      rw [Session.step]
      split <;> exact ⟨rfl, fun e he => absurd he List.not_mem_nil⟩
  | judge text declared =>
      rw [Session.step]
      split <;> exact ⟨rfl, fun e he => absurd he List.not_mem_nil⟩
  | restart | adopt | get | listVariables | remove | showText | summarize | showFormula =>
      exact ⟨rfl, fun e he => absurd he List.not_mem_nil⟩

/-- A step leaves one event at most. -/
theorem length_step_events_le (s : Session) (step : Step) : (s.step step).events.length ≤ 1 := by
  have hlength := congrArg List.length (s.step_reports step).1
  rw [List.length_map] at hlength
  rw [hlength]
  cases step.report? (s.step step).answer <;> simp

/-! ### Sessions -/

/-- **A session is played in parts**: the steps that are left are played in the session after those
that were taken. -/
theorem playOn_append {m : Type → Type} [Monad m] [LawfulMonad m] (disk : Disk m)
    (sink : Option Sink) (s : Session) (steps more : List Step) :
    s.playOn disk sink (steps ++ more) = (do
      let turns ← s.playOn disk sink steps
      let rest ← (s.after steps).playOn disk sink more
      return turns ++ rest) := by
  induction steps generalizing s with
  | nil => simp [playOn, after]
  | cons step rest ih => simp [playOn, ih, after]

/-- A session leaves a sink that works usable. -/
theorem usable_playOn {σ : Type} {disk : Disk (StateM σ)} {sink : Sink} {usable : σ → Prop}
    {log : σ → Log} (h : sink.Works disk usable log) {w : σ} (hw : usable w) (s : Session)
    (steps : List Step) : usable (s.playOn disk (some sink) steps w).2 := by
  rw [playOn_eq]
  exact h.usable_emitAll hw _

/-- **One more step is recorded behind the steps before it.** -/
theorem playOn_take_succ {σ : Type} (disk : Disk (StateM σ)) (sink : Option Sink) (s : Session)
    {steps : List Step} {i : ℕ} (hi : i < steps.length) (w : σ) :
    (s.playOn disk sink (steps.take (i + 1)) w).2 =
      (Sink.emitAll disk sink ((s.after (steps.take i)).step steps[i]).events
        (s.playOn disk sink (steps.take i) w).2).2 := by
  have hevents : (((s.after (steps.take i)).play [steps[i]]).flatMap Turn.events) =
      ((s.after (steps.take i)).step steps[i]).events := by
    simp [play]
  rw [List.take_succ_eq_append_getElem hi, playOn_append, playOn_eq disk sink (s.after _), hevents]
  rfl

end Session

end Formulary
