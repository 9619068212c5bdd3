import Formulary.Proofs.LogWindow
import Formulary.Proofs.Truncation

/-!
# What a Session Leaves in the Log

A sink that works keeps the events of a session as bytes. This module reads these bytes back: behind
all earlier bytes, each step leaves whole lines of JSON, one for each report that is due for its
answer and none otherwise, and no sink has a part in the answers.

## Conventions

Bytes **hold** records if they are lines that read as the records, each with a line feed behind it,
and if a reader that looks at all of them finds the records.

A record **reports** what is due at a time if its fields say so in the words of the log: the time,
the kind, the level and the code, and a context with the required keys and without a note of missing
ones.

## Main results

* `Log.holds_ofEntries`: the lines of entries hold their records.
* `Event.Complete.reports`: the record of an event that has its keys reports it.
* `Session.step_wellFormed`: the events of a step can be read back.
* `Session.playOn_records`: what a session leaves in the log of a sink that works.
-/

namespace Formulary

open Text

/-! ### Contexts -/

namespace Json

/-- Cutting long texts keeps a value well formed. -/
theorem WellFormed.truncate {v : Json} (h : v.WellFormed) : v.truncate.WellFormed := by
  induction h with
  | null => exact .null
  | bool b => exact .bool b
  | whole h => exact .whole h
  | real x => exact .real x
  | text s => exact .text _
  | array _ ih =>
      rw [Json.truncate, truncateItems_eq_map]
      exact .array (List.forall_mem_map.2 ih)
  | @object fields hnames _ ih =>
      rw [Json.truncate, truncateFields_eq_map]
      refine .object ?_ (List.forall_mem_map.2 ih)
      rw [Fields.names, List.map_map]
      exact hnames

/-- A name leads to a value if there is a field with it. -/
theorem isSome_field?_object (fields : Fields) (name : String) :
    ((Json.object fields).field? name).isSome = Fields.has fields name := by
  rw [field?, Fields.get?]
  induction fields with
  | nil => rfl
  | cons field rest ih =>
      rw [Fields.has] at ih ⊢
      rw [List.any_cons, ← ih, List.lookup_cons, Bool.beq_comm]
      cases field.1 == name <;> rfl

end Json

/-! ### Records -/

namespace Log

/-- Whether bytes **hold** records: they are lines that read as the records, each with a line feed
behind it, and a reader that looks at all of them finds the records, the latest first. -/
structure Holds (bytes : Log) (found : List Json) : Prop where
  lines : ∃ ls : List (List UInt8), bytes = ls.flatMap (· ++ [lineFeed]) ∧
    List.Forall₂ (fun l record => lineFeed ∉ l ∧ Json.read (decodeUtf8 l) = .ok record) ls found
  records (tailBytes : ℤ) (h : bytes.length ≤ tailBytes) :
    records tailBytes bytes = .ok found.reverse

/-- Bytes that hold no records are none. -/
theorem Holds.eq_nil {bytes : Log} (h : Holds bytes []) : bytes = [] := by
  obtain ⟨ls, rfl, hls⟩ := h.lines
  rw [List.forall₂_nil_right_iff.1 hls, List.flatMap_nil]

/-- **The lines of entries hold their records.** -/
theorem holds_ofEntries {entries : List Entry} (h : ∀ entry ∈ entries, entry.WellFormed) :
    Holds (ofEntries entries) (entries.map Entry.found) where
  lines := by
    refine ⟨_, (ofEntries_eq h).2, ?_⟩
    rw [List.forall₂_map_left_iff, List.forall₂_map_right_iff, List.forall₂_same]
    intro entry hentry
    refine ⟨(h entry hentry).lineFeed_not_mem, ?_⟩
    rw [decodeUtf8_asciiBytes fun c hc => ((h entry hentry).spec.1 c hc).1]
    exact (h entry hentry).spec.2
  records tailBytes hsize := by
    obtain ⟨k, hk, hstarts, hwindow⟩ := exists_window h tailBytes
    -- the log is no longer than the window, so the first entry is in it
    have hall : k = 0 ∨ entries.length = 0 := by
      by_contra hne
      have hfirst := (hstarts 0 (by omega)).2 (.inl hsize)
      omega
    rw [records_ofEntries h hwindow, ← List.map_reverse]
    rcases hall with rfl | hnil
    · rfl
    · rw [List.length_eq_zero_iff.1 hnil, List.drop_nil]

end Log

/-- Whether a record **reports** what is due at a time. -/
structure Json.Reports (now : String) (record : Json) (report : Report) : Prop where
  time : record.field? "ts" = some (.text now)
  kind : record.field? "event_type" = some (.text report.kind)
  level : record.field? "level" = some (.text report.level)
  code : record.field? "error_code" = some ((report.code.map Json.text).getD .null)
  keys : ∃ context, record.field? "context" = some context ∧
    (∀ key ∈ report.keys, (context.field? key).isSome = true) ∧
    context.field? "_missing_attribution" = none

namespace Event

/-- **The record of a complete event reports it**, with the fields of its objects in order. -/
theorem Complete.reports {e : Event} (h : e.Complete) (hw : (Json.object e.context).WellFormed)
    (now : String) : Json.Reports now (e.record now).sorted e.report := by
  have hfield := (wellFormed_record hw now).field?_sorted
  have hcontext := hw.field?_sorted
  refine ⟨hfield _, hfield _, hfield _, ?_, (Json.object e.context).sorted, hfield _,
    fun key hkey => ?_, ?_⟩
  · rw [hfield, report]
    have hrecord : (e.record now).field? "error_code" =
        some ((e.code.map Json.text).getD .null) := by
      cases e with
      | mk level kind message context code => cases code <;> rfl
    rw [hrecord]
    cases e.code <;> rfl
  · rw [hcontext, Option.isSome_map, Json.isSome_field?_object]
    have hnone := List.filter_eq_nil_iff.1 h.keys key hkey
    simpa using hnone
  · rw [hcontext, Option.map_eq_none_iff, ← Option.not_isSome_iff_eq_none,
      Json.isSome_field?_object, h.unnoted]
    exact Bool.false_ne_true

/-- A complete event that can be read back can also be read back as it is recorded. -/
theorem Complete.wellFormed_prepared {e : Event} (h : e.Complete)
    (hw : (Json.object e.context).WellFormed) : (Json.object e.prepared.context).WellFormed := by
  rw [h.prepared_eq]
  have hcut := hw.truncate
  rwa [Json.truncate] at hcut

end Event

namespace Session

/-! ### Steps -/

/-- **The events of a step can be read back**: their contexts are well formed. -/
theorem step_wellFormed (s : Session) (step : Step) :
    ∀ e ∈ (s.step step).events, (Json.object e.context).WellFormed := by
  have hformula (text : String) : (Json.object [("formula", .text text)]).WellFormed :=
    .object (by decide : ["formula"].Nodup) (List.forall_mem_singleton.2 (.text _))
  have hnone : ∀ e ∈ ([] : List Event), (Json.object e.context).WellFormed :=
    fun e he => absurd he List.not_mem_nil
  have hevaluate : ∀ e ∈ s.evaluate.2.2, (Json.object e.context).WellFormed := by
    unfold evaluate
    split
    · exact hnone
    · simp only
      split
      · exact hnone
      · exact hnone
      · refine List.forall_mem_singleton.2 (.object (by decide : ["formula", "strict"].Nodup) ?_)
        exact List.forall_mem_cons.2 ⟨.text _, List.forall_mem_singleton.2 (.bool _)⟩
  cases step with
  | setFormula text declared =>
      rw [Session.step, withFormula]
      split
      · refine List.forall_mem_singleton.2 (.object (by decide : ["formula", "rendered"].Nodup) ?_)
        exact List.forall_mem_cons.2 ⟨.text _, List.forall_mem_singleton.2 (.text _)⟩
      · split
        · exact List.forall_mem_singleton.2 (hformula _)
        · exact hnone
  | setMode mode =>
      exact List.forall_mem_singleton.2
        (.object (by decide : ["strict"].Nodup) (List.forall_mem_singleton.2 (.bool _)))
  | calculate | calculateWhole => exact hevaluate
  | put name text =>
      rw [Session.step]
      split <;> exact hnone
  | judge text declared =>
      rw [Session.step]
      split <;> exact hnone
  | restart | adopt | get | listVariables | remove | showText | summarize | showFormula =>
      exact hnone

/-! ### Sessions -/

/-- **What a step leaves in the log**: the bytes of the step hold the record of what is due for its
answer, at the time of the step. -/
theorem step_holds (s : Session) (step : Step) (now : String) :
    ∃ found, Log.Holds ((s.step step).events.flatMap fun e => Log.line e.prepared now) found ∧
      List.Forall₂ (Json.Reports now) found (step.report? (s.step step).answer).toList := by
  obtain ⟨hreports, hcomplete⟩ := s.step_reports step
  have hwellFormed := s.step_wellFormed step
  generalize (s.step step).events = events at hreports hcomplete hwellFormed
  have hentries : ∀ entry ∈ events.map fun e => (e.prepared, now), Log.Entry.WellFormed entry :=
    List.forall_mem_map.2 fun e he => (hcomplete e he).wellFormed_prepared (hwellFormed e he)
  have hholds := Log.holds_ofEntries hentries
  rw [Log.ofEntries, List.flatMap_map, List.map_map] at hholds
  refine ⟨_, hholds, ?_⟩
  rw [← hreports, List.forall₂_map_left_iff, List.forall₂_map_right_iff, List.forall₂_same]
  intro e he
  rw [← (hcomplete e he).prepared.2]
  exact (hcomplete e he).prepared.1.reports
    ((hcomplete e he).wellFormed_prepared (hwellFormed e he)) now

/-- **The log of a session is determined step by step and never influences it.** In a sink that
works, each step appends bytes behind all earlier ones. They hold the record of what is due for the
answer of the step, at the time of the step, and nothing else: if nothing is due, there are none.
The answers and the states are those of the session with any other sink on any other disk, be it
none or one that always fails. -/
theorem playOn_records {σ : Type} {disk : Disk (StateM σ)} {sink : Sink} {usable : σ → Prop}
    {log : σ → Log} (h : sink.Works disk usable log) {w : σ} (hw : usable w) (s : Session)
    (steps : List Step) :
    (∀ (i : ℕ) (hi : i < steps.length),
      let turn := (s.after (steps.take i)).step steps[i]
      let before := (s.playOn disk (some sink) (steps.take i) w).2
      let after := (s.playOn disk (some sink) (steps.take (i + 1)) w).2
      (s.play steps)[i]? = some turn ∧
        ∃ added found, log after = log before ++ added ∧ Log.Holds added found ∧
          List.Forall₂ (Json.Reports (disk.now before).1) found
            (steps[i].report? turn.answer).toList) ∧
      (s.playOn disk (some sink) steps w).1 = s.play steps ∧
      ∀ (τ : Type) (other : Disk (StateM τ)) (choice : Option Sink) (v : τ),
        (s.playOn other choice steps v).1 = (s.playOn disk (some sink) steps w).1 := by
  have hturns {τ : Type} (other : Disk (StateM τ)) (choice : Option Sink) (v : τ) :
      (s.playOn other choice steps v).1 = s.play steps := by
    rw [playOn_eq]
    rfl
  refine ⟨fun i hi => ?_, hturns disk _ w, fun τ other choice v => ?_⟩
  · intro turn before after
    obtain ⟨found, hholds, hfound⟩ :=
      (s.after (steps.take i)).step_holds steps[i] (disk.now before).1
    refine ⟨s.getElem?_play hi, _, found, ?_, hholds, hfound⟩
    have hafter : after = (Sink.emitAll disk (some sink) turn.events before).2 :=
      s.playOn_take_succ disk (some sink) hi w
    rw [hafter]
    -- at most one event is left, so the time of the step is the time of its event
    match turn.events, (s.after (steps.take i)).length_step_events_le steps[i] with
    | [], _ => exact (List.append_nil _).symm
    | [e], _ =>
        obtain ⟨next, hemit, -, hlog⟩ := h.emit (usable_playOn h hw s (steps.take i)) e
        have hsingle : Sink.emitAll disk (some sink) [e] before =
            Sink.emit disk (some sink) e before := rfl
        rw [hsingle, hemit, List.flatMap_singleton]
        exact hlog
  · rw [hturns, hturns]

/-- A session with a sink in a file tree: the mode is chosen, a variable is missing in the middle of
a sum, and then it is set, which is not recorded. -/
theorem playOn_records_missing :
    let sink : Sink := { directory := .ofString "/log" }
    let disk := FileTree.disk "now"
    let t : FileTree := { entries := [(.ofString "/log", .directory)] }
    let f : Formula := .aggregate .sum "i" (.literal 2.0) (.binary .add (.var "i") (.var "y"))
    let s : Session :=
      { formula := some f, store := .ofList [("i", 5.0)], samples := fun _ => 0.5 }
    let steps : List Step := [.setMode .strict, .calculate, .put "y" "1"]
    let world (n : ℕ) : FileTree := (s.playOn disk (some sink) (steps.take n) t).2
    FileTree.Usable sink t ∧
      (∃ added record, FileTree.logAt sink (world 2) = FileTree.logAt sink (world 1) ++ added ∧
        Log.Holds added [record] ∧
        record.Reports "now"
          ⟨"formula_eval_failed", "error", some "unknown_variable", ["formula"]⟩) ∧
      FileTree.logAt sink (world 3) = FileTree.logAt sink (world 2) ∧
      (s.playOn disk none steps t).1 = (s.playOn disk (some sink) steps t).1 := by
  intro sink disk t f s steps world
  have husable : FileTree.Usable sink t := by
    refine ⟨by decide +kernel, by decide +kernel⟩
  obtain ⟨hsteps, -, hothers⟩ := playOn_records (FileTree.works sink "now") husable s steps
  refine ⟨husable, ?_, ?_, hothers _ disk none t⟩
  · obtain ⟨-, added, found, hlog, hholds, hfound⟩ := hsteps 1 (by decide)
    have hdue : steps[1].report? ((s.after (steps.take 1)).step steps[1]).answer =
        some ⟨"formula_eval_failed", "error", some "unknown_variable", ["formula"]⟩ := rfl
    rw [hdue, Option.toList_some, List.forall₂_cons_right_iff] at hfound
    obtain ⟨record, rest, hrecord, hrest, rfl⟩ := hfound
    obtain rfl := List.forall₂_nil_right_iff.1 hrest
    exact ⟨added, record, hlog, hholds, hrecord⟩
  · obtain ⟨-, added, found, hlog, hholds, hfound⟩ := hsteps 2 (by decide)
    have hdue : steps[2].report? ((s.after (steps.take 2)).step steps[2]).answer = none := rfl
    rw [hdue, Option.toList_none, List.forall₂_nil_right_iff] at hfound
    rw [hfound] at hholds
    rw [hholds.eq_nil, List.append_nil] at hlog
    exact hlog

end Session

end Formulary
