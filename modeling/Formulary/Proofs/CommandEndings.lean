import Formulary.CommandLine.Run
import Formulary.Proofs.Contradictions

/-!
# How an Evaluation From the Command Line Ends

The command that evaluates a formula goes through the configuration, the log, the assignments, the
text of the formula and its value, and each of these has faults of its own. Most of them are turned
into a message for the user. This module proves which are not: the settings of the log are looked at
after the configuration was accepted, and what is wrong with them is not turned into a message, and
a text can hold a function that the builder stumbles over. Apart from these the command ends with
the value of the formula or with a message, unless an aggregate of the formula never ends.

## Conventions

A disk is **steady** if looking at it leaves it as it is. The configuration that a command loads,
and the directory that its log counts from, are those at the start (`Loads`); a path that leads
nowhere and a configuration that is refused are left aside.

The format of the configuration file and the generator of samples are any. Nothing is asked of
them, since the endings depend on the configuration that was loaded and on the stream that the
generator gives for the seed of the command.

An ending is **reported** if it is a value or a message. An endless aggregate has no ending at all
on a machine; here it is one of the crashes.

## Main results

* `load_lift`, `openLog_lift`, `emit_lift`: using a disk does not end a command by itself.
* `Loads.ends`: the log decides before everything else, and later it has no part in the ending.
* `evaluate_reported_iff`: when an evaluation shows a value, and when it is reported at all.
* `evaluate_tail_bytes`: an accepted configuration whose log settings are not reported.
-/

namespace Formulary

/-! ### Disks that are looked at -/

/-- Whether a disk is **steady**: looking at it leaves it as it is. -/
structure Disk.Steady {σ : Type} (disk : Disk (StateM σ)) : Prop where
  kind (p : Path) (w : σ) : (disk.kind p w).2 = w
  read (p : Path) (w : σ) : (disk.read p w).2 = w

/-- A file tree is steady. -/
theorem FileTree.steady (time : String) : (FileTree.disk time).Steady where
  kind _ _ := rfl
  read _ _ := rfl

/-- Two steps that leave the disk as it is leave it so together. -/
theorem bind_steady {σ α β : Type} {x : StateM σ α} {f : α → StateM σ β}
    (hx : ∀ w, (x w).2 = w) (hf : ∀ a w, (f a w).2 = w) (w : σ) : ((x >>= f) w).2 = w :=
  (hf (x w).1 (x w).2).trans (hx w)

/-- Loading a configuration leaves a steady disk as it is. -/
theorem Disk.Steady.load {σ : Type} {disk : Disk (StateM σ)} (h : disk.Steady)
    (format : Document.Format) (path : Path) (w : σ) :
    (Config.load format disk path w).2 = w := by
  refine bind_steady (h.kind path) (fun kind => bind_steady (h.read _) fun found w => ?_) w
  rcases found with fault | bytes
  · cases fault <;> rfl
  · rfl

namespace CommandLine

/-! ### Lifted computations -/

section Lifted

variable {m : Type → Type} [Monad m] [LawfulMonad m]

/-- A command whose parts are lifted computations is one itself. -/
theorem bind_eq_lift {α β : Type} {x : Command m α} {f : α → Command m β} {y : m α} {g : α → m β}
    (hx : x = ExceptT.lift y) (hf : ∀ a, f a = ExceptT.lift (g a)) :
    x >>= f = ExceptT.lift (y >>= g) := by
  apply ExceptT.ext
  rw [hx, ExceptT.run_bind_lift, ExceptT.run_lift, map_bind]
  congr 1
  funext a
  rw [hf a, ExceptT.run_lift]

/-- A value alone is a lifted computation. -/
theorem pure_eq_lift {α : Type} (a : α) : (pure a : Command m α) = ExceptT.lift (pure a) := by
  apply ExceptT.ext
  rw [ExceptT.run_pure, ExceptT.run_lift, map_pure]

/-- A command loads a configuration as any computation does. -/
theorem load_lift (format : Document.Format) (disk : Disk m) (path : Path) :
    (Config.load format disk.lift path : Command m _) =
      ExceptT.lift (Config.load format disk path) := by
  refine bind_eq_lift rfl fun kind => bind_eq_lift rfl fun found => ?_
  rcases found with fault | bytes
  · cases fault <;> exact pure_eq_lift _
  · exact pure_eq_lift _

/-- A command opens a log as any computation does. -/
theorem openLog_lift (disk : Disk m) (config : Config) (base : Option Path) :
    (config.openLog disk.lift base : Command m _) = ExceptT.lift (config.openLog disk base) := by
  unfold Config.openLog
  rcases config.sink? base with fault | sink
  · exact pure_eq_lift _
  cases sink with
  | none => exact pure_eq_lift _
  | some sink =>
      refine bind_eq_lift (bind_eq_lift rfl fun made => ?_) fun opened => ?_
      · cases made <;> exact pure_eq_lift _
      · cases opened <;> exact pure_eq_lift _

/-- A command records an event as any computation does. -/
theorem emit_lift (disk : Disk m) (sink : Option Sink) (e : Event) :
    (Sink.emit disk.lift sink e : Command m Unit) = ExceptT.lift (Sink.emit disk sink e) := by
  cases sink with
  | none => exact pure_eq_lift _
  | some s => exact bind_eq_lift (bind_eq_lift rfl fun _ => rfl) fun _ => pure_eq_lift _

/-- A command records events as any computation does. -/
theorem emitAll_lift (disk : Disk m) (sink : Option Sink) (es : List Event) :
    (Sink.emitAll disk.lift sink es : Command m Unit) =
      ExceptT.lift (Sink.emitAll disk sink es) := by
  induction es with
  | nil => exact pure_eq_lift _
  | cons e rest ih => exact bind_eq_lift (emit_lift disk sink e) fun _ => ih

end Lifted

/-! ### Runs -/

section Runs

variable {σ α β : Type} {format : Document.Format} {disk : Disk (StateM σ)}

/-- A computation goes on with the value and the state of its first part. -/
theorem bind_apply (x : StateM σ α) (f : α → StateM σ β) (w : σ) :
    (x >>= f) w = f (x w).1 (x w).2 :=
  rfl

/-- A lifted computation does not end a command. -/
theorem run_lift (x : StateM σ α) (w : σ) :
    (ExceptT.lift x : Command (StateM σ) α).run w = (.ok (x w).1, (x w).2) :=
  rfl

/-- A command goes on with the value of its first part. -/
theorem run_bind_ok {x : Command (StateM σ) α} {f : α → Command (StateM σ) β} {w next : σ} {a : α}
    (h : x.run w = (.ok a, next)) : (x >>= f).run w = (f a).run next := by
  show (ExceptT.bindCont f (x.run w).1 : StateM σ _) (x.run w).2 = _
  rw [h]
  rfl

/-- A command ends where its first part ends early. -/
theorem run_bind_error {x : Command (StateM σ) α} {f : α → Command (StateM σ) β} {w next : σ}
    {e : Ending} (h : x.run w = (.error e, next)) : (x >>= f).run w = (.error e, next) := by
  show (ExceptT.bindCont f (x.run w).1 : StateM σ _) (x.run w).2 = _
  rw [h]
  rfl

/-- A command ends as its run does. -/
theorem ending_eq (command : Command (StateM σ) String) (w : σ) :
    (command.ending w).1 =
      match (command.run w).1 with
      | .ok output => .done output
      | .error ending => ending := by
  show ((match (command.run w).1 with
    | .ok output => pure (Ending.done output)
    | .error ending => pure ending : StateM σ Ending) (command.run w).2).1 = _
  cases (command.run w).1 <;> rfl

/-- Recording events does not end a command, whatever becomes of the records. -/
theorem run_emitAll (disk : Disk (StateM σ)) (sink : Option Sink) (es : List Event) (w : σ) :
    (Sink.emitAll disk.lift sink es : Command (StateM σ) Unit).run w =
      (.ok (), (Sink.emitAll disk sink es w).2) := by
  rw [emitAll_lift, run_lift]

/-- Recording an event does not end a command, whatever becomes of the record. -/
theorem run_emit (disk : Disk (StateM σ)) (sink : Option Sink) (e : Event) (w : σ) :
    (Sink.emit disk.lift sink e : Command (StateM σ) Unit).run w =
      (.ok (), (Sink.emit disk sink e w).2) := by
  rw [emit_lift, run_lift]

/-! ### Configurations that are loaded -/

/-- The configuration that a command **loads**, and the directory that its log counts from. -/
inductive Loads (format : Document.Format) (disk : Disk (StateM σ)) (w : σ) :
    Option String → Config → Option Path → Prop
  | default : Loads format disk w none {} none
  | file {text : String} {kind : EntryKind} {config : Config} (hne : text ≠ "")
      (hkind : (disk.kind (Path.ofString text) w).1 = some kind)
      (hload : (Config.load format disk (Path.ofString text) w).1 = .ok config) :
      Loads format disk w (some text) config
        (some (if kind = .directory then Path.ofString text else (Path.ofString text).parent))

/-- Looking at a steady disk neither ends a command nor changes the disk. -/
theorem run_kind (hdisk : disk.Steady) (path : Path) (w : σ) :
    (disk.lift.kind path : Command (StateM σ) _).run w = (.ok (disk.kind path w).1, w) := by
  show (ExceptT.lift (disk.kind path) : Command (StateM σ) _).run w = _
  rw [run_lift, hdisk.kind]

/-- A path that leads somewhere passes. -/
theorem Loads.run_requireConfig (hdisk : disk.Steady) {w : σ} {path : Option String}
    {config : Config} {base : Option Path} (h : Loads format disk w path config base) :
    (requireConfig disk.lift path : Command (StateM σ) Unit).run w = (.ok (), w) := by
  cases h with
  | default => rfl
  | @file text kind _ hne hkind hload =>
      have hlook := run_kind hdisk (Path.ofString text) w
      rw [hkind] at hlook
      unfold requireConfig kindOf
      dsimp only
      rw [if_neg (by simpa using hne), run_bind_ok hlook]
      rfl

/-- With a configuration that is loaded, a command goes on if the log opens, and ends else. -/
theorem Loads.run_configure (hdisk : disk.Steady) {w : σ} {path : Option String}
    {config : Config} {base : Option Path} (h : Loads format disk w path config base) :
    (configure format disk.lift path : Command (StateM σ) _).run w =
      match config.openLog disk base w with
      | (.ok sink, next) => (.ok (config, sink), next)
      | (.error fault, next) => (.error (endingOfLog fault), next) := by
  cases h with
  | default => rfl
  | @file text kind _ hne hkind hload =>
      have hlook := run_kind hdisk (Path.ofString text) w
      have hconfig : (Config.load format disk.lift (Path.ofString text) :
          Command (StateM σ) _).run w = (.ok (.ok config), w) := by
        rw [load_lift, run_lift, hload, hdisk.load]
      rw [hkind] at hlook
      unfold configure
      dsimp only
      rw [run_bind_ok hlook, run_bind_ok hconfig]
      simp only [Option.some_beq_some, beq_iff_eq]
      generalize (if kind = .directory then Path.ofString text
        else (Path.ofString text).parent) = base
      rw [openLog_lift, run_bind_ok (run_lift _ _)]
      rcases config.openLog disk (some base) w with ⟨fault | sink, next⟩ <;> rfl

/-! ### Evaluations -/

/-- What an evaluation **works with**: the names that the formula may use, the variables of the
configuration, the mode of arithmetic and the samples. -/
structure Setting where
  names : Option (List String)
  store : Store
  mode : Mode
  samples : Samples

/-- The setting of a request with its configuration. -/
def Setting.ofRequest (config : Config) (generator : Generator) (declared : List String)
    (strict : Option Bool) (seed : Option Int) : Setting where
  names := if declared.isEmpty then config.declared else some declared
  store := config.store
  mode := Mode.ofBool (strict.getD config.strict)
  samples := generator seed

/-- What a formula evaluates to on the variables of the configuration, overridden by those that are
assigned. -/
def Setting.value (s : Setting) (assigned : Store) (f : Formula) : Except Stop Float :=
  (f.evaluate (s.store.putAll assigned.entries) s.mode s.samples).1

/-- How an evaluation **ends** once the log is open. -/
inductive Ends (s : Setting) (formula : String) (items : List String) : Ending → Prop
  | unassigned {message : String} (ha : assignments items = .error message) :
      Ends s formula items (.failed message)
  | rejected {assigned : Store} {fault : Fault} (ha : assignments items = .ok assigned)
      (hf : Formula.ofText formula s.names = .error fault) :
      Ends s formula items (endingOf fault)
  | value {assigned : Store} {f : Formula} {x : Float} (ha : assignments items = .ok assigned)
      (hf : Formula.ofText formula s.names = .ok f) (hx : s.value assigned f = .ok x) :
      Ends s formula items (.done (Number.standard x ++ "\n"))
  | missing {assigned : Store} {f : Formula} {name : String} {available : List String}
      (ha : assignments items = .ok assigned) (hf : Formula.ofText formula s.names = .ok f)
      (hx : s.value assigned f = .error (.unbound name available)) :
      Ends s formula items (endingOf (.unknownVariable name available))
  | endless {assigned : Store} {f : Formula} (ha : assignments items = .ok assigned)
      (hf : Formula.ofText formula s.names = .ok f) (hx : s.value assigned f = .error .endless) :
      Ends s formula items (.crashed .endless)

section Evaluations

variable {w : σ} {path : Option String} {config : Config} {base : Option Path}
  (generator : Generator)
  (formula : String) (items declared : List String) (strict : Option Bool) (seed : Option Int)

/-- **An evaluation crashes if the log does not open.** Else the log has no part in the ending,
whatever becomes of the records. -/
theorem Loads.ends (hdisk : disk.Steady) (h : Loads format disk w path config base) :
    let ending :=
      ((Request.evaluate formula items declared strict path seed).run format generator disk w).1
    (∃ fault, (config.openLog disk base w).1 = .error fault ∧ ending = endingOfLog fault) ∨
      (∃ sink, (config.openLog disk base w).1 = .ok sink) ∧
        Ends (.ofRequest config generator declared strict seed) formula items ending := by
  have hconfigure := h.run_configure hdisk
  intro ending
  have hending : ending = ((CommandLine.evaluate format disk.lift (generator seed) formula items
    declared strict path).ending w).1 := rfl
  rw [hending, ending_eq]
  unfold CommandLine.evaluate
  rw [run_bind_ok (h.run_requireConfig hdisk)]
  rcases hopen : config.openLog disk base w with ⟨fault | sink, middle⟩ <;>
    rw [hopen] at hconfigure
  · exact .inl ⟨fault, rfl, by rw [run_bind_error hconfigure]⟩
  refine .inr ⟨⟨sink, rfl⟩, ?_⟩
  rw [run_bind_ok hconfigure]
  cases ha : assignments items with
  | error message => exact .unassigned ha
  | ok assigned =>
      dsimp only
      rw [run_bind_ok (run_emitAll disk sink _ middle)]
      unfold Session.withFormula
      cases hf : Formula.ofText formula
          (if declared.isEmpty then config.declared else some declared) with
      | error fault => exact .rejected ha hf
      | ok f =>
          dsimp only [Session.evaluate]
          generalize hrun : f.run _ _ _ = outcome
          have hx := congrArg Prod.fst hrun
          rcases outcome with ⟨(⟨name, available⟩ | _) | x, after⟩ <;>
            rw [run_bind_ok (run_emitAll disk sink _ _)]
          · exact .missing ha hf hx
          · exact .endless ha hf hx
          · dsimp only
            rw [run_bind_ok (run_emit disk sink _ _)]
            exact .value ha hf hx

end Evaluations

/-! ### Logs that open -/

/-- Whether the **log opens**: the settings describe a sink or none at all, and the directory of the
sink can be made. -/
def LogOpens (disk : Disk (StateM σ)) (w : σ) (config : Config) (base : Option Path) : Prop :=
  ∃ sink, config.sink? base = .ok sink ∧
    ∀ s ∈ sink, (disk.makeDirectory s.directory w).1 = .ok ()

/-- A sink opens if its directory can be made. -/
theorem opened_eq (disk : Disk (StateM σ)) (sink : Sink) (w : σ) :
    (sink.opened disk w).1 = (disk.makeDirectory sink.directory w).1.map fun _ => sink := by
  unfold Sink.opened
  rw [bind_apply]
  cases (disk.makeDirectory sink.directory w).1 <;> rfl

/-- The log opens if its settings convert and its directory, if it has one, can be made. -/
theorem openLog_eq (disk : Disk (StateM σ)) (config : Config) (base : Option Path) (w : σ) :
    (config.openLog disk base w).1 =
      match config.sink? base with
      | .error fault => .error (.conversion fault)
      | .ok none => .ok none
      | .ok (some sink) =>
        match (disk.makeDirectory sink.directory w).1 with
        | .ok _ => .ok (some sink)
        | .error fault => .error (.disk fault) := by
  unfold Config.openLog
  rcases config.sink? base with fault | sink
  · rfl
  cases sink with
  | none => rfl
  | some sink =>
      dsimp only
      rw [bind_apply, opened_eq]
      cases (disk.makeDirectory sink.directory w).1 <;> rfl

/-- The settings and the disk say whether the log opens. -/
theorem exists_openLog_iff {w : σ} {config : Config} {base : Option Path} :
    (∃ sink, (config.openLog disk base w).1 = .ok sink) ↔ LogOpens disk w config base := by
  rw [openLog_eq, LogOpens]
  rcases config.sink? base with fault | sink
  · simp
  cases sink with
  | none => simp
  | some sink => cases hmade : (disk.makeDirectory sink.directory w).1 <;> simp [hmade]

/-! ### A configuration in the root -/

/-- A directory with a configuration file is loaded as the bytes of the file say. -/
theorem load_eq_ofBytes (h : disk.Steady) {path : Path} {w : σ} {bytes : List UInt8}
    (hkind : (disk.kind path w).1 = some .directory)
    (hread : (disk.read (path.child Config.fileName) w).1 = .ok bytes) :
    (Config.load format disk path w).1 =
      Config.ofBytes format (path.child Config.fileName).toString bytes := by
  unfold Config.load
  rw [bind_apply, hkind]
  dsimp only
  rw [bind_apply, h.kind, hread]
  rfl

/-- The file tree with a **configuration file** in its root. -/
def configured (text : String) : FileTree :=
  ⟨[(⟨true, [Config.fileName]⟩, .file (Text.encodeUtf8 text))]⟩

/-- The configuration file in the root is loaded as the JSON value that it holds. -/
theorem loads_configured {text : String} {value : Json} {config : Config} (time : String)
    (htext : Text.decodeUtf8 (Text.encodeUtf8 text) = text.toList)
    (hblank : text.toList.all Text.isBlank = false)
    (hvalue : Json.read text.toList = .ok value)
    (hconfig : Config.ofDocument "/rtformula.yaml" (.ofJson value) = .ok config) :
    Loads .json (FileTree.disk time) (configured text) (some "/") config (some ⟨true, []⟩) := by
  have hroot : Path.ofString "/" = ⟨true, []⟩ := by decide +kernel
  have hdocument : Document.Format.json.read (Text.encodeUtf8 text) = .ok (.ofJson value) := by
    show Document.ofText (Text.decodeUtf8 (Text.encodeUtf8 text)) = _
    rw [htext, Document.ofText, hblank, hvalue]
    rfl
  have hload : (Config.load .json (FileTree.disk time) (Path.ofString "/") (configured text)).1 =
      .ok config := by
    have hbytes : (Config.load .json (FileTree.disk time) ⟨true, []⟩ (configured text)).1 =
        Config.ofBytes .json "/rtformula.yaml" (Text.encodeUtf8 text) :=
      load_eq_ofBytes (FileTree.steady time) rfl rfl
    rw [hroot, hbytes, Config.ofBytes, hdocument]
    exact hconfig
  have hloads : Loads .json (FileTree.disk time) (configured text) (some "/") config
      (some (if EntryKind.directory = .directory then Path.ofString "/"
        else (Path.ofString "/").parent)) :=
    .file (by decide) (by rw [hroot]; rfl) hload
  rwa [if_pos rfl, hroot] at hloads

/-! ### Endings that are reported -/

/-- Whether an ending is **reported** to the user: a value or a message. -/
def Ending.Reported (e : Ending) : Prop :=
  (∃ output, e = .done output) ∨ ∃ message, e = .failed message

/-- A crash is not reported. -/
theorem not_reported_crashed (cause : Crash) : ¬ (Ending.crashed cause).Reported := by
  simp [Ending.Reported]

/-- A log that does not open is a crash. -/
theorem exists_endingOfLog_eq (fault : Config.LogFault) :
    ∃ cause, endingOfLog fault = .crashed cause := by
  cases fault <;> exact ⟨_, rfl⟩

/-- A fault is a message if its author is to blame, and a crash else. -/
theorem endingOf_cases (fault : Fault) :
    (fault.isUserError = true ∧ ∃ message, endingOf fault = .failed message) ∨
      fault.isUserError = false ∧ endingOf fault = .crashed .contradiction := by
  cases huser : fault.isUserError <;> simp [endingOf, huser]

/-- A fault is reported if its author is to blame. -/
theorem reported_endingOf_iff {fault : Fault} :
    (endingOf fault).Reported ↔ fault.isUserError = true := by
  rcases endingOf_cases fault with ⟨huser, message, heq⟩ | ⟨huser, heq⟩
  · exact iff_of_true (.inr ⟨message, heq⟩) huser
  · rw [heq, huser]
    exact iff_of_false (not_reported_crashed _) Bool.false_ne_true

/-- An evaluation is done with the value of the formula, and only with it. -/
theorem Ends.eq_done_iff {s : Setting} {formula : String} {items : List String} {ending : Ending}
    (h : Ends s formula items ending) {output : String} :
    ending = .done output ↔
      ∃ assigned f x, assignments items = .ok assigned ∧ Formula.ofText formula s.names = .ok f ∧
        s.value assigned f = .ok x ∧ output = Number.standard x ++ "\n" := by
  have hne (fault : Fault) : endingOf fault ≠ .done output := by
    rcases endingOf_cases fault with ⟨-, message, heq⟩ | ⟨-, heq⟩ <;> simp [heq]
  constructor
  · intro heq
    cases h with
    | unassigned | endless => cases heq
    | rejected | missing => exact absurd heq (hne _)
    | value ha hf hx =>
        cases heq
        exact ⟨_, _, _, ha, hf, hx, rfl⟩
  · rintro ⟨assigned, f, x, ha, hf, hx, rfl⟩
    cases h with
    | unassigned ha' => rw [ha] at ha'; cases ha'
    | rejected ha' hf' => rw [hf] at hf'; cases hf'
    | value ha' hf' hx' =>
        cases ha.symm.trans ha'
        cases hf.symm.trans hf'
        cases hx.symm.trans hx'
        rfl
    | missing ha' hf' hx' | endless ha' hf' hx' =>
        cases ha.symm.trans ha'
        cases hf.symm.trans hf'
        cases hx.symm.trans hx'

/-- An evaluation is reported unless the builder stumbles or an aggregate is endless. -/
theorem Ends.reported_iff {s : Setting} {formula : String} {items : List String} {ending : Ending}
    (h : Ends s formula items ending) :
    ending.Reported ↔ ∀ assigned, assignments items = .ok assigned →
      (∀ t, ¬ Token.StumblesOver formula s.names t) ∧
        ∀ f, Formula.ofText formula s.names = .ok f → s.value assigned f ≠ .error .endless := by
  cases h with
  | unassigned ha => simp [ha, Ending.Reported]
  | rejected ha hf =>
      rw [reported_endingOf_iff, Token.isUserError_iff_not_stumblesOver hf]
      simp [ha, hf]
  | value ha hf hx => simp [ha, hf, hx, Ending.Reported, Token.not_stumblesOver_of_ofText hf]
  | missing ha hf hx =>
      rw [reported_endingOf_iff]
      simp [ha, hf, hx, Token.not_stumblesOver_of_ofText hf, Fault.isUserError]
  | endless ha hf hx => simp [ha, hf, hx, Ending.Reported]

/-- An evaluation that is not reported crashes. -/
theorem Ends.reported_or_crashed {s : Setting} {formula : String} {items : List String}
    {ending : Ending} (h : Ends s formula items ending) :
    ending.Reported ∨ ∃ cause, ending = .crashed cause := by
  cases h with
  | unassigned => exact .inl (.inr ⟨_, rfl⟩)
  | value => exact .inl (.inl ⟨_, rfl⟩)
  | rejected | missing =>
      rcases endingOf_cases _ with ⟨-, hmessage⟩ | ⟨-, hcrash⟩
      · exact .inl (.inr hmessage)
      · exact .inr ⟨_, hcrash⟩
  | endless => exact .inr ⟨_, rfl⟩

/-- **When an evaluation is reported.** It shows a value exactly if the log opens, the assignments
and the text are good and the formula has that value on the variables. It shows a value or a message
exactly if the log opens, and either an assignment is bad or the builder stumbles over no token and
no aggregate is endless. Otherwise it crashes. -/
theorem evaluate_reported_iff (hdisk : disk.Steady) {w : σ} {path : Option String}
    {config : Config} {base : Option Path} (h : Loads format disk w path config base)
    (generator : Generator) (formula : String) (items declared : List String)
    (strict : Option Bool) (seed : Option Int) :
    let setting := Setting.ofRequest config generator declared strict seed
    let ending :=
      ((Request.evaluate formula items declared strict path seed).run format generator disk w).1
    (∀ output, ending = .done output ↔ LogOpens disk w config base ∧
      ∃ assigned f x, assignments items = .ok assigned ∧
        Formula.ofText formula setting.names = .ok f ∧ setting.value assigned f = .ok x ∧
        output = Number.standard x ++ "\n") ∧
    (ending.Reported ↔
      LogOpens disk w config base ∧ ∀ assigned, assignments items = .ok assigned →
        (∀ t, ¬ Token.StumblesOver formula setting.names t) ∧
        ∀ f, Formula.ofText formula setting.names = .ok f →
          setting.value assigned f ≠ .error .endless) ∧
    (ending.Reported ∨ ∃ cause, ending = .crashed cause) := by
  intro setting ending
  rcases h.ends generator formula items declared strict seed hdisk with
    ⟨fault, hfault, hending⟩ | ⟨hopen, hends⟩
  · have hclosed : ¬ LogOpens disk w config base := by
      rw [← exists_openLog_iff, hfault]
      simp
    obtain ⟨cause, hcause⟩ := exists_endingOfLog_eq fault
    have hcrash : ending = .crashed cause := hending.trans hcause
    simp [hcrash, hclosed, not_reported_crashed]
  · have hopens := exists_openLog_iff.1 hopen
    refine ⟨fun output => ?_, ?_, ?_⟩
    · rw [and_iff_right hopens]
      exact hends.eq_done_iff
    · rw [and_iff_right hopens]
      exact hends.reported_iff
    · exact hends.reported_or_crashed

end Runs

/-- With a log in a directory that can be made, the value of a formula is shown. -/
theorem evaluate_reported_iff_logged :
    ∃ x, ((Request.evaluate "pi" [] [] none (some "/") none).run .json (fun _ _ => 0.5)
      (FileTree.disk "") (configured "\x7b\"log_dir\":\"logs\"\x7d")).1 =
        .done (Number.standard x ++ "\n") := by
  have hvalue : Json.read "\x7b\"log_dir\":\"logs\"\x7d".toList =
      .ok (.object [("log_dir", .text "logs")]) := by
    cbv
  have hloads := loads_configured "" (by decide +kernel) (by decide +kernel) hvalue rfl
  have htokens : Token.ofText "pi" = .ok [⟨"pi", .operand, some 1⟩] := by
    decide +kernel
  have hformula : Formula.ofText "pi" none = .ok (.var "pi") := by
    simp only [Formula.ofText, htokens]
    rfl
  have hreported := evaluate_reported_iff (FileTree.steady "") hloads (fun _ _ => 0.5) "pi" [] []
    none none
  exact ⟨_, (hreported.1 _).2 ⟨⟨_, rfl, by simp; rfl⟩, _, _, _, rfl, hformula, rfl, rfl⟩⟩

/-- A number of bytes that is none is accepted with the configuration, and then not reported. -/
theorem evaluate_tail_bytes : ¬ ∀ (format : Document.Format) (generator : Generator)
    (tree : FileTree) (path : Option String) (config : Config) (base : Option Path)
    (formula : String) (items declared : List String) (strict : Option Bool) (seed : Option Int),
    Loads format (FileTree.disk "") tree path config base →
      ((Request.evaluate formula items declared strict path seed).run format generator
        (FileTree.disk "") tree).1.Reported := by
  intro hall
  have hvalue : Json.read
      "\x7b\"log_dir\":\"logs\",\"logging_tail_bytes\":\"zz\"\x7d".toList =
      .ok (.object [("log_dir", .text "logs"), ("logging_tail_bytes", .text "zz")]) := by
    cbv
  have hloads := loads_configured "" (by decide +kernel) (by decide +kernel) hvalue rfl
  have hreported := hall _ (fun _ _ => 0.5) _ _ _ _ "1" [] [] none none hloads
  rcases hloads.ends (fun _ _ => 0.5) "1" [] [] none none (FileTree.steady "") with
    ⟨fault, -, hending⟩ | ⟨hopen, -⟩
  · obtain ⟨cause, hcrash⟩ := exists_endingOfLog_eq fault
    rw [hending, hcrash] at hreported
    exact not_reported_crashed cause hreported
  · obtain ⟨sink, hsink, -⟩ := exists_openLog_iff.1 hopen
    cases hsink

end CommandLine

end Formulary
