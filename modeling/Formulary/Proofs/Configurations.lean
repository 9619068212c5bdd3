import Formulary.Config
import Formulary.Proofs.Documents
import Mathlib.Tactic.Tauto

/-!
# Which Documents Are Configurations

A configuration document is meant to be a mapping, in which the variables are a mapping to numbers
and the declared names a list. It should be refused otherwise, by a fault that says what is wrong
with the document. This module says which documents are taken, which are refused, and what a
document that is taken sets.

Three kinds of documents are treated otherwise than they should be. Values that count as false are
taken for empty mappings whatever they are, so some documents of the wrong shape are taken
(`Document.Overlooked`). The value of a variable may escape its conversion by a fault of another
kind than those that refuse a document (`Document.Unreported`). And a document of the right shape is
refused if a name in it has too many digits to be written as a text (`Document.Overlong`).

## Conventions

Null stands for an empty mapping, and a setting without a value is null: an empty document, and a
document without variables, are of the right shape.

A document may repeat a key. Its first value is the one that counts, except for variables, where it
is the last; two keys with one text are one variable.

## Main results

* `variablesOf_outcome`: what becomes of the variables, one after the other.
* `ofDocument_outcome`: what becomes of a document.
* `asDocumented_iff`: a document is treated as it should be exactly if it is neither
  overlooked nor unreported nor overlong.
-/

namespace Formulary

/-! ### The shape of a document -/

namespace Document

/-- Whether a value is a **mapping** or null. -/
def IsMapping (v : Document) : Prop :=
  v = .null ∨ ∃ entries, v = .mapping entries

/-- Whether a value is a **list** or null. -/
def IsListing (v : Document) : Prop :=
  v = .null ∨ ∃ items, v = .list items

/-- Whether a value is **vacant**: it counts as false although it is neither a mapping nor null. -/
def IsVacant (v : Document) : Prop :=
  v.truthy = false ∧ ¬ v.IsMapping

/-- The **entries** of a mapping. Other values have none. -/
def entries : Document → Entries
  | .mapping entries => entries
  | _ => []

/-- The **items** of a list. Other values have none. -/
def items : Document → List Document
  | .list items => items
  | _ => []

/-- The entries without a name: those whose key is no text. -/
def Entries.unnamed (entries : Entries) : Entries :=
  entries.filter fun entry => (Entries.field? entry).isNone

/-- The **setting** of a name in a document, null if it has none. -/
def setting (d : Document) (name : String) : Document :=
  (d.entries.get? name).getD .null

/-- Whether an entry is **converted** to a variable: its key has the text, and its value the
number. -/
def ConvertsTo (entry : Document × Document) (var : String × Float) : Prop :=
  entry.1.name = .ok var.1 ∧ entry.2.number = .ok var.2

/-- What a value **declares**: no names if it is null, and the texts of its items if it is a
list. -/
inductive Declares : Document → Option (List String) → Prop
  | null : Declares .null none
  | list {items : List Document} {names : List String}
      (h : List.Forall₂ (fun item s => item.name = .ok s) items names) :
      Declares (.list items) (some names)

/-- Whether an entry is the **first that is not converted**: its key is overlong or its value has no
number, and nothing is wrong with the entries before. -/
inductive IsFirstUnconverted (entry : Document × Document) : Entries → Prop
  | here {rest : Entries} (h : entry.1.IsOverlong ∨ ¬ entry.2.HasNumber) :
      IsFirstUnconverted entry (entry :: rest)
  | later {other : Document × Document} {rest : Entries}
      (h : ¬ other.1.IsOverlong ∧ other.2.HasNumber) (hrest : IsFirstUnconverted entry rest) :
      IsFirstUnconverted entry (other :: rest)

/-- Whether a document is **well shaped**. -/
structure WellShaped (d : Document) : Prop where
  mapping : d.IsMapping
  bindings : (d.setting "variables").IsMapping
  numbers : ∀ entry ∈ (d.setting "variables").entries, entry.2.HasNumber
  declared : (d.setting "declared").IsListing

/-- Whether all **names** in a document have texts: those of the variables and the declared ones. -/
structure IsNamed (d : Document) : Prop where
  bindings : ∀ entry ∈ (d.setting "variables").entries, ¬ entry.1.IsOverlong
  declared : ∀ item ∈ (d.setting "declared").items, ¬ item.IsOverlong

/-- Whether a document is **overlooked**: it is vacant, or it is a mapping with vacant variables and
nothing else is wrong with it. -/
inductive Overlooked (d : Document) : Prop
  | document (h : d.IsVacant)
  | bindings (hd : d.IsMapping) (hv : (d.setting "variables").IsVacant)
      (hl : (d.setting "declared").IsListing) (hn : d.IsNamed)

/-- Whether a document is **unreported**: the value of the first of its variables that is not
converted escapes. -/
def Unreported (d : Document) : Prop :=
  ∃ entry : Document × Document, IsFirstUnconverted entry (d.setting "variables").entries ∧
    ¬ entry.1.IsOverlong ∧ entry.2.Escapes

/-- Whether a document is **overlong**: it is well shaped, but a name in it has no text. -/
def Overlong (d : Document) : Prop :=
  d.WellShaped ∧ ¬ d.IsNamed

/-- A mapping, a vacant value, or another value that counts as true. -/
theorem mapping_cases (v : Document) :
    v.IsMapping ∨ v.IsVacant ∨ (v.truthy = true ∧ ¬ v.IsMapping) := by
  by_cases h : v.IsMapping
  · exact .inl h
  · cases htruthy : v.truthy with
    | false => exact .inr (.inl ⟨htruthy, h⟩)
    | true => exact .inr (.inr ⟨rfl, h⟩)

/-- What counts as true is not vacant. -/
theorem not_isVacant_of_truthy {v : Document} (h : v.truthy = true) : ¬ v.IsVacant := by
  rintro ⟨hfalse, -⟩
  rw [h] at hfalse
  cases hfalse

/-- What is no mapping has no entries. -/
theorem entries_of_not_isMapping {v : Document} (h : ¬ v.IsMapping) : v.entries = [] := by
  cases v with
  | mapping entries => exact absurd (.inr ⟨entries, rfl⟩) h
  | null | bool _ | whole _ | real _ | text _ | list _ | foreign _ => rfl

/-- A value without entries has no settings. -/
theorem setting_of_entries {d : Document} (h : d.entries = []) (name : String) :
    d.setting name = .null := by
  rw [setting, h]
  rfl

/-- A value without entries has no names. -/
theorem isNamed_of_entries {d : Document} (h : d.entries = []) : d.IsNamed := by
  constructor <;> rw [setting_of_entries h] <;> nofun

namespace IsFirstUnconverted

variable {entry other : Document × Document} {entries : Entries}

/-- A value with entries is a mapping. -/
theorem exists_eq {v : Document} (h : IsFirstUnconverted entry v.entries) :
    ∃ entries, v = .mapping entries := by
  by_cases hv : v.IsMapping
  · rcases hv with rfl | hv
    · cases h
    · exact hv
  · rw [entries_of_not_isMapping hv] at h
    cases h

/-- The first entry that is not converted is one of the entries, and it is not converted. -/
theorem mem (h : IsFirstUnconverted entry entries) :
    entry ∈ entries ∧ (entry.1.IsOverlong ∨ ¬ entry.2.HasNumber) := by
  induction h with
  | here h => exact ⟨List.mem_cons_self, h⟩
  | later _ _ ih => exact ⟨List.mem_cons_of_mem _ ih.1, ih.2⟩

/-- There is only one first entry that is not converted. -/
theorem unique (h : IsFirstUnconverted entry entries) (h' : IsFirstUnconverted other entries) :
    entry = other := by
  induction h with
  | here hentry =>
      cases h' with
      | here => rfl
      | later hconverted => exact (hentry.elim hconverted.1 (· hconverted.2)).elim
  | later hconverted _ ih =>
      cases h' with
      | here hother => exact (hother.elim hconverted.1 (· hconverted.2)).elim
      | later _ hrest => exact ih hrest

end IsFirstUnconverted

/-- Entries that are converted have texts and numbers. -/
theorem forall_of_convertsTo {entries : Entries} {vars : List (String × Float)}
    (h : List.Forall₂ ConvertsTo entries vars) :
    ∀ entry ∈ entries, ¬ entry.1.IsOverlong ∧ entry.2.HasNumber := by
  have hboth : List.Forall₂
      (fun entry var => (¬ entry.1.IsOverlong ∧ entry.2.HasNumber) ∧ ConvertsTo entry var)
      entries vars :=
    h.imp fun entry var hentry =>
      ⟨⟨exists_name_iff.1 ⟨_, hentry.1⟩, _, hentry.2⟩, hentry⟩
  exact ((List.forall₂_and_left _ _).1 hboth).1

/-- A vacant value is no mapping. -/
theorem Overlooked.not_wellShaped {d : Document} (h : d.Overlooked) : ¬ d.WellShaped := by
  intro hd
  cases h with
  | document hvacant => exact hvacant.2 hd.mapping
  | bindings _ hvacant => exact hvacant.2 hd.bindings

/-- When a mapping is overlooked. -/
theorem overlooked_iff {d : Document} (hd : d.IsMapping) :
    d.Overlooked ↔
      (d.setting "variables").IsVacant ∧ (d.setting "declared").IsListing ∧ d.IsNamed := by
  constructor
  · intro h
    cases h with
    | document hvacant => exact absurd hd hvacant.2
    | bindings _ hvacant hlisting hnamed => exact ⟨hvacant, hlisting, hnamed⟩
  · rintro ⟨hvacant, hlisting, hnamed⟩
    exact .bindings hd hvacant hlisting hnamed

/-- What escapes has no number. -/
theorem Escapes.not_hasNumber {v : Document} (h : v.Escapes) : ¬ v.HasNumber := by
  rcases v.number_cases with ⟨-, hnot⟩ | ⟨fault, -, hnumber, -⟩
  · exact absurd h hnot
  · exact hnumber

/-- An unreported document has a variable without a number. -/
theorem Unreported.not_wellShaped {d : Document} (h : d.Unreported) : ¬ d.WellShaped := by
  obtain ⟨entry, hfirst, -, hescapes⟩ := h
  exact fun hd => hescapes.not_hasNumber (hd.numbers entry hfirst.mem.1)

/-- The variables of an overlooked document are not even looked at. -/
theorem Unreported.not_overlooked {d : Document} (h : d.Unreported) : ¬ d.Overlooked := by
  obtain ⟨entry, hfirst, -⟩ := h
  obtain ⟨entries, hentries⟩ := hfirst.exists_eq
  intro hd
  cases hd with
  | document hvacant =>
      rw [setting_of_entries (entries_of_not_isMapping hvacant.2)] at hentries
      cases hentries
  | bindings _ hvacant => exact hvacant.2 (.inr ⟨entries, hentries⟩)

end Document

/-! ### Faults -/

/-- Whether a fault **refuses** the document. A file that cannot be read is none of its faults. -/
def ConfigFault.isRefusal : ConfigFault → Bool
  | notAMapping _ | variablesNotAMapping _ | declaredNotAList _ => true
  | conversion fault => fault.isRefusal
  | unreadable _ _ | format _ => false

namespace Config

open Document

/-! ### Settings -/

/-- What becomes of an entry: it is a variable, or its key is overlong, or its value has no
number. -/
theorem variableOf_cases (entry : Document × Document) :
    (∃ var, variableOf entry = .ok var ∧ ConvertsTo entry var) ∨
      ∃ fault, variableOf entry = .error fault ∧
        (entry.1.IsOverlong ∨ ¬ entry.2.HasNumber) ∧
        (fault.isRefusal = false ↔ ¬ entry.1.IsOverlong ∧ entry.2.Escapes) := by
  unfold variableOf
  rcases entry.1.name_cases with ⟨hshort, s, hname⟩ | ⟨hlong, hname⟩ <;> rw [hname]
  · rcases entry.2.number_cases with ⟨⟨x, hx⟩, -⟩ | ⟨fault, hfault, hnumber, hiff⟩
    · rw [hx]
      exact .inl ⟨(s, x), rfl, hname, hx⟩
    · rw [hfault]
      exact .inr ⟨fault, rfl, .inr hnumber, by rw [hiff, and_iff_right hshort]⟩
  · exact .inr ⟨.overlong, rfl, .inl hlong, by simp [hlong, ConversionFault.isRefusal]⟩

/-- What becomes of variables: all of them are converted, or the first that is not gives the
fault. -/
inductive VariablesOutcome (store : Store) (entries : Entries) :
    Except ConversionFault Store → Prop
  | converted {vars : List (String × Float)} (h : List.Forall₂ ConvertsTo entries vars) :
      VariablesOutcome store entries (.ok (store.putAll vars))
  | unconverted {entry : Document × Document} {fault : ConversionFault}
      (h : IsFirstUnconverted entry entries)
      (hfault : fault.isRefusal = false ↔ ¬ entry.1.IsOverlong ∧ entry.2.Escapes) :
      VariablesOutcome store entries (.error fault)

/-- **What becomes of variables**, by induction over them: one that is converted is set, and the
others come to what they would come to without it. -/
theorem variablesOf_outcome (store : Store) (entries : Entries) :
    VariablesOutcome store entries (variablesOf store entries) := by
  induction entries generalizing store with
  | nil => exact .converted .nil
  | cons entry rest ih =>
      rw [variablesOf]
      rcases variableOf_cases entry with
        ⟨⟨name, x⟩, heq, hconverts⟩ | ⟨fault, heq, hnot, hfault⟩ <;> rw [heq] <;> dsimp only
      · have houtcome := ih (store.put name x)
        generalize variablesOf (store.put name x) rest = result at houtcome ⊢
        cases houtcome with
        | @converted vars h => exact .converted (.cons hconverts h)
        | unconverted h hfault =>
            have hname : ∃ s, entry.1.name = .ok s := ⟨name, hconverts.1⟩
            exact .unconverted (.later ⟨exists_name_iff.1 hname, x, hconverts.2⟩ h) hfault
      · exact .unconverted (.here hnot) hfault

/-- What becomes of the setting of the variables. -/
inductive ReadsVariables (path : String) (v : Document) : Except ConfigFault Store → Prop
  | read {vars : List (String × Float)} (hv : v.IsMapping ∨ v.IsVacant)
      (h : List.Forall₂ ConvertsTo v.entries vars) :
      ReadsVariables path v (.ok (.ofList vars))
  | notAMapping (htruthy : v.truthy = true) (hv : ¬ v.IsMapping) :
      ReadsVariables path v (.error (.variablesNotAMapping path))
  | unconverted {entry : Document × Document} {fault : ConversionFault}
      (h : IsFirstUnconverted entry v.entries)
      (hfault : fault.isRefusal = false ↔ ¬ entry.1.IsOverlong ∧ entry.2.Escapes) :
      ReadsVariables path v (.error (.conversion fault))

/-- The variables of a mapping are read one after the other. -/
theorem readVariables_mapping (path : String) (entries : Entries) :
    readVariables path (.mapping entries) =
      (variablesOf .empty entries).mapError .conversion := by
  cases entries <;> rfl

/-- The setting of the variables is read if it is a mapping with numbers or vacant. -/
theorem readVariables_outcome (path : String) (v : Document) :
    ReadsVariables path v (readVariables path v) := by
  have hnone (hv : v.IsMapping ∨ v.IsVacant) (hentries : v.entries = []) :
      ReadsVariables path v (.ok .empty) := by
    have hforall : List.Forall₂ ConvertsTo v.entries [] := by
      rw [hentries]
      exact .nil
    exact .read hv hforall
  rcases v.mapping_cases with hmapping | hvacant | ⟨htruthy, hmapping⟩
  · rcases hmapping with rfl | ⟨entries, rfl⟩
    · exact hnone (.inl (.inl rfl)) rfl
    · have houtcome := variablesOf_outcome .empty entries
      rw [readVariables_mapping]
      generalize variablesOf .empty entries = result at houtcome
      cases houtcome with
      | converted h => exact .read (.inl (.inr ⟨entries, rfl⟩)) h
      | unconverted h hfault => exact .unconverted h hfault
  · have heq : readVariables path v = .ok .empty := by simp [readVariables, hvacant.1]
    rw [heq]
    exact hnone (.inr hvacant) (entries_of_not_isMapping hvacant.2)
  · have heq : readVariables path v = .error (.variablesNotAMapping path) := by
      cases v with
      | mapping entries => exact absurd (.inr ⟨entries, rfl⟩) hmapping
      | null | bool _ | whole _ | real _ | text _ | list _ | foreign _ =>
          simp [readVariables, htruthy]
    rw [heq]
    exact .notAMapping htruthy hmapping

/-- What becomes of the setting of the declared names. -/
inductive ReadsDeclared (path : String) (v : Document) :
    Except ConfigFault (Option (List String)) → Prop
  | read {names : Option (List String)} (hv : v.IsListing)
      (hn : ∀ item ∈ v.items, ¬ item.IsOverlong) (h : v.Declares names) :
      ReadsDeclared path v (.ok names)
  | overlong (hv : v.IsListing) (h : ∃ item ∈ v.items, item.IsOverlong) :
      ReadsDeclared path v (.error (.conversion .overlong))
  | notAList (hv : ¬ v.IsListing) : ReadsDeclared path v (.error (.declaredNotAList path))

/-- The setting of the declared names is read if it is null or a list of names. -/
theorem readDeclared_outcome (path : String) (v : Document) :
    ReadsDeclared path v (readDeclared path v) := by
  cases v with
  | null => exact .read (.inl rfl) nofun .null
  | list items =>
      have hlisting : (Document.list items).IsListing := .inr ⟨items, rfl⟩
      show ReadsDeclared path _
        (((items.mapM Document.name).map some).mapError ConfigFault.conversion)
      rcases mapM_name_cases items with ⟨hall, names, heq, hnames⟩ | ⟨hsome, heq⟩ <;> rw [heq]
      · exact .read hlisting hall (.list hnames)
      · exact .overlong hlisting hsome
  | bool _ | whole _ | real _ | text _ | mapping _ | foreign _ =>
      exact .notAList (by simp [IsListing])

/-! ### What a configuration sets -/

/-- Whether a configuration **follows** a document: it is the default configuration with the
entries of the document in place of its own. -/
structure Follows (c : Config) (d : Document) : Prop where
  strict : c.strict = (d.setting "strict").truthy
  declared : (d.setting "declared").Declares c.declared
  store : ∃ vars, List.Forall₂ ConvertsTo (d.setting "variables").entries vars ∧
    c.store = .ofList vars
  fields : ∀ name, name ∉ ["strict", "declared", "variables"] →
    c.entries.get? name = (d.entries.get? name).or (({} : Config).entries.get? name)
  unnamed : c.entries.unnamed = d.entries.unnamed

/-- The configuration that the entries of a document give with its variables and declared names. -/
def loaded (entries : Entries) (store : Store) (declared : Option (List String)) : Config where
  strict := ((entries.get? "strict").getD (.bool false)).truthy
  declared
  store
  logDirectory := (entries.get? "log_dir").getD .null
  fsync := (entries.get? "logging_fsync").getD (.bool false)
  tailBytes := (entries.get? "logging_tail_bytes").getD (.whole 2097152)
  others := entries.filter fun entry => !isSetting entry.1

/-- A document that is a mapping is read setting by setting. -/
theorem ofDocument_mapping (path : String) (entries : Entries) :
    ofDocument path (.mapping entries) =
      (readVariables path ((Document.mapping entries).setting "variables")).bind fun store =>
        (readDeclared path ((Document.mapping entries).setting "declared")).map
          (loaded entries store) := by
  have hentries : ofDocument path (.mapping entries) = ofEntries path entries := by
    cases entries <;> rfl
  have hvalue (name : String) :
      (Document.mapping entries).setting name = (entries.get? name).getD .null := rfl
  rw [hentries, hvalue, hvalue, ofEntries]
  cases readVariables path ((entries.get? "variables").getD .null) with
  | error fault => rfl
  | ok store => cases readDeclared path ((entries.get? "declared").getD .null) <;> rfl

/-- The fields without a meaning are those of the other entries. -/
theorem fields_filter (entries : Entries) :
    Entries.fields (entries.filter fun entry => !isSetting entry.1) =
      entries.fields.filter fun field => !settingNames.contains field.1 := by
  induction entries with
  | nil => rfl
  | cons entry rest ih =>
      obtain ⟨key, value⟩ := entry
      cases key with
      | text name =>
          have hsetting : isSetting (.text name) = settingNames.contains name := rfl
          rw [Entries.fields_cons_text, List.filter_cons, List.filter_cons, hsetting, ← ih]
          split <;> rfl
      | null | bool _ | whole _ | real _ | list _ | mapping _ | foreign _ => exact ih

/-- Fields that are kept by their names are found among those that are kept. -/
theorem lookup_filter {p : String → Bool} {name : String} (hname : p name = true)
    (fields : List (String × Document)) :
    (fields.filter fun field => p field.1).lookup name = fields.lookup name := by
  induction fields with
  | nil => rfl
  | cons field rest ih =>
      obtain ⟨key, value⟩ := field
      by_cases hkey : name = key
      · subst hkey
        simp [hname]
      · have hne : (name == key) = false := beq_false_of_ne hkey
        rw [List.lookup_cons, hne, ← ih, List.filter_cons]
        split
        · rw [List.lookup_cons, hne]
        · rfl

/-- A name that is no setting with a meaning is looked up among the other entries. -/
theorem get?_entries {name : String} (hname : name ∉ settingNames) (c : Config) :
    c.entries.get? name = c.others.get? name := by
  simp only [settingNames, List.mem_cons, List.not_mem_nil, or_false, not_or] at hname
  obtain ⟨hstrict, hdeclared, hvariables, hdirectory, hfsync, htail⟩ := hname
  show List.lookup name (_ :: _ :: _ :: _ :: _ :: _ :: c.others.fields) = _
  simp only [List.lookup_cons, beq_false_of_ne hstrict, beq_false_of_ne hdeclared,
    beq_false_of_ne hvariables, beq_false_of_ne hdirectory, beq_false_of_ne hfsync,
    beq_false_of_ne htail, Entries.get?]

/-- The entries without a name are among the other entries. -/
theorem unnamed_filter (entries : Entries) :
    Entries.unnamed (entries.filter fun entry => !isSetting entry.1) = entries.unnamed := by
  unfold Entries.unnamed
  rw [List.filter_filter]
  congr 1
  funext ⟨key, value⟩
  cases key <;> rfl

/-- The configuration that a document gives follows it. -/
theorem follows_loaded {entries : Entries} {vars : List (String × Float)}
    {names : Option (List String)}
    (h : List.Forall₂ ConvertsTo ((Document.mapping entries).setting "variables").entries vars)
    (hn : ((Document.mapping entries).setting "declared").Declares names) :
    (loaded entries (.ofList vars) names).Follows (.mapping entries) where
  strict := by
    show ((entries.get? "strict").getD (.bool false)).truthy =
      ((entries.get? "strict").getD .null).truthy
    cases entries.get? "strict" <;> rfl
  declared := hn
  store := ⟨vars, h, rfl⟩
  fields := by
    intro name hname
    by_cases hown : name ∈ settingNames
    · have hlog : name = "log_dir" ∨ name = "logging_fsync" ∨ name = "logging_tail_bytes" := by
        simp only [settingNames, List.mem_cons, List.not_mem_nil, or_false] at hown hname
        tauto
      rcases hlog with rfl | rfl | rfl
      all_goals exact Option.or_some.symm
    · have hkept : (!settingNames.contains name) = true := by simpa using hown
      rw [get?_entries hown, get?_entries hown]
      show List.lookup name (Entries.fields (entries.filter fun entry => !isSetting entry.1)) = _
      rw [fields_filter, lookup_filter (p := fun key => !settingNames.contains key) hkept]
      exact Option.or_none.symm
  unnamed := unnamed_filter entries

/-- The default configuration follows what has no entries. -/
theorem follows_of_entries {d : Document} (h : d.entries = []) : ({} : Config).Follows d where
  strict := by
    rw [setting_of_entries h]
    rfl
  declared := by
    rw [setting_of_entries h]
    exact .null
  store := by
    rw [setting_of_entries h]
    exact ⟨[], .nil, rfl⟩
  fields := by
    intro name _
    rw [h]
    rfl
  unnamed := by
    rw [h]
    rfl

/-! ### Documents -/

/-- What becomes of a document: it is taken and followed, because it is well shaped with all its
names or because it is overlooked, or it is refused, or a fault of another kind goes unreported. -/
inductive DocumentOutcome (d : Document) : Except ConfigFault Config → Prop
  | taken {c : Config} (h : d.WellShaped ∧ d.IsNamed ∨ d.Overlooked) (hc : c.Follows d) :
      DocumentOutcome d (.ok c)
  | refused {fault : ConfigFault} (hw : ¬ (d.WellShaped ∧ d.IsNamed)) (ho : ¬ d.Overlooked)
      (hu : ¬ d.Unreported) (hf : fault.isRefusal = true) : DocumentOutcome d (.error fault)
  | unreported {fault : ConfigFault} (h : d.Unreported) (hf : fault.isRefusal = false) :
      DocumentOutcome d (.error fault)

/-- What has no entries and is a mapping is well shaped. -/
theorem wellShaped_of_entries {d : Document} (hd : d.IsMapping) (h : d.entries = []) :
    d.WellShaped where
  mapping := hd
  bindings := .inl (setting_of_entries h _)
  numbers := by
    rw [setting_of_entries h]
    nofun
  declared := .inl (setting_of_entries h _)

/-- What becomes of a document that is a mapping. -/
theorem ofDocument_mapping_outcome (path : String) (entries : Entries) :
    DocumentOutcome (.mapping entries) (ofDocument path (.mapping entries)) := by
  have hmapping : (Document.mapping entries).IsMapping := .inr ⟨entries, rfl⟩
  have hoverlooked := overlooked_iff hmapping
  have hvariables := readVariables_outcome path ((Document.mapping entries).setting "variables")
  rw [ofDocument_mapping]
  generalize readVariables path _ = result at hvariables ⊢
  cases hvariables with
  | @read vars hv h =>
      have hgood := forall_of_convertsTo h
      have hreported : ¬ (Document.mapping entries).Unreported := by
        rintro ⟨entry, hfirst, -, hescapes⟩
        exact hescapes.not_hasNumber (hgood entry hfirst.mem.1).2
      have hdeclared := readDeclared_outcome path ((Document.mapping entries).setting "declared")
      simp only [Except.bind]
      generalize readDeclared path _ = result at hdeclared ⊢
      cases hdeclared with
      | @read names hlisting hn hnames =>
          have hnamed : (Document.mapping entries).IsNamed :=
            ⟨fun entry he => (hgood entry he).1, hn⟩
          refine .taken ?_ (follows_loaded h hnames)
          rcases hv with hv | hv
          · exact .inl ⟨⟨hmapping, hv, fun entry he => (hgood entry he).2, hlisting⟩, hnamed⟩
          · exact .inr (.bindings hmapping hv hlisting hnamed)
      | overlong hlisting hlong =>
          obtain ⟨item, hmem, hlong⟩ := hlong
          have hunnamed : ¬ (Document.mapping entries).IsNamed := fun hn =>
            hn.declared item hmem hlong
          exact .refused (fun hw => hunnamed hw.2) (fun ho => hunnamed (hoverlooked.1 ho).2.2)
            hreported rfl
      | notAList hlisting =>
          exact .refused (fun hw => hlisting hw.1.declared)
            (fun ho => hlisting (hoverlooked.1 ho).2.1) hreported rfl
  | notAMapping htruthy hv =>
      refine .refused (fun hw => hv hw.1.bindings) ?_ ?_ rfl
      · exact fun ho => not_isVacant_of_truthy htruthy (hoverlooked.1 ho).1
      · rintro ⟨entry, hfirst, -⟩
        exact hv (.inr hfirst.exists_eq)
  | @unconverted entry fault h hfault =>
      cases hf : fault.isRefusal with
      | false => exact .unreported ⟨entry, h, hfault.1 hf⟩ hf
      | true =>
          refine .refused (fun hw => ?_) (fun ho => (hoverlooked.1 ho).1.2 (.inr h.exists_eq)) ?_ hf
          · exact h.mem.2.elim (hw.2.bindings entry h.mem.1) (· (hw.1.numbers entry h.mem.1))
          · rintro ⟨other, hfirst, hescapes⟩
            obtain rfl := h.unique hfirst
            rw [hfault.2 hescapes] at hf
            cases hf

/-- **What becomes of a document.** -/
theorem ofDocument_outcome (path : String) (d : Document) :
    DocumentOutcome d (ofDocument path d) := by
  rcases d.mapping_cases with hmapping | hvacant | ⟨htruthy, hmapping⟩
  · rcases hmapping with rfl | ⟨entries, rfl⟩
    · exact .taken (.inl ⟨wellShaped_of_entries (.inl rfl) rfl, isNamed_of_entries rfl⟩)
        (follows_of_entries rfl)
    · exact ofDocument_mapping_outcome path entries
  · rw [ofDocument_of_not_truthy hvacant.1]
    exact .taken (.inr (.document hvacant))
      (follows_of_entries (entries_of_not_isMapping hvacant.2))
  · have heq : ofDocument path d = .error (.notAMapping path) := by
      cases d with
      | mapping entries => exact absurd (.inr ⟨entries, rfl⟩) hmapping
      | null | bool _ | whole _ | real _ | text _ | list _ | foreign _ => simp [ofDocument, htruthy]
    rw [heq]
    refine .refused (fun hw => hmapping hw.1.mapping) ?_ ?_ rfl
    · rintro (hvacant | ⟨hd, -, -⟩)
      · exact not_isVacant_of_truthy htruthy hvacant
      · exact hmapping hd
    · rintro ⟨entry, hfirst, -⟩
      obtain ⟨entries, hentries⟩ := hfirst.exists_eq
      rw [setting_of_entries (entries_of_not_isMapping hmapping)] at hentries
      cases hentries

section

variable (path : String) (d : Document)

/-- Which documents are taken. -/
theorem exists_taken_iff :
    (∃ c, ofDocument path d = .ok c ∧ c.Follows d) ↔
      d.WellShaped ∧ d.IsNamed ∨ d.Overlooked := by
  have houtcome := ofDocument_outcome path d
  generalize ofDocument path d = result at houtcome ⊢
  cases houtcome with
  | @taken c h hc => exact ⟨fun _ => h, fun _ => ⟨c, rfl, hc⟩⟩
  | refused hw ho => simp [hw, ho]
  | unreported h => simp [h.not_wellShaped, h.not_overlooked]

/-- Which documents are refused. -/
theorem exists_refused_iff :
    (∃ fault, ofDocument path d = .error fault ∧ fault.isRefusal = true) ↔
      ¬ (d.WellShaped ∧ d.IsNamed) ∧ ¬ d.Overlooked ∧ ¬ d.Unreported := by
  have houtcome := ofDocument_outcome path d
  generalize ofDocument path d = result at houtcome ⊢
  cases houtcome with
  | taken h => rcases h with h | h <;> simp [h]
  | @refused fault hw ho hu hf => exact ⟨fun _ => ⟨hw, ho, hu⟩, fun _ => ⟨fault, rfl, hf⟩⟩
  | unreported h hf => simp [h, hf]

/-- Which documents end in a fault of another kind. -/
theorem exists_unreported_iff :
    (∃ fault, ofDocument path d = .error fault ∧ fault.isRefusal = false) ↔ d.Unreported := by
  have houtcome := ofDocument_outcome path d
  generalize ofDocument path d = result at houtcome ⊢
  cases houtcome with
  | taken h =>
      have hreported : ¬ d.Unreported := fun hu =>
        h.elim (fun hw => hu.not_wellShaped hw.1) hu.not_overlooked
      simp [hreported]
  | refused _ _ hu hf => simp [hu, hf]
  | @unreported fault h hf => exact ⟨fun _ => h, fun _ => ⟨fault, rfl, hf⟩⟩

/-- Whether a document is treated **as documented**: if it is well shaped, it is taken and followed,
and otherwise it is refused. -/
structure AsDocumented : Prop where
  taken : d.WellShaped → ∃ c, ofDocument path d = .ok c ∧ c.Follows d
  refused : ¬ d.WellShaped → ∃ fault, ofDocument path d = .error fault ∧ fault.isRefusal = true

/-- **A document is treated as documented** exactly if it is neither overlooked nor unreported nor
overlong. An overlooked one is taken and followed as if what is vacant were an empty mapping, an
unreported one ends in a fault that does not refuse it, and an overlong one is refused. -/
theorem asDocumented_iff :
    (AsDocumented path d ↔ ¬ d.Overlooked ∧ ¬ d.Unreported ∧ ¬ d.Overlong) ∧
      (d.Overlooked → ∃ c, ofDocument path d = .ok c ∧ c.Follows d) ∧
      (d.Unreported → ∃ fault, ofDocument path d = .error fault ∧ fault.isRefusal = false) ∧
      (d.Overlong → ∃ fault, ofDocument path d = .error fault ∧ fault.isRefusal = true) := by
  have htaken := exists_taken_iff path d
  have hrefused := exists_refused_iff path d
  refine ⟨⟨fun h => ⟨fun ho => ?_, fun hu => ?_, fun hl => ?_⟩,
    fun ⟨ho, hu, hl⟩ => ⟨fun hw => ?_, fun hw => ?_⟩⟩,
    fun ho => htaken.2 (.inr ho), (exists_unreported_iff path d).2, fun hl => ?_⟩
  · exact (hrefused.1 (h.refused ho.not_wellShaped)).2.1 ho
  · exact (hrefused.1 (h.refused hu.not_wellShaped)).2.2 hu
  · exact (htaken.1 (h.taken hl.1)).elim (fun hw => hl.2 hw.2) fun ho => ho.not_wellShaped hl.1
  · exact htaken.2 (.inl ⟨hw, not_not.1 fun hn => hl ⟨hw, hn⟩⟩)
  · exact hrefused.2 ⟨fun hboth => hw hboth.1, ho, hu⟩
  · exact hrefused.2 ⟨fun hboth => hl.2 hboth.2, fun ho => ho.not_wellShaped hl.1,
      fun hu => hu.not_wellShaped hl.1⟩

end

/-- A variable that is null makes a document that is not treated as documented. -/
theorem not_forall_asDocumented : ¬ ∀ path d, AsDocumented path d := by
  intro h
  let d : Document := .mapping [(.text "variables", .mapping [(.text "x", .null)])]
  have hfault : ofDocument "cfg.yaml" d = .error (.conversion .wrongKind) := rfl
  have hshape : ¬ d.WellShaped := fun hd => by
    obtain ⟨x, hx⟩ := hd.numbers (.text "x", .null) List.mem_cons_self
    cases hx
  obtain ⟨fault, heq, hf⟩ := (h "cfg.yaml" d).refused hshape
  rw [hfault] at heq
  cases heq
  cases hf

end Config

end Formulary
