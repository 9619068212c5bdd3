import Formulary.Document
import Mathlib.Algebra.Ring.Nat
import Mathlib.Data.List.Forall2
import Mathlib.Logic.Basic

/-!
# Which Values Have Texts and Numbers

A configuration document gives names and numbers as values of any kind. This module says of every
value whether it stands for a text and whether it has a number, and by what kind of fault the
conversion fails otherwise.

A value has no text exactly if a whole number of more than 4300 digits stands somewhere in it
(`IsOverlong`), and it is then refused. A value without a number is refused too if it is a text, and
escapes by a fault of another kind if it is null, a list, a mapping or a whole number out of range
(`Escapes`). What a foreign value converts to is up to it.

## Main results

* `inner?_eq_none_iff`, `display?_eq_none_iff`: which values have no text.
* `name_cases`, `number_cases`: what a conversion comes to.
-/

namespace Formulary

namespace Document

/-! ### Texts -/

/-- Whether a value is **overlong**: a whole number of more than 4300 digits, or a value that holds
one. -/
inductive IsOverlong : Document → Prop
  | whole {n : Int} (h : 10 ^ 4300 ≤ n.natAbs) : IsOverlong (.whole n)
  | item {items : List Document} {item : Document} (hmem : item ∈ items) (h : item.IsOverlong) :
      IsOverlong (.list items)
  | key {entries : Entries} {entry : Document × Document} (hmem : entry ∈ entries)
      (h : entry.1.IsOverlong) : IsOverlong (.mapping entries)
  | value {entries : Entries} {entry : Document × Document} (hmem : entry ∈ entries)
      (h : entry.2.IsOverlong) : IsOverlong (.mapping entries)
  | foreign {v : Foreign} (h : v.overlong = true) : IsOverlong (.foreign v)

/-- A list is overlong if an item is. -/
theorem isOverlong_list {items : List Document} :
    (Document.list items).IsOverlong ↔ ∃ item ∈ items, item.IsOverlong := by
  constructor
  · rintro (_ | ⟨hmem, h⟩)
    exact ⟨_, hmem, h⟩
  · rintro ⟨item, hmem, h⟩
    exact .item hmem h

/-- A mapping is overlong if a key or a value is. -/
theorem isOverlong_mapping {entries : Entries} :
    (Document.mapping entries).IsOverlong ↔
      ∃ entry ∈ entries, entry.1.IsOverlong ∨ entry.2.IsOverlong := by
  constructor
  · rintro (_ | _ | ⟨hmem, h⟩ | ⟨hmem, h⟩)
    · exact ⟨_, hmem, .inl h⟩
    · exact ⟨_, hmem, .inr h⟩
  · rintro ⟨entry, hmem, h | h⟩
    · exact .key hmem h
    · exact .value hmem h

/-- A foreign value says itself whether it is overlong. -/
theorem isOverlong_foreign {v : Foreign} :
    (Document.foreign v).IsOverlong ↔ v.overlong = true :=
  ⟨fun h => by cases h with | foreign hv => exact hv, .foreign⟩

/-- A whole number has no text if it has more than 4300 digits. -/
theorem wholeText?_eq_none_iff {n : Int} : wholeText? n = none ↔ 10 ^ 4300 ≤ n.natAbs := by
  have hlength := Nat.length_toDigits_le_iff (b := 10) (n := n.natAbs) (k := 4300) (by decide)
    (by decide)
  rw [wholeText?, ← Nat.not_lt, ← hlength, Nat.not_le]
  exact ite_eq_left_iff.trans (by simp [Number.maxWholeDigits, Number.digitsOf])

mutual

/-- **Which values have no text** inside a list or mapping, by induction over the value with one
statement for the items of a list and one for the entries of a mapping. -/
theorem inner?_eq_none_iff : ∀ d : Document, d.inner? = none ↔ d.IsOverlong
  | .null | .bool true | .bool false | .real _ | .text _ => iff_of_false nofun nofun
  | .whole n => by
      rw [inner?, wholeText?_eq_none_iff]
      exact ⟨.whole, fun h => by cases h with | whole hn => exact hn⟩
  | .list items => by
      rw [isOverlong_list, ← innerItems?_eq_none_iff items, inner?]
      cases innerItems? items <;> simp
  | .mapping entries => by
      rw [isOverlong_mapping, ← innerEntries?_eq_none_iff entries, inner?]
      cases innerEntries? entries <;> simp
  | .foreign v => by
      rw [isOverlong_foreign, inner?]
      cases v.overlong <;> simp

/-- Some item has no text. -/
theorem innerItems?_eq_none_iff : ∀ items : List Document,
    innerItems? items = none ↔ ∃ item ∈ items, item.IsOverlong
  | [] => by simp [innerItems?]
  | item :: rest => by
      simp only [List.mem_cons, exists_eq_or_imp]
      rw [← inner?_eq_none_iff item, ← innerItems?_eq_none_iff rest, innerItems?]
      cases inner? item <;> cases innerItems? rest <;> simp

/-- Some key or value has no text. -/
theorem innerEntries?_eq_none_iff : ∀ entries : Entries,
    innerEntries? entries = none ↔ ∃ entry ∈ entries, entry.1.IsOverlong ∨ entry.2.IsOverlong
  | [] => by simp [innerEntries?]
  | (key, value) :: rest => by
      simp only [List.mem_cons, exists_eq_or_imp]
      rw [← inner?_eq_none_iff key, ← inner?_eq_none_iff value, ← innerEntries?_eq_none_iff rest,
        innerEntries?]
      cases inner? key <;> cases inner? value <;> cases innerEntries? rest <;> simp

end

/-- **Which values stand for no text.** -/
theorem display?_eq_none_iff (d : Document) : d.display? = none ↔ d.IsOverlong := by
  cases d with
  | text s => exact iff_of_false nofun nofun
  | foreign v =>
      rw [isOverlong_foreign, display?]
      cases v.overlong <;> simp
  | null | bool _ | whole _ | real _ | list _ | mapping _ => exact inner?_eq_none_iff _

/-- A value stands for a text, or it is overlong and refused. -/
theorem name_cases (d : Document) :
    (¬ d.IsOverlong ∧ ∃ s, d.name = .ok s) ∨ (d.IsOverlong ∧ d.name = .error .overlong) := by
  rw [← display?_eq_none_iff, name]
  cases d.display? <;> simp

/-- Which values are names. -/
theorem exists_name_iff {d : Document} : (∃ s, d.name = .ok s) ↔ ¬ d.IsOverlong := by
  rcases d.name_cases with ⟨hshort, hname⟩ | ⟨hlong, hname⟩
  · exact iff_of_true hname hshort
  · exact iff_of_false (by simp [hname]) (by simpa using hlong)

/-- The names of a list of values, or its refusal, by induction over the list. -/
theorem mapM_name_cases (items : List Document) :
    ((∀ item ∈ items, ¬ item.IsOverlong) ∧ ∃ names, items.mapM name = .ok names ∧
      List.Forall₂ (fun item s => item.name = .ok s) items names) ∨
      ((∃ item ∈ items, item.IsOverlong) ∧ items.mapM name = .error .overlong) := by
  induction items with
  | nil => exact .inl ⟨by simp, [], rfl, .nil⟩
  | cons item rest ih =>
      simp only [List.mapM_cons, List.mem_cons, forall_eq_or_imp, exists_eq_or_imp]
      rcases item.name_cases with ⟨hshort, s, hname⟩ | ⟨hlong, hname⟩
      · rw [hname]
        rcases ih with ⟨hall, names, hrest, hnames⟩ | ⟨hsome, hrest⟩ <;> rw [hrest]
        · exact .inl ⟨⟨hshort, hall⟩, s :: names, rfl, .cons hname hnames⟩
        · exact .inr ⟨.inr hsome, rfl⟩
      · rw [hname]
        exact .inr ⟨.inl hlong, rfl⟩

/-! ### Numbers -/

/-- Whether a value **has a number**. -/
def HasNumber (v : Document) : Prop :=
  ∃ x, v.number = .ok x

/-- Whether a value **escapes** its conversion to a number by a fault that does not refuse it. -/
inductive Escapes : Document → Prop
  | null : Escapes .null
  | list (items : List Document) : Escapes (.list items)
  | mapping (entries : Entries) : Escapes (.mapping entries)
  | whole {n : Int} (h : Number.ofWhole? n = none) : Escapes (.whole n)
  | foreign {v : Foreign} {fault : ConversionFault} (h : v.number = .error fault)
      (hf : fault.isRefusal = false) : Escapes (.foreign v)

/-- **What converting a value to a number comes to**: a number, a refusal, or an escape. -/
theorem number_cases (v : Document) :
    (v.HasNumber ∧ ¬ v.Escapes) ∨ ∃ fault, v.number = .error fault ∧ ¬ v.HasNumber ∧
      (fault.isRefusal = false ↔ v.Escapes) := by
  have hfails {fault : ConversionFault} (h : v.number = .error fault) : ¬ v.HasNumber := by
    rintro ⟨x, hx⟩
    cases h.symm.trans hx
  cases v with
  | null => exact .inr ⟨_, rfl, hfails rfl, iff_of_true rfl .null⟩
  | list items => exact .inr ⟨_, rfl, hfails rfl, iff_of_true rfl (.list items)⟩
  | mapping entries => exact .inr ⟨_, rfl, hfails rfl, iff_of_true rfl (.mapping entries)⟩
  | bool _ | real _ => exact .inl ⟨⟨_, rfl⟩, fun h => by cases h⟩
  | text s =>
      cases hread : Number.read? s with
      | some x => exact .inl ⟨⟨x, Number.parse_eq_ok hread⟩, fun h => by cases h⟩
      | none =>
          have hparse : (Document.text s).number = .error (.notANumber s) := by
            rw [number, Number.parse, hread]
          have hescapes : ¬ (Document.text s).Escapes := fun h => by cases h
          exact .inr ⟨_, hparse, hfails hparse, iff_of_false Bool.noConfusion hescapes⟩
  | whole n =>
      cases hread : Number.ofWhole? n with
      | some x =>
          refine .inl ⟨⟨x, by rw [number, hread]⟩, fun h => ?_⟩
          cases h with
          | whole hn => rw [hread] at hn; cases hn
      | none =>
          have hrange : (Document.whole n).number = .error .outOfRange := by
            rw [number, hread]
          exact .inr ⟨_, hrange, hfails hrange, iff_of_true rfl (.whole hread)⟩
  | foreign v =>
      cases hnumber : v.number with
      | ok x =>
          refine .inl ⟨⟨x, hnumber⟩, fun h => ?_⟩
          cases h with
          | foreign hfault => rw [hnumber] at hfault; cases hfault
      | error fault =>
          refine .inr ⟨fault, hnumber, hfails hnumber, .foreign hnumber, fun h => ?_⟩
          cases h with
          | foreign hfault hf => rw [hnumber] at hfault; cases hfault; exact hf

end Document

end Formulary
