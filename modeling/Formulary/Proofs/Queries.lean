import Formulary.Proofs.JsonTexts
import Formulary.Journal.Log

/-!
# What a Query Gives

A query walks through the records of the window, the latest first, and stops when it is full. This
module says what it gives on every log, whatever bytes the log holds: which records it takes, and
on which of them it fails.

## Conventions

The **values** of a log are what the readable lines of the window hold, the latest first; a line
that is no JSON has no value. A record **fits** a query if it has the level and the kind that are
asked for, and an empty filter asks for nothing. The **room** of a query is the number of records
after which it stops. It is never zero, since the limit is looked at only behind a record that was
taken. A query **comes to** a record if fewer records in front of it fit than there is room for.

Two things stop a query: a whole number with too many digits anywhere in the window, and a value
that is no object, if the query filters and comes to it. A query without filters gives such a
value like any other record.

## Main results

* `recordsOnto_eq`: what the lines of the window hold.
* `pick_eq`, `pick_eq_error`: the loop of a query takes the first records that fit, as far as it
  comes to objects only.
* `read_objects_iff`: when a query answers, and answers with objects.
* `read_fitting_iff`: when a query on a log of objects gives exactly the first fitting records
  within its limit.
-/

namespace Formulary

namespace Json

/-- Whether a value is an **object**. -/
def isObject : Json → Bool
  | .object _ => true
  | _ => false

/-- Whether the named field of a value holds the given text. -/
def holds (name text : String) (value : Json) : Bool :=
  match value.field? name with
  | some (.text s) => s == text
  | _ => false

end Json

namespace Log

open Text

/-! ### Lines -/

/-- The **value** of a line, if it is readable. -/
def value? (line : List Char) : Option Json :=
  (Json.read line).toOption

/-- The number of digits of a whole number in a line that has **too many** of them. -/
def excess? (line : List Char) : Option ℕ :=
  match Json.read line with
  | .error (.tooManyDigits count) => some count
  | _ => none

/-- The **values** of the window, the latest first. -/
def values (tailBytes : ℤ) (log : Log) : List Json :=
  ((lines tailBytes log).filterMap value?).reverse

/-- **What the lines hold**: their values, unless one of them has a whole number with too many
digits. -/
theorem recordsOnto_eq (found : List Json) (ls : List (List Char)) :
    recordsOnto found ls =
      match ls.findSome? excess? with
      | some count => .error (.tooManyDigits count)
      | none => .ok ((ls.filterMap value?).reverse ++ found) := by
  induction ls generalizing found with
  | nil => rfl
  | cons line rest ih =>
      rw [recordsOnto, List.findSome?_cons, List.filterMap_cons, excess?, value?]
      cases hread : Json.read line with
      | ok value =>
          simp only [ih, Except.toOption, List.reverse_cons, List.append_assoc,
            List.singleton_append]
      | error fault =>
          cases fault with
          | malformed => simp only [ih, Except.toOption]
          | tooManyDigits count => rfl

/-- The line of a well formed value has the value. -/
theorem value?_toRecord {v : Json} (h : v.WellFormed) : value? v.toRecord = some v.sorted := by
  rw [value?, (Json.read_toRecord h).2]
  rfl

/-! ### Records that fit -/

namespace Query

/-- Whether a query **filters**: it asks for a level or for a kind. -/
def Filters (q : Query) : Prop :=
  q.level.isEmpty = false ∨ q.kind.isEmpty = false

/-- Whether a record **fits** a query: it has the level and the kind that are asked for. -/
def fits (q : Query) (record : Json) : Bool :=
  (q.level.isEmpty || record.holds "level" q.level) &&
    (q.kind.isEmpty || record.holds "event_type" q.kind)

/-- The **room** of a query: the number of records after which it stops. -/
def room (q : Query) : ℕ :=
  max 1 (min q.limit maxRecords).toNat

/-- A query without filters takes everything. -/
theorem fits_of_not_filters {q : Query} (h : ¬ q.Filters) (record : Json) :
    q.fits record = true := by
  obtain ⟨hlevel, hkind⟩ := not_or.1 h
  rw [Bool.not_eq_false] at hlevel hkind
  rw [fits, hlevel, hkind, Bool.true_or, Bool.true_or, Bool.and_self]

/-- A filter judges an object by its named field. -/
theorem passes_object (name filter : String) (fields : Json.Fields) :
    passes name filter (.object fields) =
      .ok (filter.isEmpty || (Json.object fields).holds name filter) := by
  rw [passes]
  cases filter.isEmpty with
  | true => rfl
  | false =>
      rw [if_neg Bool.false_ne_true, Bool.false_or, Json.holds, Json.field?]
      cases fields.get? name with
      | none => rfl
      | some value => cases value <;> rfl

/-- **A query judges a record** that is an object, and every record if it has no filters, by
whether it fits. -/
theorem admits_eq {q : Query} {record : Json} (h : record.isObject = true ∨ ¬ q.Filters) :
    q.admits record = .ok (q.fits record) := by
  cases record with
  | object fields =>
      rw [admits, passes_object, passes_object, fits]
      cases q.level.isEmpty || (Json.object fields).holds "level" q.level <;> rfl
  | null | bool | whole | real | text | array =>
      obtain ⟨hlevel, hkind⟩ := not_or.1 (h.resolve_left (by simp [Json.isObject]))
      rw [Bool.not_eq_false] at hlevel hkind
      simp only [admits, passes, fits, hlevel, hkind, if_true, Bool.true_or, Bool.and_self]

/-- A query with filters fails on a record that is no object. -/
theorem admits_eq_error {q : Query} (h : q.Filters) {record : Json}
    (hobject : record.isObject = false) : q.admits record = .error .notAnObject := by
  cases record with
  | object fields => cases hobject
  | null | bool | whole | real | text | array =>
      simp only [admits, passes]
      rcases h with h | h
      · simp [h]
      · cases q.level.isEmpty <;> simp [h]

/-! ### What a query comes to -/

/-- Whether a query with some room **comes to** a record: fewer of those in front of it fit. -/
def ComesTo (q : Query) (room : ℕ) (found : List Json) (record : Json) : Prop :=
  ∃ front rest, found = front ++ record :: rest ∧ front.countP q.fits < room

/-- **One step of a query**: it comes to the first record if there is room, and to the others with
less room if the first fits. -/
theorem comesTo_cons {q : Query} {room : ℕ} {first record : Json} {found : List Json} :
    q.ComesTo room (first :: found) record ↔
      record = first ∧ 0 < room ∨
        q.ComesTo (room - if q.fits first then 1 else 0) found record := by
  constructor
  · rintro ⟨front, rest, heq, hcount⟩
    cases front with
    | nil =>
        obtain ⟨rfl, rfl⟩ := List.cons.inj heq
        exact .inl ⟨rfl, hcount⟩
    | cons head front =>
        obtain ⟨rfl, rfl⟩ := List.cons.inj heq
        rw [List.countP_cons] at hcount
        exact .inr ⟨front, rest, rfl, by omega⟩
  · rintro (⟨rfl, hroom⟩ | ⟨front, rest, rfl, hcount⟩)
    · exact ⟨[], found, rfl, hroom⟩
    · refine ⟨first :: front, rest, rfl, ?_⟩
      rw [List.countP_cons]
      omega

/-- A record that fits and that a query comes to is among the first that fit. -/
theorem ComesTo.mem_take {q : Query} {room : ℕ} {found : List Json} {record : Json}
    (h : q.ComesTo room found record) (hfits : q.fits record = true) :
    record ∈ (found.filter q.fits).take room := by
  obtain ⟨front, rest, rfl, hcount⟩ := h
  rw [List.countP_eq_length_filter] at hcount
  rw [List.filter_append, List.filter_cons_of_pos hfits, List.take_append]
  refine List.mem_append_right _ ?_
  obtain ⟨less, hless⟩ : ∃ less, room - (front.filter q.fits).length = less + 1 :=
    ⟨room - (front.filter q.fits).length - 1, by omega⟩
  rw [hless, List.take_succ_cons]
  exact List.mem_cons_self

/-- **Skipping everything that is no object changes nothing** for a query that comes to objects
only. -/
theorem take_fitting_objects {q : Query} {room : ℕ} {found : List Json}
    (h : ∀ record, q.ComesTo room found record → record.isObject = true) :
    ((found.filter Json.isObject).filter q.fits).take room =
      (found.filter q.fits).take room := by
  induction found generalizing room with
  | nil => rfl
  | cons first found ih =>
      have hfound (record : Json)
          (hrecord : q.ComesTo (room - if q.fits first then 1 else 0) found record) :=
        h record (comesTo_cons.2 (.inr hrecord))
      cases room with
      | zero => rw [List.take_zero, List.take_zero]
      | succ room =>
          have hfirst := h first (comesTo_cons.2 (.inl ⟨rfl, Nat.succ_pos room⟩))
          rw [List.filter_cons_of_pos hfirst]
          cases hfits : q.fits first with
          | true =>
              rw [hfits, if_pos rfl, Nat.add_sub_cancel] at hfound
              rw [List.filter_cons_of_pos hfits, List.filter_cons_of_pos hfits,
                List.take_succ_cons, List.take_succ_cons, ih hfound]
          | false =>
              rw [hfits, if_neg Bool.false_ne_true, Nat.sub_zero] at hfound
              rw [List.filter_cons_of_neg (by simp [hfits]),
                List.filter_cons_of_neg (by simp [hfits]), ih hfound]

end Query

/-! ### The loop of a query -/

/-- **A query takes the first records that fit**, if it can judge all that it comes to. -/
theorem pick_eq {q : Query} {more : ℕ} {found : List Json}
    (h : ∀ record, q.ComesTo (more + 1) found record → record.isObject = true ∨ ¬ q.Filters) :
    pick q more found = .ok ((found.filter q.fits).take (more + 1)) := by
  induction found generalizing more with
  | nil => rfl
  | cons first found ih =>
      have hfirst := q.admits_eq (h first (Query.comesTo_cons.2 (.inl ⟨rfl, Nat.succ_pos more⟩)))
      have hfound (record : Json)
          (hrecord : q.ComesTo (more + 1 - if q.fits first then 1 else 0) found record) :=
        h record (Query.comesTo_cons.2 (.inr hrecord))
      simp only [pick, hfirst]
      cases hfits : q.fits first with
      | false =>
          rw [hfits, if_neg Bool.false_ne_true, Nat.sub_zero] at hfound
          rw [List.filter_cons_of_neg (by simp [hfits])]
          exact ih hfound
      | true =>
          rw [hfits, if_pos rfl, Nat.add_sub_cancel] at hfound
          rw [List.filter_cons_of_pos hfits, List.take_succ_cons]
          cases more with
          | zero => rw [List.take_zero]
          | succ more => simp only [ih hfound, Except.map]

/-- **A query with filters fails** if it comes to a record that is no object. -/
theorem pick_eq_error {q : Query} (hfilters : q.Filters) {more : ℕ} {found : List Json}
    {record : Json} (h : q.ComesTo (more + 1) found record) (hobject : record.isObject = false) :
    pick q more found = .error .notAnObject := by
  induction found generalizing more with
  | nil =>
      obtain ⟨front, rest, heq, -⟩ := h
      exact absurd heq.symm (List.append_ne_nil_of_right_ne_nil _ (List.cons_ne_nil _ _))
  | cons first found ih =>
      simp only [pick]
      cases hfirst : first.isObject with
      | false => rw [q.admits_eq_error hfilters hfirst]
      | true =>
          -- the query passes the first record and comes to the other one later
          have hlater := (Query.comesTo_cons.1 h).resolve_left fun heq => by
            rw [heq.1, hfirst] at hobject
            cases hobject
          rw [q.admits_eq (.inl hfirst)]
          cases hfits : q.fits first with
          | false =>
              rw [hfits, if_neg Bool.false_ne_true, Nat.sub_zero] at hlater
              exact ih hlater
          | true =>
              rw [hfits, if_pos rfl, Nat.add_sub_cancel] at hlater
              cases more with
              | zero =>
                  obtain ⟨front, rest, -, hcount⟩ := hlater
                  exact absurd hcount (Nat.not_lt_zero _)
              | succ more => simp only [ih hlater, Except.map]

/-- **Reading is picking from the values**, if no whole number has too many digits. -/
theorem read_eq (tailBytes : ℤ) (q : Query) (log : Log) :
    read tailBytes q log =
      match (lines tailBytes log).findSome? excess? with
      | some count => .error (.tooManyDigits count)
      | none => pick q (q.room - 1) (values tailBytes log) := by
  have hroom : q.room - 1 = (min q.limit maxRecords).toNat - 1 := by
    rw [Query.room]
    omega
  rw [read, records, recordsOnto_eq, List.append_nil, hroom]
  cases (lines tailBytes log).findSome? excess? <;> rfl

/-- **The ways in which reading ends**: on too many digits, on a record that is no object, or with
the first records that fit. -/
theorem read_cases (tailBytes : ℤ) (q : Query) (log : Log) :
    (∃ count, (lines tailBytes log).findSome? excess? = some count ∧
        read tailBytes q log = .error (.tooManyDigits count)) ∨
      (lines tailBytes log).findSome? excess? = none ∧
        ((q.Filters ∧ (∃ record, q.ComesTo q.room (values tailBytes log) record ∧
              record.isObject = false) ∧ read tailBytes q log = .error .notAnObject) ∨
          (∀ record, q.ComesTo q.room (values tailBytes log) record →
              record.isObject = true ∨ ¬ q.Filters) ∧
            read tailBytes q log = .ok (((values tailBytes log).filter q.fits).take q.room)) := by
  have hread := read_eq tailBytes q log
  cases hexcess : (lines tailBytes log).findSome? excess? with
  | some count =>
      rw [hexcess] at hread
      exact .inl ⟨count, rfl, hread⟩
  | none =>
      rw [hexcess] at hread
      have hroom : q.room - 1 + 1 = q.room := by
        rw [Query.room]
        omega
      refine .inr ⟨rfl, ?_⟩
      by_cases hbad : q.Filters ∧
          ∃ record, q.ComesTo q.room (values tailBytes log) record ∧ record.isObject = false
      · obtain ⟨hfilters, record, hcomes, hobject⟩ := hbad
        refine .inl ⟨hfilters, ⟨record, hcomes, hobject⟩, ?_⟩
        rw [hread]
        exact pick_eq_error hfilters (hroom ▸ hcomes) hobject
      · have hgood : ∀ record, q.ComesTo q.room (values tailBytes log) record →
            record.isObject = true ∨ ¬ q.Filters := by
          intro record hcomes
          cases hobject : record.isObject with
          | true => exact .inl rfl
          | false => exact .inr fun hfilters => hbad ⟨hfilters, record, hcomes, hobject⟩
        refine .inr ⟨hgood, ?_⟩
        simp only [hread, pick_eq (hroom.symm ▸ hgood), hroom]

/-! ### Damaged logs -/

/-- Whether a query **copes** with a log: no whole number in the window has too many digits, and
the query comes to objects only. -/
structure Query.Copes (q : Query) (tailBytes : ℤ) (log : Log) : Prop where
  digits : ∀ line ∈ lines tailBytes log, excess? line = none
  objects : ∀ record, q.ComesTo q.room (values tailBytes log) record → record.isObject = true

/-- **A query that copes** with a log gives the first records that fit. -/
theorem Query.Copes.read_eq {q : Query} {tailBytes : ℤ} {log : Log} (h : q.Copes tailBytes log) :
    read tailBytes q log = .ok (((values tailBytes log).filter q.fits).take q.room) := by
  rcases read_cases tailBytes q log with ⟨count, hcount, -⟩ | ⟨-, h' | ⟨-, hread⟩⟩
  · rw [List.findSome?_eq_none_iff.2 h.digits] at hcount
    cases hcount
  · obtain ⟨-, ⟨record, hcomes, hobject⟩, -⟩ := h'
    rw [h.objects record hcomes] at hobject
    cases hobject
  · exact hread

/-- **When a query answers with objects**: exactly if it copes with the log, whatever bytes this
holds. It gives then the first objects that fit, and everything else in the log is skipped. It fails
exactly if a whole number in the window has too many digits, or if it filters and comes to a value
that is no object. -/
theorem read_objects_iff (tailBytes : ℤ) (q : Query) (log : Log) :
    ((∃ found, read tailBytes q log = .ok found ∧ ∀ record ∈ found, record.isObject = true) ↔
        q.Copes tailBytes log) ∧
      (q.Copes tailBytes log → read tailBytes q log =
        .ok ((((values tailBytes log).filter Json.isObject).filter q.fits).take q.room)) ∧
      (∀ count, read tailBytes q log = .error (.tooManyDigits count) ↔
        (lines tailBytes log).findSome? excess? = some count) ∧
      (read tailBytes q log = .error .notAnObject ↔
        (∀ line ∈ lines tailBytes log, excess? line = none) ∧ q.Filters ∧
          ∃ record, q.ComesTo q.room (values tailBytes log) record ∧ record.isObject = false) := by
  have hanswer (h : q.Copes tailBytes log) : read tailBytes q log =
      .ok ((((values tailBytes log).filter Json.isObject).filter q.fits).take q.room) := by
    rw [q.take_fitting_objects h.objects, h.read_eq]
  refine ⟨⟨?_, fun h => ⟨_, hanswer h, fun record hrecord => ?_⟩⟩, hanswer, ?_, ?_⟩
  · rintro ⟨found, hfound, hobjects⟩
    rcases read_cases tailBytes q log with
      ⟨count, -, hread⟩ | ⟨hnone, ⟨-, -, hread⟩ | ⟨hgood, hread⟩⟩
    · rw [hread] at hfound
      cases hfound
    · rw [hread] at hfound
      cases hfound
    · refine ⟨List.findSome?_eq_none_iff.1 hnone, fun record hcomes => ?_⟩
      rcases hgood record hcomes with hobject | hfilters
      · exact hobject
      · -- without filters the query gives what it comes to
        rw [hread, Except.ok.injEq] at hfound
        exact hobjects record (hfound ▸ hcomes.mem_take (Query.fits_of_not_filters hfilters record))
  · exact (List.mem_filter.1 (List.mem_filter.1 (List.mem_of_mem_take hrecord)).1).2
  · intro count
    rcases read_cases tailBytes q log with
      ⟨other, hother, hread⟩ | ⟨hnone, ⟨-, -, hread⟩ | ⟨-, hread⟩⟩
    · rw [hread, hother]
      simp
    · simp [hread, hnone]
    · simp [hread, hnone]
  · rw [← List.findSome?_eq_none_iff]
    rcases read_cases tailBytes q log with ⟨count, hcount, hread⟩ | ⟨hnone, h | ⟨hgood, hread⟩⟩
    · simp [hread, hcount]
    · obtain ⟨hfilters, hbad, hread⟩ := h
      exact iff_of_true hread ⟨hnone, hfilters, hbad⟩
    · refine iff_of_false (by rw [hread]; exact fun h => by cases h) ?_
      rintro ⟨-, hfilters, record, hcomes, hobject⟩
      rcases hgood record hcomes with h | h
      · rw [h] at hobject
        cases hobject
      · exact h hfilters

/-- A query for one error: the latest line is cut within a character, the one before it within an
array, then comes the error, and the number behind it is not reached. -/
theorem read_objects_iff_damaged :
    let log : Log := encodeUtf8 "5\n\x7b\"level\": \"error\"\x7d\n[1,\n" ++ [0xE2, 0x82]
    let q : Query := { level := "error", limit := 1 }
    q.Copes 100 log ∧ read 100 q log = .ok [.object [("level", .text "error")]] := by
  intro log q
  let error : Json := .object [("level", .text "error")]
  have herror : error.WellFormed :=
    .object (by decide) (List.forall_mem_singleton.2 (.text "error"))
  have hnumber : (Json.whole 5).WellFormed := .whole (by decide)
  have hlines : lines 100 log =
      [(Json.whole 5).toRecord, error.toRecord, ['[', '1', ','], [replacement]] := by
    decide +kernel
  have hbroken : value? ['[', '1', ','] = none ∧ value? [replacement] = none :=
    ⟨Option.isNone_iff_eq_none.1 (by decide +kernel),
      Option.isNone_iff_eq_none.1 (by decide +kernel)⟩
  have hvalues : values 100 log = [error, .whole 5] := by
    simp only [values, hlines, List.filterMap_cons, List.filterMap_nil, hbroken,
      value?_toRecord herror, value?_toRecord hnumber]
    rfl
  have hfits : q.fits error = true := by decide +kernel
  have hcopes : q.Copes 100 log := by
    refine ⟨by decide +kernel, fun record hcomes => ?_⟩
    rw [hvalues, Query.comesTo_cons] at hcomes
    rcases hcomes with ⟨rfl, -⟩ | ⟨front, rest, -, hcount⟩
    · rfl
    · rw [hfits] at hcount
      exact absurd hcount (Nat.not_lt_zero _)
  refine ⟨hcopes, ?_⟩
  rw [(read_objects_iff 100 q log).2.1 hcopes, hvalues]
  simp [Json.isObject, error, hfits, Query.room, q, maxRecords]

/-- A line that holds a number makes a query with a filter fail. -/
theorem not_forall_read_objects :
    ¬ ∀ (tailBytes : ℤ) (q : Query) (log : Log),
      ∃ found, read tailBytes q log = .ok found ∧ ∀ record ∈ found, record.isObject = true := by
  intro h
  have hnumber : (Json.whole 5).WellFormed := .whole (by decide)
  have hlines : lines 100 [0x35, 0x0A] = [(Json.whole 5).toRecord, []] := by decide +kernel
  have hexcess : (lines 100 [0x35, 0x0A]).findSome? excess? = none := by decide +kernel
  have hvalues : values 100 [0x35, 0x0A] = [.whole 5] := by
    rw [values, hlines, List.filterMap_cons, value?_toRecord hnumber]
    rfl
  obtain ⟨found, hread, -⟩ := h 100 { level := "error" } [0x35, 0x0A]
  rw [read_eq, hexcess, hvalues] at hread
  cases hread

/-! ### Logs of objects -/

/-- Whether a log **holds objects**: every line of the window is an object, or no JSON. -/
def HoldsObjects (tailBytes : ℤ) (log : Log) : Prop :=
  ∀ line ∈ lines tailBytes log, excess? line = none ∧ (value? line).all Json.isObject = true

instance (tailBytes : ℤ) (log : Log) : Decidable (HoldsObjects tailBytes log) :=
  inferInstanceAs (Decidable (∀ line ∈ lines tailBytes log, _ ∧ _))

/-- Every query copes with a log that holds objects. -/
theorem HoldsObjects.copes {tailBytes : ℤ} {log : Log} (h : HoldsObjects tailBytes log)
    (q : Query) : q.Copes tailBytes log where
  digits line hline := (h line hline).1
  objects record hcomes := by
    obtain ⟨front, rest, hvalues, -⟩ := hcomes
    have hmem : record ∈ values tailBytes log := by
      rw [hvalues]
      exact List.mem_append_right _ List.mem_cons_self
    obtain ⟨line, hline, hvalue⟩ := List.mem_filterMap.1 (List.mem_reverse.1 hmem)
    have hobject := (h line hline).2
    rw [hvalue] at hobject
    exact hobject

/-- **A query on a log of objects.** It gives, the latest first, the first records that fit, as many
as it has room for. These are the first within its limit, and no more than its limit, exactly if the
limit is not zero or no record fits at all. With a higher limit older records are added behind
them. -/
theorem read_fitting_iff {tailBytes : ℤ} {log : Log} (h : HoldsObjects tailBytes log) {q : Query}
    (hlimit : 0 ≤ q.limit) :
    let fitting := (values tailBytes log).filter q.fits
    let answer := fitting.take q.room
    read tailBytes q log = .ok answer ∧
      (answer = fitting.take (min q.limit maxRecords).toNat ↔ 1 ≤ q.limit ∨ fitting = []) ∧
      ((answer.length : ℤ) ≤ q.limit ↔ 1 ≤ q.limit ∨ fitting = []) ∧
      ∀ more ≥ q.limit, ∃ older, answer ++ older <+: fitting ∧
        read tailBytes { q with limit := more } log = .ok (answer ++ older) := by
  intro fitting answer
  have hmost : maxRecords = 2000 := rfl
  have hroom : 1 ≤ q.limit ∧ q.room = (min q.limit maxRecords).toNat ∨
      q.limit = 0 ∧ q.room = 1 := by
    rw [Query.room]
    omega
  refine ⟨(h.copes q).read_eq, ?_, ?_, fun more hmore => ?_⟩
  · rcases hroom with ⟨hpos, heq⟩ | ⟨hzero, heq⟩
    · exact iff_of_true (congrArg fitting.take heq) (.inl hpos)
    · have hnone : (min q.limit maxRecords).toNat = 0 := by omega
      rw [show answer = fitting.take 1 from congrArg fitting.take heq, hnone, List.take_zero,
        List.take_eq_nil_iff]
      simp [hzero]
  · rcases hroom with ⟨hpos, heq⟩ | ⟨hzero, heq⟩
    · have hlength : answer.length ≤ q.room := List.length_take_le _ _
      exact iff_of_true (by omega) (.inl hpos)
    · have hlength : answer.length = min 1 fitting.length := by
        rw [← heq]
        exact List.length_take
      rw [← List.length_eq_zero_iff]
      omega
  · let wider : Query := { q with limit := more }
    have hle : q.room ≤ wider.room := by
      show max 1 (min q.limit maxRecords).toNat ≤ max 1 (min more maxRecords).toNat
      omega
    have hgrown : answer ++ (fitting.drop q.room).take (wider.room - q.room) =
        fitting.take wider.room := by
      rw [← List.take_add, Nat.add_sub_cancel' hle]
    refine ⟨_, hgrown ▸ List.take_prefix _ _, ?_⟩
    rw [hgrown]
    exact (h.copes wider).read_eq

/-- A query for two records of one level, on a log with a torn line and one record of that
level. -/
theorem read_fitting_iff_torn :
    let log : Log := encodeUtf8 "\x7b\x7d\n\x7b\n\x7b\"level\": \"info\"\x7d\n"
    let q : Query := { level := "info", limit := 2 }
    HoldsObjects 100 log ∧ 0 ≤ q.limit ∧
      read 100 q log = .ok [.object [("level", .text "info")]] := by
  intro log q
  let info : Json := .object [("level", .text "info")]
  have hinfo : info.WellFormed := .object (by decide) (List.forall_mem_singleton.2 (.text "info"))
  have hempty : (Json.object []).WellFormed := .object (by decide) (by simp)
  have hlines : lines 100 log = [(Json.object []).toRecord, ['\x7b'], info.toRecord, []] := by
    decide +kernel
  have hbroken : value? ['\x7b'] = none ∧ value? [] = none :=
    ⟨Option.isNone_iff_eq_none.1 (by decide +kernel),
      Option.isNone_iff_eq_none.1 (by decide +kernel)⟩
  have hvalues : values 100 log = [info, .object []] := by
    simp only [values, hlines, List.filterMap_cons, List.filterMap_nil, hbroken,
      value?_toRecord hinfo, value?_toRecord hempty]
    rfl
  have hholds : HoldsObjects 100 log := by decide +kernel
  have hlimit : 0 ≤ q.limit := by decide
  have hfits : q.fits info = true ∧ q.fits (.object []) = false :=
    ⟨by decide +kernel, by decide +kernel⟩
  refine ⟨hholds, hlimit, ?_⟩
  rw [(read_fitting_iff hholds hlimit).1, hvalues]
  simp [info, hfits, Query.room, q, maxRecords]

/-- A query with the limit zero gives a record. -/
theorem not_forall_read_within_limit :
    ¬ ∀ (tailBytes : ℤ) (q : Query) (log : Log), HoldsObjects tailBytes log → 0 ≤ q.limit →
      read tailBytes q log =
        .ok (((values tailBytes log).filter q.fits).take (min q.limit maxRecords).toNat) := by
  intro h
  let log : Log := [0x7B, 0x7D, 0x0A]
  have hempty : (Json.object []).WellFormed := .object (by decide) (by simp)
  have hlines : lines 100 log = [(Json.object []).toRecord, []] := by decide +kernel
  have hexcess : (lines 100 log).findSome? excess? = none := by decide +kernel
  have hvalues : values 100 log = [.object []] := by
    rw [values, hlines, List.filterMap_cons, value?_toRecord hempty]
    rfl
  have hread := h 100 { limit := 0 } log (by decide +kernel) (Int.le_refl 0)
  rw [read_eq, hexcess, hvalues] at hread
  cases hread

end Log

end Formulary
