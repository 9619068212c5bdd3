import Formulary.Proofs.JsonTexts
import Formulary.Proofs.Recording

/-!
# The Log Read Back

A reader cuts the log at some byte, reads what is left as text, and takes that text apart into
lines. This module proves that nothing is damaged on the way: whatever the events hold and wherever
the cut falls, the reader finds the records of the latest events, each of them whole.

## Conventions

An **entry** is an event with the time of its writing. Its line starts at the byte whose number is
the size of the log before it. If the log is longer than the part that a reader looks at, a line is
found exactly if it starts behind the first byte of that part; a line that starts with that byte
counts as cut.

The contexts of events are well formed, so that their text reads back. A record is read back with
the fields of its objects in the order of their names.

## Main results

* `decodeUtf8_asciiBytes`: text of ASCII characters comes back from its bytes.
* `looseLines_flatMap`: lines without line ends come back from their text.
* `exists_drop_lines`: what a cut leaves of a sequence of lines.
* `Log.read_ofEntries`: what a query without filters gives on the log of some entries.
* `Sink.read_writeEach`: what it gives after some events were written.
-/

namespace Formulary

namespace Text

/-! ### Bytes -/

/-- The byte of an ASCII character. -/
def asciiByte (c : Char) : UInt8 :=
  UInt8.ofNat c.toNat

/-- The byte of an ASCII character has its number. -/
theorem toNat_asciiByte {c : Char} (h : c.toNat < 0x80) : (asciiByte c).toNat = c.toNat := by
  rw [asciiByte, UInt8.toNat_ofNat']
  omega

/-- An ASCII character is written as its byte. -/
theorem encodeUtf8_ascii {cs : List Char} (h : ∀ c ∈ cs, c.toNat < 0x80) :
    encodeUtf8 (String.ofList cs) = cs.map asciiByte := by
  rw [encodeUtf8, String.toList_ofList]
  induction cs with
  | nil => rfl
  | cons c cs ih =>
      obtain ⟨hc, hcs⟩ := List.forall_mem_cons.1 h
      have hbyte : String.utf8EncodeChar c = [asciiByte c] := by
        have hle : c.val.toNat ≤ 127 := Nat.le_of_lt_succ hc
        rw [String.utf8EncodeChar, if_pos hle]
        rfl
      rw [List.flatMap_cons, ih hcs, hbyte]
      rfl

/-- **ASCII text comes back from its bytes.** -/
theorem decodeUtf8_asciiBytes {cs : List Char} (h : ∀ c ∈ cs, c.toNat < 0x80) :
    decodeUtf8 (cs.map asciiByte) = cs := by
  have hbytes : ∀ b ∈ cs.map asciiByte, b.toNat < 0x80 :=
    List.forall_mem_map.2 fun c hc => by rw [toNat_asciiByte (h c hc)]; exact h c hc
  rw [decodeUtf8_ascii _ hbytes, List.map_map]
  refine (List.map_congr_left fun c hc => ?_).trans cs.map_id
  show Char.ofNat (asciiByte c).toNat = c
  rw [toNat_asciiByte (h c hc), Char.ofNat_toNat]

/-! ### Lines -/

/-- A line is taken off a text. -/
theorem looseLines_go_line {body : List Char} (h : ∀ c ∈ body, isLineEnd c = false)
    (line : List Char) (lines : List (List Char)) (rest : List Char) :
    looseLines.go line lines (body ++ '\n' :: rest) =
      looseLines.go [] ((line.reverse ++ body) :: lines) rest := by
  induction body generalizing line with
  | nil =>
      rw [List.nil_append, looseLines.go, if_pos (by decide), List.append_nil]
  | cons c body ih =>
      obtain ⟨hc, hbody⟩ := List.forall_mem_cons.1 h
      rw [List.cons_append, looseLines.go, hc, if_neg Bool.false_ne_true, ih hbody,
        List.reverse_cons, List.append_assoc]
      rfl

/-- **Lines without line ends come back from their text**, with an empty line behind the last line
feed. -/
theorem looseLines_flatMap {bodies : List (List Char)}
    (h : ∀ body ∈ bodies, ∀ c ∈ body, isLineEnd c = false) :
    looseLines (bodies.flatMap (· ++ ['\n'])) = bodies ++ [[]] := by
  have hgo (lines : List (List Char)) :
      looseLines.go [] lines (bodies.flatMap (· ++ ['\n'])) = lines.reverse ++ bodies ++ [[]] := by
    induction bodies generalizing lines with
    | nil => simp [looseLines.go]
    | cons body bodies ih =>
        obtain ⟨hbody, hbodies⟩ := List.forall_mem_cons.1 h
        rw [List.flatMap_cons, List.append_assoc, List.singleton_append, looseLines_go_line hbody,
          ih hbodies]
        simp
  exact hgo []

/-- **What a cut leaves of a sequence of lines**: if everything up to the first separator behind the
cut is dropped, the lines are left that start behind the cut. -/
theorem exists_drop_lines {α : Type} [BEq α] [LawfulBEq α] {sep : α} {bodies : List (List α)}
    (h : ∀ body ∈ bodies, sep ∉ body) (cut : ℕ) :
    ∃ k ≤ bodies.length,
      (∀ i < bodies.length,
        k ≤ i ↔ cut < ((bodies.take i).flatMap (· ++ [sep])).length) ∧
      ((((bodies.flatMap (· ++ [sep])).drop cut).dropWhile (· != sep)).drop 1) =
        (bodies.drop k).flatMap (· ++ [sep]) := by
  induction bodies generalizing cut with
  | nil => exact ⟨0, Nat.le_refl 0, fun i hi => absurd hi (Nat.not_lt_zero i), by simp⟩
  | cons body bodies ih =>
      obtain ⟨hbody, hbodies⟩ := List.forall_mem_cons.1 h
      have hlength (i : ℕ) : (((body :: bodies).take (i + 1)).flatMap (· ++ [sep])).length =
          body.length + 1 + ((bodies.take i).flatMap (· ++ [sep])).length := by
        rw [List.take_succ_cons, List.flatMap_cons, List.length_append, List.length_append]
        rfl
      have hfirst : ¬ 1 ≤ 0 ∧ ¬ cut < (((body :: bodies).take 0).flatMap (· ++ [sep])).length :=
        ⟨by omega, Nat.not_lt_zero cut⟩
      rw [List.flatMap_cons]
      by_cases hcut : cut ≤ body.length
      · -- the cut falls into the first line, which is dropped
        refine ⟨1, by simp, fun i hi => ?_, ?_⟩
        · cases i with
          | zero => exact iff_of_false hfirst.1 hfirst.2
          | succ i => exact iff_of_true (by omega) (by rw [hlength]; omega)
        · have hne : ∀ x ∈ body.drop cut, (x != sep) = true := fun x hx =>
            bne_iff_ne.2 fun heq => hbody (heq ▸ List.mem_of_mem_drop hx)
          rw [List.append_assoc, List.drop_append_of_le_length hcut,
            List.dropWhile_append_of_pos hne]
          simp
      · -- the cut falls behind the first line
        obtain ⟨k, hk, hstarts, hdrop⟩ := ih hbodies (cut - (body.length + 1))
        refine ⟨k + 1, Nat.succ_le_succ hk, fun i hi => ?_, ?_⟩
        · cases i with
          | zero => exact iff_of_false (Nat.not_succ_le_zero k) hfirst.2
          | succ i =>
              rw [Nat.succ_le_succ_iff, hstarts i (Nat.lt_of_succ_lt_succ hi), hlength]
              omega
        · have hfront : (body ++ [sep]).length ≤ cut := by
            rw [List.length_append, List.length_singleton]
            omega
          rw [List.drop_append, List.drop_eq_nil_of_le hfront, List.nil_append, List.length_append,
            List.length_singleton, hdrop]
          rfl

end Text

open Text

/-! ### Records -/

namespace Json

/-- A plain character is ASCII and ends no line. -/
theorem IsPlain.spec {c : Char} (h : IsPlain c) : c.toNat < 0x80 ∧ isLineEnd c = false := by
  refine ⟨h.2, ?_⟩
  obtain ⟨hlow, hhigh⟩ := h
  simp [isLineEnd, lineEndRanges, CodeRanges.holds]
  omega

end Json

namespace Event

/-- **The record of an event is well formed** if its context is. -/
theorem wellFormed_record {e : Event} (h : (Json.object e.context).WellFormed) (time : String) :
    (e.record time).WellFormed := by
  refine .object (by decide : ["schema_version", "ts", "level", "event_type", "context", "message",
    "error_code"].Nodup) ?_
  simp only [List.forall_mem_cons, List.not_mem_nil, false_imp_iff, implies_true, and_true]
  refine ⟨.whole (by decide), .text _, .text _, .text _, h, .text _, ?_⟩
  cases e.code with
  | none => exact .null
  | some code => exact .text code

end Event

namespace Log

/-! ### Queries -/

/-- Records that read as values are found, the latest first, and an empty line is skipped. -/
theorem recordsOnto_append {α : Type} {text : α → List Char} {value : α → Json} {entries : List α}
    (h : ∀ entry ∈ entries, Json.read (text entry) = .ok (value entry)) (found : List Json) :
    recordsOnto found (entries.map text ++ [[]]) =
      .ok ((entries.map value).reverse ++ found) := by
  induction entries generalizing found with
  | nil => rfl
  | cons entry entries ih =>
      obtain ⟨hentry, hentries⟩ := List.forall_mem_cons.1 h
      rw [List.map_cons, List.cons_append, recordsOnto, hentry]
      simp only
      rw [ih hentries, List.map_cons, List.reverse_cons, List.append_assoc]
      rfl

/-- A query without filters picks the first records for which there is room. -/
theorem pick_unfiltered {q : Query} (hlevel : q.level.isEmpty = true)
    (hkind : q.kind.isEmpty = true) (more : ℕ) (found : List Json) :
    pick q more found = .ok (found.take (more + 1)) := by
  have hadmits (record : Json) : q.admits record = .ok true := by
    simp only [Query.admits, passes, hlevel, hkind, if_true]
  induction found generalizing more with
  | nil => rfl
  | cons record rest ih =>
      cases more with
      | zero => simp only [pick, hadmits, List.take_succ_cons, List.take_zero]
      | succ more => simp only [pick, hadmits, ih, Except.map, List.take_succ_cons]

/-! ### Entries -/

/-- An **entry** of the log: an event and the time of its writing. -/
abbrev Entry := Event × String

/-- Whether the context of an entry is well formed. -/
def Entry.WellFormed (entry : Entry) : Prop :=
  (Json.object entry.1.context).WellFormed

/-- The text of the line of an entry. -/
def Entry.text (entry : Entry) : List Char :=
  (entry.1.record entry.2).toRecord

/-- The record of an entry **as it reads back**. -/
def Entry.found (entry : Entry) : Json :=
  (entry.1.record entry.2).sorted

/-- The line of an entry is ASCII without line ends, and reads back. -/
theorem Entry.WellFormed.spec {entry : Entry} (h : entry.WellFormed) :
    (∀ c ∈ entry.text, c.toNat < 0x80 ∧ isLineEnd c = false) ∧
      Json.read entry.text = .ok entry.found := by
  obtain ⟨hplain, hread⟩ := Json.read_toRecord (Event.wellFormed_record h entry.2)
  exact ⟨fun c hc => (hplain c hc).spec, hread⟩

/-- The bytes of the text of an entry hold no line feed. -/
theorem Entry.WellFormed.lineFeed_not_mem {entry : Entry} (h : entry.WellFormed) :
    lineFeed ∉ entry.text.map asciiByte := by
  intro hmem
  obtain ⟨c, hc, hfeed⟩ := List.mem_map.1 hmem
  obtain ⟨hascii, hend⟩ := h.spec.1 c hc
  obtain rfl : c = '\n' := by
    rw [← Char.ofNat_toNat c, ← toNat_asciiByte hascii, hfeed]
    rfl
  cases hend

/-- The **log of some entries** in the order of their writing. -/
def ofEntries (entries : List Entry) : Log :=
  entries.flatMap fun entry => line entry.1 entry.2

section

variable {entries : List Entry} (h : ∀ entry ∈ entries, entry.WellFormed)
include h

/-- The log as lines of ASCII characters, each with a line feed behind it. -/
theorem ofEntries_eq :
    ofEntries entries = ((entries.map Entry.text).flatMap (· ++ ['\n'])).map asciiByte ∧
      ofEntries entries =
        (entries.map fun entry => entry.text.map asciiByte).flatMap (· ++ [lineFeed]) := by
  have hline (entry : Entry) (hentry : entry ∈ entries) :
      line entry.1 entry.2 = entry.text.map asciiByte ++ [lineFeed] := by
    rw [line, ← encodeUtf8_ascii fun c hc => ((h entry hentry).spec.1 c hc).1]
    rfl
  rw [List.map_flatMap, List.flatMap_map, List.flatMap_map, ofEntries]
  refine ⟨?_, ?_⟩
  all_goals
    refine List.flatMap_congr fun entry hentry => ?_
    rw [hline entry hentry]
  rw [List.map_append]
  rfl

/-- A line has as many bytes as characters, and the line feed. -/
theorem length_ofEntries :
    (ofEntries entries).length = (entries.map fun entry => entry.text.length + 1).sum := by
  rw [(ofEntries_eq h).1, List.length_map, List.length_flatMap, List.map_map]
  simp [Function.comp_def]

/-- The log of entries is read as their lines. -/
theorem looseLines_ofEntries :
    looseLines (decodeUtf8 (ofEntries entries)) = entries.map Entry.text ++ [[]] := by
  have hplain (text : List Char) (htext : text ∈ entries.map Entry.text) :
      ∀ c ∈ text, c.toNat < 0x80 ∧ isLineEnd c = false := by
    obtain ⟨entry, hentry, rfl⟩ := List.mem_map.1 htext
    exact (h entry hentry).spec.1
  have hascii : ∀ c ∈ (entries.map Entry.text).flatMap (· ++ ['\n']), c.toNat < 0x80 := by
    intro c hc
    obtain ⟨text, htext, hc⟩ := List.mem_flatMap.1 hc
    rcases List.mem_append.1 hc with hc | hc
    · exact (hplain text htext c hc).1
    · rw [List.mem_singleton.1 hc]
      decide
  rw [(ofEntries_eq h).1, decodeUtf8_asciiBytes hascii]
  exact looseLines_flatMap fun text htext c hc => (hplain text htext c hc).2

/-- **The window of a reader holds whole lines**: of the entries those whose lines start behind its
first byte, or all of them if the log is no longer than the window. -/
theorem exists_window (tailBytes : ℤ) :
    ∃ k ≤ entries.length,
      (∀ i < entries.length,
        k ≤ i ↔ ((ofEntries entries).length : ℤ) ≤ tailBytes ∨
          (ofEntries entries).length - tailBytes < (ofEntries (entries.take i)).length) ∧
      window tailBytes (ofEntries entries) = ofEntries (entries.drop k) := by
  by_cases hsize : tailBytes < (ofEntries entries).length
  · have hfeed : ∀ body ∈ entries.map fun entry => entry.text.map asciiByte, lineFeed ∉ body :=
      List.forall_mem_map.2 fun entry hentry => (h entry hentry).lineFeed_not_mem
    obtain ⟨k, hk, hstarts, hdrop⟩ :=
      exists_drop_lines hfeed ((ofEntries entries).length - tailBytes).toNat
    have hpart (part : List Entry) (hpart : ∀ entry ∈ part, entry ∈ entries) :=
      (ofEntries_eq fun entry hentry => h entry (hpart entry hentry)).2
    rw [List.length_map] at hk
    refine ⟨k, hk, fun i hi => ?_, ?_⟩
    · rw [hstarts i (by rw [List.length_map]; exact hi), ← List.map_take,
        ← hpart _ fun entry => List.mem_of_mem_take]
      omega
    · rw [← hpart _ fun entry => id, ← List.map_drop, ← hpart _ fun entry => List.mem_of_mem_drop]
        at hdrop
      rw [window, if_pos hsize]
      exact hdrop
  · have hcut : ((ofEntries entries).length - tailBytes).toNat = 0 := by omega
    refine ⟨0, Nat.zero_le _, fun i hi => iff_of_true (Nat.zero_le i) (.inl (by omega)), ?_⟩
    rw [window, if_neg hsize, hcut, List.drop_zero, List.drop_zero]

/-- **The records of a window of whole lines** are those of its entries, the latest first. -/
theorem records_ofEntries {tailBytes : ℤ} {k : ℕ}
    (hwindow : window tailBytes (ofEntries entries) = ofEntries (entries.drop k)) :
    records tailBytes (ofEntries entries) = .ok ((entries.drop k).reverse.map Entry.found) := by
  have hdrop : ∀ entry ∈ entries.drop k, entry.WellFormed := fun entry hentry =>
    h entry (List.mem_of_mem_drop hentry)
  rw [records, lines, hwindow, looseLines_ofEntries hdrop,
    recordsOnto_append fun entry hentry => (hdrop entry hentry).spec.2, List.append_nil,
    List.map_reverse]

/-- **A query without filters gives the newest entries**, the latest first: of the lines in the
window as many as the limit and the most that a query gives leave. -/
theorem read_ofEntries (tailBytes : ℤ) {limit : ℤ} (hlimit : 1 ≤ limit) :
    ∃ k ≤ entries.length,
      (∀ i < entries.length,
        k ≤ i ↔ ((ofEntries entries).length : ℤ) ≤ tailBytes ∨
          (ofEntries entries).length - tailBytes < (ofEntries (entries.take i)).length) ∧
      read tailBytes { limit } (ofEntries entries) =
        .ok ((entries.reverse.take (min (entries.length - k) (min limit maxRecords).toNat)).map
          Entry.found) := by
  obtain ⟨k, hk, hstarts, hwindow⟩ := exists_window h tailBytes
  refine ⟨k, hk, hstarts, ?_⟩
  have hroom : (min limit maxRecords).toNat - 1 + 1 = (min limit maxRecords).toNat := by
    have hpos : 0 < min limit maxRecords := lt_min (by omega) (by decide)
    omega
  rw [read, records_ofEntries h hwindow, List.reverse_drop]
  simp only
  rw [pick_unfiltered rfl rfl, hroom, ← List.map_take, List.take_take, min_comm]

end

end Log

/-! ### Writing -/

namespace Sink

/-- Writes events one after the other, as they are. -/
def writeEach {m : Type → Type} [Monad m] (disk : Disk m) (s : Sink) :
    List Event → m (List (Except DiskFault Unit))
  | [] => return []
  | e :: rest => do
    let result ← s.write disk e
    return result :: (← s.writeEach disk rest)

/-- The **entries** that are written for events: each event at the time when its turn comes. -/
def entries {σ : Type} (disk : Disk (StateM σ)) (s : Sink) : List Event → σ → List Log.Entry
  | [], _ => []
  | e :: rest, w => (e, (disk.now w).1) :: s.entries disk rest (s.write disk e w).2

/-- Entries are written for the events, in their order. -/
theorem map_entries {σ : Type} (disk : Disk (StateM σ)) (s : Sink) (events : List Event) (w : σ) :
    (s.entries disk events w).map (·.1) = events := by
  induction events generalizing w with
  | nil => rfl
  | cons e rest ih => rw [entries, List.map_cons, ih]

/-- The entries for the first events are the first entries. -/
theorem entries_take {σ : Type} (disk : Disk (StateM σ)) (s : Sink) (events : List Event) (w : σ)
    (i : ℕ) : s.entries disk (events.take i) w = (s.entries disk events w).take i := by
  induction events generalizing w i with
  | nil => simp [entries]
  | cons e rest ih =>
      cases i with
      | zero => rfl
      | succ i => rw [List.take_succ_cons, entries, entries, List.take_succ_cons, ih]

/-- **A sink that works writes the lines of its entries** behind all others. -/
theorem Works.writeEach {σ : Type} {disk : Disk (StateM σ)} {sink : Sink} {usable : σ → Prop}
    {log : σ → Log} (h : sink.Works disk usable log) {w : σ} (hw : usable w) (events : List Event) :
    (sink.writeEach disk events w).1 = events.map (fun _ => .ok ()) ∧
      log (sink.writeEach disk events w).2 =
        log w ++ Log.ofEntries (sink.entries disk events w) := by
  induction events generalizing w with
  | nil => exact ⟨rfl, (List.append_nil _).symm⟩
  | cons e rest ih =>
      obtain ⟨next, hwrite, hnext, hlog⟩ := h.write hw e
      obtain ⟨hresults, hrest⟩ := ih hnext
      have hcons : sink.writeEach disk (e :: rest) w =
          ((sink.write disk e w).1 :: (sink.writeEach disk rest (sink.write disk e w).2).1,
            (sink.writeEach disk rest (sink.write disk e w).2).2) := rfl
      rw [hcons, entries, hwrite]
      refine ⟨by rw [hresults]; rfl, ?_⟩
      rw [hrest, hlog, List.append_assoc]
      rfl

/-- **The newest of what was written is read back, whole.** After events were written in an empty
log, a query without filters gives the records of the newest of them, the latest first. All those
are candidates whose lines start behind the first byte of the part that the reader looks at, or all
there are if the log is no longer than that part, and of these as many are given as the limit and
the most that a query gives leave. -/
theorem read_writeEach {σ : Type} {disk : Disk (StateM σ)} {sink : Sink} {usable : σ → Prop}
    {log : σ → Log} (h : sink.Works disk usable log) {w : σ} (hw : usable w) (hempty : log w = [])
    {events : List Event} (hcontexts : ∀ e ∈ events, (Json.object e.context).WellFormed)
    (tailBytes : ℤ) {limit : ℤ} (hlimit : 1 ≤ limit) :
    let entries := sink.entries disk events w
    let after (i : ℕ) : Log := log (sink.writeEach disk (events.take i) w).2
    let final : Log := log (sink.writeEach disk events w).2
    (sink.writeEach disk events w).1 = events.map (fun _ => .ok ()) ∧
      entries.map (·.1) = events ∧
      final = Log.ofEntries entries ∧
      ∃ k ≤ events.length,
        (∀ i < events.length,
          k ≤ i ↔ (final.length : ℤ) ≤ tailBytes ∨ final.length - tailBytes < (after i).length) ∧
        Log.read tailBytes { limit } final =
          .ok ((entries.reverse.take
            (min (events.length - k) (min limit Log.maxRecords).toNat)).map Log.Entry.found) := by
  intro entries after final
  have hentries : entries.map (·.1) = events := sink.map_entries disk events w
  have hlength : entries.length = events.length := by
    rw [← hentries, List.length_map]
  have hwritten (part : List Event) : log (sink.writeEach disk part w).2 =
      Log.ofEntries (sink.entries disk part w) := by
    rw [(h.writeEach hw part).2, hempty, List.nil_append]
  have hwellFormed : ∀ entry ∈ entries, entry.WellFormed := fun entry hentry =>
    hcontexts entry.1 (hentries ▸ List.mem_map_of_mem hentry)
  obtain ⟨k, hk, hstarts, hread⟩ := Log.read_ofEntries hwellFormed tailBytes hlimit
  rw [hlength] at hk hstarts hread
  have hfinal : final = Log.ofEntries entries := hwritten events
  refine ⟨(h.writeEach hw events).1, hentries, hfinal, k, hk, fun i hi => ?_, ?_⟩
  · have hafter : after i = Log.ofEntries (entries.take i) := by
      rw [← sink.entries_take disk events w i]
      exact hwritten _
    rw [hfinal, hafter]
    exact hstarts i hi
  · rw [hfinal]
    exact hread

/-- Two events whose texts hold line separators, quotes and a character of two units: a cut in the
line of the first leaves the second. -/
theorem read_writeEach_cut :
    let sink : Sink := { directory := .ofString "/log" }
    let disk := FileTree.disk "now"
    let t : FileTree := { entries := [(.ofString "/log", .directory)] }
    let changed : Event :=
      { level := .info, kind := .modeChanged, message := "a\nb\u2028\u0085𝕏\"\\"
        context := [("strict", .bool true), ("depth", .whole (-3))] }
    let failed : Event :=
      { level := .error, kind := .formulaFailed, message := "\r\u001d"
        context := [("formula", .text "é/\x0b")], code := some "unknown_variable" }
    FileTree.Usable sink t ∧ FileTree.logAt sink t = [] ∧
      (∀ e ∈ [changed, failed], (Json.object e.context).WellFormed) ∧
      Log.read 200 { limit := 5 }
          (FileTree.logAt sink (sink.writeEach disk [changed, failed] t).2) =
        .ok [(failed.record "now").sorted] := by
  intro sink disk t changed failed
  have husable : FileTree.Usable sink t := ⟨by decide +kernel, by decide +kernel⟩
  have hempty : FileTree.logAt sink t = [] := by decide +kernel
  have hcontexts : ∀ e ∈ [changed, failed], (Json.object e.context).WellFormed := by
    simp only [List.forall_mem_cons, List.not_mem_nil, false_imp_iff, implies_true, and_true]
    refine ⟨.object (by decide) ?_, .object (by decide) ?_⟩
    · exact List.forall_mem_cons.2 ⟨.bool _, List.forall_mem_singleton.2 (.whole (by decide))⟩
    · exact List.forall_mem_singleton.2 (.text _)
  refine ⟨husable, hempty, hcontexts, ?_⟩
  obtain ⟨-, -, -, k, hk, hstarts, hread⟩ :=
    read_writeEach (FileTree.works sink "now") husable hempty hcontexts 200
      (by decide : 1 ≤ (5 : ℤ))
  -- sizes are counted in characters
  have hlength (i : ℕ) :
      (FileTree.logAt sink (sink.writeEach disk ([changed, failed].take i) t).2).length =
        ((sink.entries disk ([changed, failed].take i) t).map fun entry =>
          entry.text.length + 1).sum := by
    rw [((FileTree.works sink "now").writeEach husable _).2, hempty, List.nil_append]
    refine Log.length_ofEntries fun entry hentry => hcontexts entry.1 ?_
    have hmem := List.mem_map_of_mem (f := (·.1)) hentry
    rw [sink.map_entries disk ([changed, failed].take i) t] at hmem
    exact List.mem_of_mem_take hmem
  have hnone : (FileTree.logAt sink (sink.writeEach disk [] t).2).length = 0 := hlength 0
  have hone : (FileTree.logAt sink (sink.writeEach disk [changed] t).2).length = 191 :=
    (hlength 1).trans (by decide +kernel)
  have hboth : (FileTree.logAt sink (sink.writeEach disk [changed, failed] t).2).length = 379 :=
    (hlength 2).trans (by decide +kernel)
  have hfirst := hstarts 0 (by decide)
  have hsecond := hstarts 1 (by decide)
  simp only [List.take_zero, List.take_succ_cons, disk, hnone, hone, hboth] at hfirst hsecond
  obtain rfl : k = 1 := by omega
  exact hread

end Sink

end Formulary
