import Formulary.Proofs.JsonRemnants
import Formulary.Proofs.LogWindow

/-!
# Writing behind a Torn Line

A log may hold anything when an event is written: broken characters, lines that are no JSON, and a
last line without an end, as an interrupted write leaves it. An event adds its line behind all that
and starts no line of its own. This module says when the record of the event is found afterwards.

## Conventions

The **last line** of a text is what stands behind its last line end. In front of the line of an
event the last line of the log is a remnant, and both are read as one text.

A reader looks at the last bytes of the log. What the new line leaves of them is the size of the
part that the reader still sees of the log as it was. If the log is longer than that, this part
begins behind the first line feed in it, and the reader **reaches** the log only if there is one:
if not, the first line feed that it meets is the one behind the new record, and nothing is left.

## Main results

* `decodeUtf8_append_cons`: an ASCII character is read as itself, whatever stands in front of it.
* `looseLines_append`: what is added to a text continues its last line.
* `window_append`: what a reader sees of a log with one more line.
* `Log.records_append_of_ready`, `Log.records_append_of_not_ready`: whether the record is found.
* `Sink.write_found_iff`: the record is found exactly if the log is ready for it.
-/

namespace Formulary

namespace Text

/-! ### Bytes behind other bytes -/

namespace Decoder

/-- The decoder with more characters that were read before. -/
def onto (d : Decoder) (before : List Char) : Decoder :=
  { d with read := d.read ++ before }

/-- **The start of a character** is put in front of what was read before, and no byte below 128 can
continue it. -/
theorem start_onto (read before : List Char) (b : ℕ) :
    start (read ++ before) b = (start read b).onto before ∧ 0x80 ≤ (start read b).low := by
  simp only [start]
  repeat' split
  all_goals exact ⟨rfl, by simp⟩

/-- **What a byte does** depends on what is owed, and not on what was read before. -/
theorem exists_step_eq (owed low high value : ℕ) (byte : UInt8) :
    ∃ next : Decoder, 0x80 ≤ next.low ∧
      ∀ read, step ⟨owed, low, high, value, read⟩ byte = next.onto read := by
  cases owed with
  | zero =>
      exact ⟨start [] byte.toNat, (start_onto [] [] _).2, fun read => (start_onto [] read _).1⟩
  | succ owed =>
      by_cases hrange : low ≤ byte.toNat ∧ byte.toNat ≤ high
      · cases owed with
        | zero =>
            exact ⟨{ read := [Char.ofNat (value * 64 + (byte.toNat - 0x80))] }, Nat.le_refl _,
              fun read => if_pos hrange⟩
        | succ owed =>
            exact ⟨{ owed := owed + 1, value := value * 64 + (byte.toNat - 0x80) }, Nat.le_refl _,
              fun read => if_pos hrange⟩
      · exact ⟨start [replacement] byte.toNat, (start_onto _ [] _).2,
          fun read => (if_neg hrange).trans (start_onto [replacement] read _).1⟩

/-- **More bytes**: what was read before stays where it is. -/
theorem foldl_step_onto (bytes : List UInt8) (d : Decoder) (before : List Char) :
    bytes.foldl step (d.onto before) = (bytes.foldl step d).onto before := by
  induction bytes generalizing d with
  | nil => rfl
  | cons byte bytes ih =>
      obtain ⟨owed, low, high, value, read⟩ := d
      obtain ⟨next, -, hnext⟩ := exists_step_eq owed low high value byte
      have hboth : next.onto (read ++ before) = (next.onto read).onto before := by
        simp only [onto, List.append_assoc]
      rw [List.foldl_cons, List.foldl_cons, hnext, ← ih, ← hboth, ← hnext]
      rfl

/-- What was read before comes first in the text. -/
theorem finish_onto (d : Decoder) (before : List Char) :
    (d.onto before).finish = before.reverse ++ d.finish := by
  rw [finish, finish, onto]
  simp only
  split
  · rw [List.reverse_append]
  · rw [List.reverse_cons, List.reverse_append, List.reverse_cons, List.append_assoc]

/-- A decoder waits for no byte below 128. -/
theorem low_foldl_step (bytes : List UInt8) {d : Decoder} (h : 0x80 ≤ d.low) :
    0x80 ≤ (bytes.foldl step d).low := by
  induction bytes generalizing d with
  | nil => exact h
  | cons byte bytes ih =>
      obtain ⟨owed, low, high, value, read⟩ := d
      obtain ⟨next, hlow, hnext⟩ := exists_step_eq owed low high value byte
      exact ih (by rw [hnext]; exact hlow)

/-- **A byte below 128 ends whatever was begun** and is read as itself. -/
theorem step_of_low {d : Decoder} (h : 0x80 ≤ d.low) {b : UInt8} (hb : b.toNat < 0x80) :
    d.step b = { read := Char.ofNat b.toNat :: d.finish.reverse } := by
  obtain ⟨owed, low, high, value, read⟩ := d
  cases owed with
  | zero => simp only [step, start, hb, if_true, finish, List.reverse_reverse]
  | succ owed =>
      have hlow : ¬ (low ≤ b.toNat ∧ b.toNat ≤ high) := fun hrange => by
        exact absurd (Nat.le_trans h hrange.1) (by omega)
      simp only [step, hlow, if_false, start, hb, if_true, finish, Nat.succ_ne_zero,
        List.reverse_reverse]

end Decoder

/-- **An ASCII character is read as itself**, whatever stands in front of it. -/
theorem decodeUtf8_append_cons (front : List UInt8) {b : UInt8} (hb : b.toNat < 0x80)
    (rest : List UInt8) :
    decodeUtf8 (front ++ b :: rest) =
      decodeUtf8 front ++ Char.ofNat b.toNat :: decodeUtf8 rest := by
  have hlow : 0x80 ≤ (front.foldl Decoder.step {}).low :=
    Decoder.low_foldl_step front (Nat.le_refl 0x80)
  have honto : ({ read := Char.ofNat b.toNat :: (decodeUtf8 front).reverse } : Decoder) =
      ({} : Decoder).onto (Char.ofNat b.toNat :: (decodeUtf8 front).reverse) := rfl
  rw [decodeUtf8, List.foldl_append, List.foldl_cons, Decoder.step_of_low hlow hb, ← decodeUtf8,
    honto, Decoder.foldl_step_onto, Decoder.finish_onto, ← decodeUtf8, List.reverse_cons,
    List.reverse_reverse, List.append_assoc]
  rfl

/-- ASCII text is read as itself, whatever stands in front of it. -/
theorem decodeUtf8_append_asciiBytes (front : List UInt8) {cs : List Char}
    (h : ∀ c ∈ cs, c.toNat < 0x80) :
    decodeUtf8 (front ++ cs.map asciiByte) = decodeUtf8 front ++ cs := by
  cases cs with
  | nil => rw [List.map_nil, List.append_nil, List.append_nil]
  | cons c cs =>
      obtain ⟨hc, hcs⟩ := List.forall_mem_cons.1 h
      have hbyte := toNat_asciiByte hc
      rw [List.map_cons, decodeUtf8_append_cons front (hbyte ▸ hc), decodeUtf8_asciiBytes hcs,
        hbyte, Char.ofNat_toNat]

/-! ### Lines behind other lines -/

/-- The **last line** of a text: what stands behind the last line end. -/
def lastLine (cs : List Char) : List Char :=
  (looseLines cs).getLastD []

/-- **What is added to a text** continues its last line. -/
theorem looseLines_append (cs more : List Char) :
    looseLines cs = (looseLines cs).dropLast ++ [lastLine cs] ∧
      looseLines (cs ++ more) =
        looseLines.go (lastLine cs).reverse (looseLines cs).dropLast.reverse more := by
  have hgo (line : List Char) (lines : List (List Char)) :
      ∃ last before, ∀ more,
        looseLines.go line lines (cs ++ more) = looseLines.go last before more := by
    induction cs generalizing line lines with
    | nil => exact ⟨line, lines, fun more => rfl⟩
    | cons c cs ih =>
        cases hend : isLineEnd c with
        | true =>
            obtain ⟨last, before, h⟩ := ih [] (line.reverse :: lines)
            exact ⟨last, before, fun more => by
              rw [List.cons_append, looseLines.go, hend, if_pos rfl, h]⟩
        | false =>
            obtain ⟨last, before, h⟩ := ih (c :: line) lines
            exact ⟨last, before, fun more => by
              rw [List.cons_append, looseLines.go, hend, if_neg Bool.false_ne_true, h]⟩
  obtain ⟨last, before, h⟩ := hgo [] []
  have hlines : looseLines cs = before.reverse ++ [last.reverse] := by
    have hnil := h []
    rw [List.append_nil] at hnil
    rw [looseLines, hnil, looseLines.go, List.reverse_cons]
  have hlast : lastLine cs = last.reverse := by
    rw [lastLine, hlines, List.getLastD_concat]
  refine ⟨?_, ?_⟩
  · rw [hlast, hlines, List.dropLast_concat]
  · rw [hlast, hlines, List.dropLast_concat, List.reverse_reverse, List.reverse_reverse]
    exact h more

/-- **A line that is added** ends the last line. -/
theorem looseLines_append_line (cs : List Char) {body : List Char}
    (h : ∀ c ∈ body, isLineEnd c = false) :
    looseLines (cs ++ (body ++ ['\n'])) =
      (looseLines cs).dropLast ++ [lastLine cs ++ body, []] := by
  rw [(looseLines_append cs _).2, looseLines_go_line h, looseLines.go]
  simp

/-- **A line feed** keeps what is in front of it apart from what is behind it. -/
theorem looseLines_append_cons (cs more : List Char) :
    looseLines (cs ++ '\n' :: more) = looseLines cs ++ looseLines more := by
  have hgo (line : List Char) (lines : List (List Char)) (rest : List Char) :
      looseLines.go line lines rest = lines.reverse ++ looseLines.go line [] rest := by
    induction rest generalizing line lines with
    | nil => rw [looseLines.go, looseLines.go, List.reverse_cons, List.reverse_singleton]
    | cons c rest ih =>
        rw [looseLines.go, looseLines.go]
        split
        · rw [ih, ih [] [line.reverse], List.reverse_cons, List.reverse_singleton,
            List.append_assoc]
        · rw [ih]
  obtain ⟨hlines, happend⟩ := looseLines_append cs ('\n' :: more)
  rw [happend, looseLines.go, if_pos (by decide), hgo, List.reverse_reverse, List.reverse_cons,
    List.reverse_reverse, ← hlines]
  rfl

/-- The last line does not depend on what stands in front of a line feed. -/
theorem lastLine_append_cons (cs more : List Char) :
    lastLine (cs ++ '\n' :: more) = lastLine more := by
  rw [lastLine, looseLines_append_cons, (looseLines_append more []).1, ← List.append_assoc,
    List.getLastD_concat]

end Text

namespace Log

open Text

/-! ### What a reader sees of a log -/

/-- Whether a reader **reaches** a log with its last bytes: the log is no longer than their number,
or there is a line feed among them. -/
def Reaches (size : ℤ) (log : Log) : Prop :=
  (log.length : ℤ) ≤ size ∨ lineFeed ∈ log.drop (log.length - size).toNat

/-- A part that counts as cut begins behind its first line feed. -/
theorem drop_dropWhile_append {front : List UInt8} (h : lineFeed ∉ front) (rest : List UInt8) :
    ((front ++ lineFeed :: rest).dropWhile (· != lineFeed)).drop 1 = rest := by
  have hfront : ∀ b ∈ front, (b != lineFeed) = true := fun b hb =>
    bne_iff_ne.2 fun heq => h (heq ▸ hb)
  rw [List.dropWhile_append_of_pos hfront]
  simp

/-- **The window of a log that is reached** is the whole log, or begins behind a line feed. -/
theorem Reaches.window_cases {size : ℤ} {log : Log} (h : Reaches size log) :
    window size log = log ∨ ∃ front, log = front ++ lineFeed :: window size log := by
  by_cases hsize : size < log.length
  · obtain ⟨front, rest, hcut, hfront⟩ :=
      List.eq_append_cons_of_mem (h.resolve_left (by omega))
    have hwindow : window size log = rest := by
      rw [window, if_pos hsize, hcut, drop_dropWhile_append hfront]
    refine .inr ⟨log.take (log.length - size).toNat ++ front, ?_⟩
    rw [hwindow, List.append_assoc, ← hcut, List.take_append_drop]
  · have hcut : (log.length - size).toNat = 0 := by omega
    rw [window, if_neg hsize, hcut, List.drop_zero]
    exact .inl rfl

/-- The window of a log that is reached has the last line of the log. -/
theorem Reaches.lastLine_window {size : ℤ} {log : Log} (h : Reaches size log) :
    lastLine (decodeUtf8 (window size log)) = lastLine (decodeUtf8 log) := by
  rcases h.window_cases with heq | ⟨front, heq⟩
  · rw [heq]
  · conv_rhs => rw [heq, decodeUtf8_append_cons front (by decide)]
    exact (lastLine_append_cons _ _).symm

/-- **What a reader sees of a log with one more line**: what the line leaves it of the log, and the
line behind it. If the log is not reached, the reader takes the line for cut and sees nothing. -/
theorem window_append {body : List UInt8} (hbody : lineFeed ∉ body) {tailBytes size : ℤ}
    (hsize : size = tailBytes - (body ++ [lineFeed]).length) (hfits : 0 ≤ size) (log : Log) :
    (Reaches size log → window tailBytes (log ++ (body ++ [lineFeed])) =
        window size log ++ (body ++ [lineFeed])) ∧
      (¬ Reaches size log → window tailBytes (log ++ (body ++ [lineFeed])) = []) := by
  have hlength : (log ++ (body ++ [lineFeed])).length =
      log.length + (body ++ [lineFeed]).length := List.length_append
  have hcut : ((log ++ (body ++ [lineFeed])).length - tailBytes).toNat =
      (log.length - size).toNat := by omega
  have hdrop : (log ++ (body ++ [lineFeed])).drop (log.length - size).toNat =
      log.drop (log.length - size).toNat ++ (body ++ [lineFeed]) :=
    List.drop_append_of_le_length (by omega)
  by_cases hlong : size < log.length
  · have hlong' : tailBytes < (log ++ (body ++ [lineFeed])).length := by omega
    rw [window, window, if_pos hlong, if_pos hlong', hcut, hdrop]
    refine ⟨fun hreached => ?_, fun hreached => ?_⟩
    · obtain ⟨front, rest, heq, hfront⟩ :=
        List.eq_append_cons_of_mem (hreached.resolve_left (by omega))
      rw [heq, List.append_assoc, List.cons_append, drop_dropWhile_append hfront,
        drop_dropWhile_append hfront]
    · have hfront : lineFeed ∉ log.drop (log.length - size).toNat ++ body := fun hmem =>
        (List.mem_append.1 hmem).elim (fun h => hreached (.inr h)) hbody
      rw [← List.append_assoc, drop_dropWhile_append hfront]
  · have hlong' : ¬ tailBytes < (log ++ (body ++ [lineFeed])).length := by omega
    rw [window, window, if_neg hlong, if_neg hlong', hcut, hdrop]
    exact ⟨fun _ => rfl, fun hreached => absurd (.inl (by omega)) hreached⟩

/-! ### Whether a record is found -/

/-- Whether a log is **ready** for one more line: a reader reaches it with the bytes that the line
leaves, and its last line is blank. -/
structure Ready (size : ℤ) (log : Log) : Prop where
  reached : Reaches size log
  blank : ∀ c ∈ lastLine (decodeUtf8 log), Json.isSpace c = true

/-- The **ended lines** of the window: all but the last line, which has no end. -/
def endedLines (size : ℤ) (log : Log) : List (List Char) :=
  (lines size log).dropLast

/-- The lines are read one after the other. -/
theorem recordsOnto_append_lines (found : List Json) (ls more : List (List Char)) :
    recordsOnto found (ls ++ more) = recordsOnto found ls >>= (recordsOnto · more) := by
  induction ls generalizing found with
  | nil => rfl
  | cons line rest ih =>
      rw [List.cons_append, recordsOnto, recordsOnto]
      cases Json.read line with
      | ok record => exact ih _
      | error fault =>
          cases fault with
          | malformed => exact ih _
          | tooManyDigits count => rfl

/-- The last line without an end takes nothing away from what the lines with an end hold. -/
theorem length_le_of_endedLines {size : ℤ} {log : Log} {ended found : List Json}
    (hended : recordsOnto [] (endedLines size log) = .ok ended)
    (hfound : records size log = .ok found) : ended.length ≤ found.length := by
  have hlines : lines size log = endedLines size log ++ [_] := (looseLines_append _ []).1
  rw [records, hlines, recordsOnto_append_lines, hended] at hfound
  replace hfound : recordsOnto ended [_] = .ok found := hfound
  rw [recordsOnto] at hfound
  split at hfound
  · cases hfound
    exact Nat.le_succ _
  · cases hfound
    exact Nat.le_refl _
  · cases hfound

/-- A blank line is no JSON. -/
theorem read_blank {cs : List Char} (h : ∀ c ∈ cs, Json.isSpace c = true) :
    Json.read cs = .error .malformed := by
  have hskip : Json.skipSpace cs = [] := List.dropWhile_eq_nil_iff.2 h
  rw [Json.read, hskip]
  rfl

/-- **The text of an entry behind a remnant** is its record if the remnant is blank, and else no
value at all. -/
theorem Entry.WellFormed.read_append_iff {entry : Entry} (h : entry.WellFormed)
    (remnant : List Char) (value : Json) :
    Json.read (remnant ++ entry.text) = .ok value ↔
      (∀ c ∈ remnant, Json.isSpace c = true) ∧ value = entry.found := by
  have hnames : sortNames ["schema_version", "ts", "level", "event_type", "context", "message",
      "error_code"] = ["context", "error_code", "event_type", "level", "message", "schema_version",
      "ts"] := by decide
  have hcontext : "context".toList = 'c' :: "ontext".toList := rfl
  obtain ⟨more, hmore⟩ : ∃ more, entry.text = Json.named 'c' more :=
    Json.exists_toRecord_eq_named hnames hcontext (by decide)
  have hreads : Json.Reads entry.text entry.found := (Event.wellFormed_record h entry.2).reads 0
  have hletter : Json.Apart 'c' := ⟨rfl, by decide⟩
  rw [hmore] at hreads ⊢
  exact hreads.read_append_iff hletter remnant value

section

variable {entry : Entry} (h : entry.WellFormed) {tailBytes size : ℤ}
  (hsize : size = tailBytes - (line entry.1 entry.2).length) (hfits : 0 ≤ size) (log : Log)
include h hsize hfits

/-- **The lines of a log with one more entry**: the text of the entry is behind the last line of the
log as it was. -/
theorem lines_append :
    (Reaches size log → lines tailBytes (append log entry.1 entry.2) =
        endedLines size log ++ [lastLine (decodeUtf8 log) ++ entry.text, []]) ∧
      (¬ Reaches size log → lines tailBytes (append log entry.1 entry.2) = [[]]) := by
  obtain ⟨hchars, hbytes⟩ := ofEntries_eq (List.forall_mem_singleton.2 h)
  simp only [ofEntries, List.map_cons, List.map_nil, List.flatMap_cons, List.flatMap_nil,
    List.append_nil] at hchars hbytes
  have hascii : ∀ c ∈ entry.text ++ ['\n'], c.toNat < 0x80 := fun c hc => by
    rcases List.mem_append.1 hc with hc | hc
    · exact (h.spec.1 c hc).1
    · rw [List.mem_singleton.1 hc]
      decide
  rw [hbytes] at hsize
  obtain ⟨hreached, hmissed⟩ := window_append h.lineFeed_not_mem hsize hfits log
  rw [← hbytes] at hreached hmissed
  refine ⟨fun hreaches => ?_, fun hreaches => ?_⟩
  · rw [lines, append, hreached hreaches, hchars, decodeUtf8_append_asciiBytes _ hascii,
      looseLines_append_line _ fun c hc => (h.spec.1 c hc).2, hreaches.lastLine_window]
    rfl
  · rw [lines, append, hmissed hreaches]
    rfl

/-- **If the log is ready, the record is found** in front of all that was found before. -/
theorem records_append_of_ready (hready : Ready size log) :
    records tailBytes (append log entry.1 entry.2) =
      (records size log).map (entry.found :: ·) := by
  have hlast : lines size log = endedLines size log ++ [lastLine (decodeUtf8 log)] := by
    rw [← hready.reached.lastLine_window]
    exact (looseLines_append _ []).1
  have hread := (h.read_append_iff _ _).2 ⟨hready.blank, rfl⟩
  rw [records, records, (lines_append h hsize hfits log).1 hready.reached, hlast,
    recordsOnto_append_lines, recordsOnto_append_lines]
  cases recordsOnto [] (endedLines size log) with
  | ok found =>
      show recordsOnto found [_, []] = (recordsOnto found [_]).map _
      simp only [recordsOnto, hread, read_blank hready.blank]
      rfl
  | error fault => rfl

/-- **If the log is not ready, the record is lost**: what is found, if anything, is what the ended
lines of the log hold. -/
theorem records_append_of_not_ready (hready : ¬ Ready size log) {found : List Json}
    (hfound : records tailBytes (append log entry.1 entry.2) = .ok found) :
    found = [] ∨ recordsOnto [] (endedLines size log) = .ok found := by
  obtain ⟨hreached, hmissed⟩ := lines_append h hsize hfits log
  by_cases hreaches : Reaches size log
  · rw [records, hreached hreaches, recordsOnto_append_lines] at hfound
    obtain ⟨older, holder, hlast⟩ := bind_eq_ok.1 hfound
    rw [recordsOnto] at hlast
    split at hlast
    · rename_i record hread
      exact absurd ⟨hreaches, ((h.read_append_iff _ _).1 hread).1⟩ hready
    · cases hlast
      exact .inr holder
    · cases hlast
  · rw [records, hmissed hreaches] at hfound
    cases hfound
    exact .inl rfl

end

/-- An event that is written behind an open brace is not found. -/
theorem not_forall_found_append :
    ¬ ∀ (log : Log) (e : Event) (time : String) (tailBytes : ℤ),
      (Json.object e.context).WellFormed → (line e time).length < tailBytes →
        ∃ found, records tailBytes (append log e time) = .ok found ∧
          (e.record time).sorted ∈ found := by
  intro h
  let log : Log := [0x7B]
  let e : Event := { level := .info, kind := .modeChanged, context := [("strict", .bool true)] }
  have hcontext : (Json.object e.context).WellFormed :=
    .object (by decide) (List.forall_mem_singleton.2 (.bool true))
  obtain ⟨found, hfound, hmem⟩ := h log e "now" ((line e "now").length + 1) hcontext (by omega)
  have hready : ¬ Ready 1 log := fun hready =>
    absurd (hready.blank '\x7b' (by decide +kernel)) (by decide)
  have hentry : Entry.WellFormed (e, "now") := hcontext
  have hended : endedLines 1 log = [] := by decide +kernel
  have hsize : (1 : ℤ) = (line e "now").length + 1 - (line e "now").length := by omega
  have hlost := records_append_of_not_ready hentry hsize (by decide) log hready hfound
  rw [hended] at hlost
  rcases hlost with rfl | hlost
  · exact List.not_mem_nil hmem
  · cases hlost
    exact List.not_mem_nil hmem

end Log

namespace Sink

open Text

/-- **An event is found exactly if the log was ready for it.** Whatever the log held before, the
event adds its line. If the log was ready, the record is in front of everything else that is found,
and a query for one record gives it. If the log was not ready, a reader finds at most what the lines
with an end held already.

The exception on both sides is a whole number with too many digits in an older line, on which
reading fails. -/
theorem write_found_iff {σ : Type} {disk : Disk (StateM σ)} {sink : Sink} {usable : σ → Prop}
    {log : σ → Log} (h : sink.Works disk usable log) {w : σ} (hw : usable w) {e : Event}
    (hcontext : (Json.object e.context).WellFormed) {tailBytes : ℤ}
    (hfits : ((Log.line e (disk.now w).1).length : ℤ) ≤ tailBytes) :
    let found := (e.record (disk.now w).1).sorted
    let before := log w
    let after := log (sink.write disk e w).2
    let size := tailBytes - (Log.line e (disk.now w).1).length
    (sink.write disk e w).1 = .ok () ∧
      after = before ++ Log.line e (disk.now w).1 ∧
      ((∃ others, Log.records size before = .ok others ∧
          Log.records tailBytes after = .ok (found :: others)) ↔
        Log.Ready size before ∧ ∃ others, Log.records size before = .ok others) ∧
      (Log.Ready size before → ∀ others, Log.records size before = .ok others →
        Log.read tailBytes { limit := 1 } after = .ok [found]) ∧
      (¬ Log.Ready size before → ∀ others, Log.records tailBytes after = .ok others →
        (others = [] ∨ Log.recordsOnto [] (Log.endedLines size before) = .ok others) ∧
          Log.read tailBytes { limit := 1 } after = .ok (others.take 1)) := by
  intro found before after size
  obtain ⟨next, hwrite, -, hlog⟩ := h.write hw e
  have hafter : after = Log.append before e (disk.now w).1 := by
    show log (sink.write disk e w).2 = _
    rw [hwrite]
    exact hlog
  have hentry : Log.Entry.WellFormed (e, (disk.now w).1) := hcontext
  have hsize : 0 ≤ size := Int.sub_nonneg_of_le hfits
  have hfound (hready : Log.Ready size before) :
      Log.records tailBytes after = (Log.records size before).map (found :: ·) := by
    rw [hafter]
    exact Log.records_append_of_ready hentry rfl hsize before hready
  have hlost (hready : ¬ Log.Ready size before) (others : List Json)
      (hothers : Log.records tailBytes after = .ok others) :
      others = [] ∨ Log.recordsOnto [] (Log.endedLines size before) = .ok others := by
    rw [hafter] at hothers
    exact Log.records_append_of_not_ready hentry rfl hsize before hready hothers
  have hread (others : List Json) (hothers : Log.records tailBytes after = .ok others) :
      Log.read tailBytes { limit := 1 } after = .ok (others.take 1) := by
    rw [Log.read, hothers]
    exact Log.pick_unfiltered rfl rfl 0 others
  refine ⟨by rw [hwrite], hafter, ⟨?_, ?_⟩, fun hready others hothers => ?_,
    fun hready others hothers => ⟨hlost hready others hothers, hread others hothers⟩⟩
  · rintro ⟨others, hbefore, hothers⟩
    refine ⟨by_contra fun hready => ?_, others, hbefore⟩
    rcases hlost hready _ hothers with hnil | hended
    · cases hnil
    · exact absurd (Log.length_le_of_endedLines hended hbefore) (by simp)
  · rintro ⟨hready, others, hothers⟩
    exact ⟨others, hothers, by rw [hfound hready, hothers]; rfl⟩
  · exact hread _ (by rw [hfound hready, hothers]; rfl)

/-- An event is found behind a broken line and a blank. -/
theorem write_found_iff_blank :
    let sink : Sink := { directory := .ofString "/log" }
    let disk := FileTree.disk "now"
    let t : FileTree :=
      { entries := [(.ofString "/log", .directory),
          (.ofString "/log/events.ndjson", .file [0x7B, 0x0A, 0x20])] }
    let e : Event := { level := .info, kind := .modeChanged, context := [("strict", .bool true)] }
    let tailBytes : ℤ := (Log.line e "now").length + 3
    FileTree.Usable sink t ∧ (Json.object e.context).WellFormed ∧
      ((Log.line e "now").length : ℤ) ≤ tailBytes ∧
      Log.read tailBytes { limit := 1 } (FileTree.logAt sink (sink.write disk e t).2) =
        .ok [(e.record "now").sorted] := by
  intro sink disk t e tailBytes
  have husable : FileTree.Usable sink t := ⟨by decide +kernel, by decide +kernel⟩
  have hcontext : (Json.object e.context).WellFormed :=
    .object (by decide) (List.forall_mem_singleton.2 (.bool true))
  have hfits : ((Log.line e "now").length : ℤ) ≤ tailBytes := by omega
  refine ⟨husable, hcontext, hfits, ?_⟩
  obtain ⟨-, -, -, hread, -⟩ := write_found_iff (FileTree.works sink "now") husable hcontext hfits
  have hlog : FileTree.logAt sink t = [0x7B, 0x0A, 0x20] := by decide +kernel
  have hsize : tailBytes - (Log.line e "now").length = 3 := by omega
  have hlines : Log.lines 3 [0x7B, 0x0A, 0x20] = [['\x7b'], [' ']] := by decide +kernel
  have hblank : ∀ c ∈ [' '], Json.isSpace c = true := List.forall_mem_singleton.2 rfl
  have hbroken : Json.read ['\x7b'] = .error .malformed := rfl
  have hrecords : Log.records 3 [0x7B, 0x0A, 0x20] = .ok [] := by
    rw [Log.records, hlines]
    simp only [Log.recordsOnto, hbroken, Log.read_blank hblank]
  have hlast : lastLine (decodeUtf8 [0x7B, 0x0A, 0x20]) = [' '] := by decide +kernel
  have hready : Log.Ready 3 [0x7B, 0x0A, 0x20] :=
    ⟨.inl (by decide), by rw [hlast]; exact hblank⟩
  rw [← hlog, ← hsize] at hready hrecords
  exact hread hready [] hrecords

end Sink

end Formulary
