import Formulary.Proofs.LogWindow

/-!
# The First Line of the Window

A reader that looks at the last bytes of a longer log drops everything up to the first line feed,
since the first line is likely cut. It is not cut if it starts with the very first of these bytes,
and then a whole line is dropped. This module says that this is the only loss: all other lines that
lie within the last bytes are found.

## Conventions

The **start** of a line is the size of the log before it. A line lies **within** the last bytes if
it starts with one of them. A log is **on edge** if one of its lines, other than the first, starts
with the first of them.

## Main results

* `exists_window_of_start`: the window holds the lines that lie within it, but for one on edge.
* `read_newest_iff`: when the newest entry is found.
* `Sink.read_whole_lines_iff`: what is found of the events that were written.
-/

namespace Formulary

namespace Log

/-- The **start** of a line: the size of the log of the entries in front of it. -/
def start (entries : List Entry) (i : ℕ) : ℕ :=
  (ofEntries (entries.take i)).length

/-- Whether a log is **on edge** for a reader: a line behind others starts with the first of the
bytes that the reader looks at. -/
def OnEdge (tailBytes : ℤ) (entries : List Entry) : Prop :=
  ∃ i < entries.length, 0 < i ∧ (start entries i : ℤ) = (ofEntries entries).length - tailBytes

/-- The log of some entries and then of others. -/
theorem ofEntries_append (earlier later : List Entry) :
    ofEntries (earlier ++ later) = ofEntries earlier ++ ofEntries later :=
  List.flatMap_append

/-- A log with an entry is not empty. -/
theorem length_ofEntries_cons_pos (entry : Entry) (entries : List Entry) :
    0 < (ofEntries (entry :: entries)).length := by
  rw [ofEntries, List.flatMap_cons, line, List.length_append, List.length_append]
  exact Nat.add_pos_left (Nat.succ_pos _) _

/-- Lines start one behind the other. -/
theorem start_lt {entries : List Entry} {i j : ℕ} (hij : i < j) (hj : j ≤ entries.length) :
    start entries i < start entries j := by
  have hsplit : entries.take j = entries.take i ++ (entries.take j).drop i := by
    conv_lhs => rw [← List.take_append_drop i (entries.take j)]
    rw [List.take_take, Nat.min_eq_left hij.le]
  have hne : (entries.take j).drop i ≠ [] := by
    refine List.ne_nil_of_length_pos ?_
    rw [List.length_drop, List.length_take]
    omega
  obtain ⟨entry, rest, hrest⟩ := List.exists_cons_of_ne_nil hne
  have hpos := length_ofEntries_cons_pos entry rest
  rw [start, start, hsplit, hrest, ofEntries_append, List.length_append]
  omega

/-- A line starts no later than another exactly if it is not behind it. -/
theorem start_le_start_iff {entries : List Entry} {i j : ℕ} (hi : i ≤ entries.length)
    (hj : j ≤ entries.length) : start entries i ≤ start entries j ↔ i ≤ j := by
  refine ⟨fun hle => by_contra fun hlt => ?_, fun hle => ?_⟩
  · exact absurd hle (Nat.not_le_of_lt (start_lt (Nat.lt_of_not_le hlt) hi))
  · rcases Nat.eq_or_lt_of_le hle with rfl | hlt
    · exact Nat.le_refl _
    · exact (start_lt hlt hj).le

section

variable {entries : List Entry} (h : ∀ entry ∈ entries, entry.WellFormed)
include h

/-- **The window holds the lines that lie within it.** If the log is on edge, the first of them is
missing. -/
theorem exists_window_of_start (tailBytes : ℤ) :
    ∃ k ≤ entries.length,
      (∀ i < entries.length,
        k ≤ i ↔ (ofEntries entries).length - tailBytes ≤ (start entries i : ℤ)) ∧
      (¬ OnEdge tailBytes entries →
        window tailBytes (ofEntries entries) = ofEntries (entries.drop k)) ∧
      (OnEdge tailBytes entries → k < entries.length ∧
        window tailBytes (ofEntries entries) = ofEntries (entries.drop (k + 1))) := by
  obtain ⟨k, hk, hkept, hwindow⟩ := exists_window h tailBytes
  have hstarts (i : ℕ) (hi : i < entries.length) : k ≤ i ↔
      ((ofEntries entries).length : ℤ) ≤ tailBytes ∨
        (ofEntries entries).length - tailBytes < (start entries i : ℤ) := hkept i hi
  by_cases hedge : OnEdge tailBytes entries
  · -- the line on edge is the last one that is not found
    obtain ⟨i, hi, hpos, hstart⟩ := id hedge
    have hfirst : 0 < start entries i := Nat.zero_lt_of_lt (start_lt hpos hi.le)
    have hlost : ¬ k ≤ i := fun hle => by
      have hbehind := (hstarts i hi).1 hle
      omega
    have hnext : k ≤ i + 1 := by
      rcases Nat.lt_or_ge (i + 1) entries.length with hlt | hge
      · have hless := start_lt (Nat.lt_add_one i) hlt.le
        exact (hstarts (i + 1) hlt).2 (.inr (by omega))
      · exact hk.trans hge
    obtain rfl : k = i + 1 := by omega
    refine ⟨i, hi.le, fun j hj => ?_, fun hnot => absurd hedge hnot, fun _ => ⟨hi, hwindow⟩⟩
    rw [← hstart, Int.ofNat_le, start_le_start_iff hi.le hj.le]
  · refine ⟨k, hk, fun i hi => ?_, fun _ => hwindow, fun hon => absurd hon hedge⟩
    rw [hstarts i hi]
    refine ⟨fun hle => by omega, fun hle => ?_⟩
    rcases Nat.eq_zero_or_pos i with rfl | hpos
    · have hzero : start entries 0 = 0 := rfl
      omega
    · exact .inr (lt_of_le_of_ne hle fun heq => hedge ⟨i, hi, hpos, heq.symm⟩)

/-- **What is found** by a query without filters whose limit is sufficient: the records of the
entries in the window, the latest first. -/
theorem read_of_window {tailBytes : ℤ} {k : ℕ} {limit : ℤ}
    (hwindow : window tailBytes (ofEntries entries) = ofEntries (entries.drop k))
    (hlimit : (entries.length - k : ℤ) ≤ min limit maxRecords) :
    read tailBytes { limit } (ofEntries entries) =
      .ok ((entries.drop k).reverse.map Entry.found) := by
  have hroom : ((entries.drop k).reverse.map Entry.found).length ≤
      (min limit maxRecords).toNat - 1 + 1 := by
    rw [List.length_map, List.length_reverse, List.length_drop]
    omega
  rw [read, records_ofEntries h hwindow]
  exact (pick_unfiltered rfl rfl _ _).trans (by rw [List.take_of_length_le hroom])

end

/-- **When the newest entry is found**: if its line fits into the last bytes, exactly if it is the
only one, or leaves room for one byte more. -/
theorem read_newest_iff {earlier : List Entry} {newest : Entry}
    (h : ∀ entry ∈ earlier ++ [newest], entry.WellFormed) {tailBytes : ℤ}
    (hfits : ((line newest.1 newest.2).length : ℤ) ≤ tailBytes) {limit : ℤ} (hlimit : 1 ≤ limit) :
    (∃ older, read tailBytes { limit } (ofEntries (earlier ++ [newest])) =
        .ok (newest.found :: older)) ↔
      earlier = [] ∨ ((line newest.1 newest.2).length : ℤ) < tailBytes := by
  obtain ⟨k, hk, hstarts, hread⟩ := read_ofEntries h tailBytes hlimit
  have hlast : earlier.length < (earlier ++ [newest]).length := by simp
  have hlength : (ofEntries (earlier ++ [newest])).length =
      (ofEntries earlier).length + (line newest.1 newest.2).length := by
    have hline : ofEntries [newest] = line newest.1 newest.2 := List.flatMap_singleton _ _
    rw [ofEntries_append, List.length_append, hline]
  have hempty : earlier = [] ↔ (ofEntries earlier).length = 0 := by
    cases earlier with
    | nil => exact iff_of_true rfl rfl
    | cons entry rest =>
        exact iff_of_false (List.cons_ne_nil _ _) (length_ofEntries_cons_pos entry rest).ne'
  have hkept := hstarts earlier.length hlast
  rw [List.take_left, hlength] at hkept
  have hroom : 0 < (min limit maxRecords).toNat := by
    have hmost : maxRecords = 2000 := rfl
    omega
  have hiff : 0 < min (earlier.length + 1 - k) (min limit maxRecords).toNat ↔
      earlier = [] ∨ ((line newest.1 newest.2).length : ℤ) < tailBytes := by
    rw [hempty]
    omega
  rw [hread, List.reverse_append, List.reverse_singleton, List.singleton_append, List.length_append,
    List.length_singleton, ← hiff]
  cases min (earlier.length + 1 - k) (min limit maxRecords).toNat with
  | zero => exact iff_of_false (fun ⟨_, heq⟩ => by cases heq) (Nat.lt_irrefl 0)
  | succ more => exact iff_of_true ⟨_, rfl⟩ (Nat.succ_pos more)

/-- A line that fills the last bytes exactly is not found. -/
theorem not_forall_newest_found :
    ¬ ∀ (earlier : List Entry) (newest : Entry) (tailBytes limit : ℤ),
      (∀ entry ∈ earlier ++ [newest], entry.WellFormed) →
        (line newest.1 newest.2).length ≤ tailBytes → earlier.length < min limit maxRecords →
          ∃ found, read tailBytes { limit } (ofEntries (earlier ++ [newest])) = .ok found ∧
            newest.found ∈ found := by
  intro h
  let e : Event := { level := .info, kind := .modeChanged, context := [("strict", .bool true)] }
  let entry : Entry := (e, "now")
  have hcontext : entry.WellFormed :=
    .object (by decide) (List.forall_mem_singleton.2 (.bool true))
  have hentries : ∀ other ∈ [entry] ++ [entry], other.WellFormed :=
    List.forall_mem_cons.2 ⟨hcontext, List.forall_mem_singleton.2 hcontext⟩
  obtain ⟨found, hfound, hmem⟩ := h [entry] entry (line e "now").length 5 hentries (Int.le_refl _)
    (by decide)
  obtain ⟨k, hk, hstarts, hread⟩ :=
    read_ofEntries hentries (line e "now").length (by decide : 1 ≤ (5 : ℤ))
  have hone : ofEntries [entry] = line e "now" := List.flatMap_singleton _ _
  have hpos : 0 < (line e "now").length := hone ▸ length_ofEntries_cons_pos entry []
  have hstart := hstarts 1 (by decide)
  have hfirst : ([entry] ++ [entry]).take 1 = [entry] := rfl
  rw [hfirst, ofEntries_append, hone, List.length_append] at hstart
  obtain rfl : k = 2 := by
    have hle : k ≤ 2 := hk
    omega
  rw [hread] at hfound
  cases hfound
  exact List.not_mem_nil hmem

end Log

namespace Sink

/-- **The lines within the last bytes are found, but for one on edge.** After events were written in
an empty log, a query without filters and with a sufficient limit gives the records of all events
whose lines lie within the last bytes, the latest first, exactly if the log is not on edge. If it
is, the one line that starts with the first of these bytes is missing, and nothing else.

In particular the newest event, if its line fits into the last bytes, is found exactly if it is the
only one or its line does not fill them. -/
theorem read_whole_lines_iff {σ : Type} {disk : Disk (StateM σ)} {sink : Sink} {usable : σ → Prop}
    {log : σ → Log} (h : sink.Works disk usable log) {w : σ} (hw : usable w) (hempty : log w = [])
    {events : List Event} (hcontexts : ∀ e ∈ events, (Json.object e.context).WellFormed)
    (tailBytes : ℤ) :
    let entries := sink.entries disk events w
    let after (i : ℕ) : Log := log (sink.writeEach disk (events.take i) w).2
    let final : Log := log (sink.writeEach disk events w).2
    let onEdge : Prop := ∃ i < events.length, 0 < i ∧
      ((after i).length : ℤ) = final.length - tailBytes
    (∃ k ≤ events.length,
      (∀ i < events.length, k ≤ i ↔ (final.length : ℤ) - tailBytes ≤ (after i).length) ∧
      ∀ limit : ℤ, (events.length - k : ℤ) ≤ min limit Log.maxRecords →
        (Log.read tailBytes { limit } final =
            .ok ((entries.drop k).reverse.map Log.Entry.found) ↔ ¬ onEdge) ∧
        (onEdge → Log.read tailBytes { limit } final =
            .ok ((entries.drop (k + 1)).reverse.map Log.Entry.found))) ∧
      ∀ earlier newest, entries = earlier ++ [newest] →
        ((Log.line newest.1 newest.2).length : ℤ) ≤ tailBytes → ∀ limit : ℤ, 1 ≤ limit →
          ((∃ older, Log.read tailBytes { limit } final = .ok (newest.found :: older)) ↔
            earlier = [] ∨ ((Log.line newest.1 newest.2).length : ℤ) < tailBytes) := by
  intro entries after final onEdge
  have hentries : entries.map (·.1) = events := sink.map_entries disk events w
  have hlength : entries.length = events.length := by
    rw [← hentries, List.length_map]
  have hwritten (part : List Event) : log (sink.writeEach disk part w).2 =
      Log.ofEntries (sink.entries disk part w) := by
    rw [(h.writeEach hw part).2, hempty, List.nil_append]
  have hwellFormed : ∀ entry ∈ entries, entry.WellFormed := fun entry hentry =>
    hcontexts entry.1 (hentries ▸ List.mem_map_of_mem hentry)
  have hfinal : final = Log.ofEntries entries := hwritten events
  have hafter (i : ℕ) : (after i).length = Log.start entries i := by
    rw [Log.start, ← sink.entries_take disk events w i]
    exact congrArg List.length (hwritten _)
  have hedge : onEdge ↔ Log.OnEdge tailBytes entries := by
    simp only [onEdge, Log.OnEdge, hlength, hafter, hfinal]
  obtain ⟨k, hk, hstarts, hwhole, hcut⟩ := Log.exists_window_of_start hwellFormed tailBytes
  rw [hlength] at hk hstarts hcut
  refine ⟨⟨k, hk, fun i hi => ?_, fun limit hlimit => ?_⟩, ?_⟩
  · rw [hfinal, hafter]
    exact hstarts i hi
  · rw [hedge, hfinal]
    by_cases hon : Log.OnEdge tailBytes entries
    · obtain ⟨hlt, hwindow⟩ := hcut hon
      have hroom : (entries.length - (k + 1 : ℕ) : ℤ) ≤ min limit Log.maxRecords := by omega
      have hread := Log.read_of_window hwellFormed hwindow hroom
      refine ⟨iff_of_false (fun hall => ?_) (not_not.2 hon), fun _ => hread⟩
      have hsame := congrArg List.length (Except.ok.inj (hread.symm.trans hall))
      simp only [List.length_map, List.length_reverse, List.length_drop, hlength] at hsame
      omega
    · have hread := Log.read_of_window hwellFormed (hwhole hon) (by rw [hlength]; exact hlimit)
      exact ⟨iff_of_true hread hon, fun h => absurd h hon⟩
  · intro earlier newest heq hline limit hlimit
    rw [hfinal, heq]
    exact Log.read_newest_iff (heq ▸ hwellFormed) hline hlimit

/-- Of two events that were written the second is found if there is room for its line and one byte
more. -/
theorem read_whole_lines_iff_newest :
    let sink : Sink := { directory := .ofString "/log" }
    let disk := FileTree.disk "now"
    let t : FileTree := { entries := [(.ofString "/log", .directory)] }
    let mode (flag : Bool) : Event :=
      { level := .info, kind := .modeChanged, context := [("strict", .bool flag)] }
    let strict := mode true
    let safe := mode false
    let tailBytes : ℤ := (Log.line safe "now").length + 1
    FileTree.Usable sink t ∧ FileTree.logAt sink t = [] ∧
      (∀ e ∈ [strict, safe], (Json.object e.context).WellFormed) ∧
      ((Log.line safe "now").length : ℤ) ≤ tailBytes ∧
      ∃ older, Log.read tailBytes { limit := 5 }
          (FileTree.logAt sink (sink.writeEach disk [strict, safe] t).2) =
        .ok ((safe.record "now").sorted :: older) := by
  intro sink disk t mode strict safe tailBytes
  have husable : FileTree.Usable sink t := ⟨by decide +kernel, by decide +kernel⟩
  have hempty : FileTree.logAt sink t = [] := by decide +kernel
  have hcontexts : ∀ e ∈ [strict, safe], (Json.object e.context).WellFormed := by
    simp only [List.forall_mem_cons, List.not_mem_nil, false_imp_iff, implies_true, and_true]
    exact ⟨.object (by decide) (List.forall_mem_singleton.2 (.bool true)),
      .object (by decide) (List.forall_mem_singleton.2 (.bool false))⟩
  have hfits : ((Log.line safe "now").length : ℤ) ≤ tailBytes := by omega
  have hnewest := (read_whole_lines_iff (FileTree.works sink "now") husable hempty hcontexts
    tailBytes).2 [(strict, "now")] (safe, "now") rfl hfits 5 (by decide)
  exact ⟨husable, hempty, hcontexts, hfits, hnewest.2 (.inr (Int.lt_succ _))⟩

end Sink

end Formulary
