import Formulary.Proofs.Lexing

/-!
# How the Lexer Segments a Text

The tokens of a text are slices of it that stand in order and do not overlap, and between them
nothing stands but blanks. This module says what a slice is without the lexer (`Slice`), puts slices
and gaps together to a whole text (`Segmented`), and proves that the lexer succeeds exactly on the
texts that are put together in this way, with the tokens of the slices. Where it fails, everything
in front of the character that it reports can be segmented, and no token starts at that character.

## Conventions

A **slice** is judged together with the character behind it, which must not prolong it. At the end
of the text there is no such character, so `Slice cs none kind` says that `cs` is a token when it is
taken alone.

What has been read is kept as the characters `front`. The column of what comes next is computed from
them (`columnAfter`); only a newline starts a new line.

## Main results

* `slice_iff`: slices are the lexemes that end where they end.
* `Slice.longest`: a slice is the longest token that starts where it starts.
* `segmented_or_halts`, `scan_eq_ok_iff`: the lexer segments the text or halts in front of a
  character that starts nothing.
* `ofText_faithful`: what the tokens of a text are, and where a text is refused.
-/

namespace Formulary.Token

open Text

/-! ### Slices -/

/-- The **slices**: the characters are a token of the class when the given character stands behind
them. Every kind of token says what would prolong it. -/
inductive Slice : List Char → Option Char → TokenClass → Prop
  | number {cs : List Char} {next : Option Char} (h : isNumber (String.ofList cs) = true)
      (hnext : ∀ x ∈ next, isNumber (String.ofList (cs ++ [x])) = false) : Slice cs next .operand
  | name {cs : List Char} {next : Option Char} (h : IsName (String.ofList cs))
      (hnext : ∀ x ∈ next, isAlphanumeric x = false) : Slice cs next .operand
  | word {cs : List Char} {next : Option Char} (hletters : ∀ x ∈ cs, isLetter x = true)
      (hw : isFunctionWord cs = true) (hnext : ∀ x ∈ next, isLetter x = false) :
      Slice cs next .function
  | factorial {next : Option Char} (hnext : next ≠ some '=') : Slice ['!'] next .function
  | unequal {next : Option Char} : Slice ['!', '='] next .comparison
  | symbol {c : Char} {next : Option Char} {kind : TokenClass} (h : (c, kind) ∈ symbols) :
      Slice [c] next kind

/-- A slice is also one when the text ends behind it. -/
theorem Slice.atEnd {cs : List Char} {next : Option Char} {kind : TokenClass}
    (h : Slice cs next kind) : Slice cs none kind := by
  cases h with
  | number h => exact .number h nofun
  | name h => exact .name h nofun
  | word hletters hw => exact .word hletters hw nofun
  | factorial => exact .factorial nofun
  | unequal => exact .unequal
  | symbol h => exact .symbol h

/-- The empty run spells no function. -/
theorem isFunctionWord_nil : isFunctionWord [] = false := by
  decide +kernel

/-- A slice is a lexeme that ends where the slice ends. -/
theorem Slice.exists_lexeme {cs rest : List Char} {kind : TokenClass}
    (h : Slice cs rest.head? kind) :
    ∃ c more, cs = c :: more ∧ Lexeme c (more ++ rest) kind more.length := by
  generalize hnext : rest.head? = next at h
  cases h with
  | number h hstop =>
      subst hnext
      rw [← String.toList_ofList (l := cs)] at hstop
      have hl := exists_lexeme_of_isNumber h hstop
      rwa [String.toList_ofList] at hl
  | name h hstop =>
      subst hnext
      have hl := exists_lexeme_of_isName h hstop
      rwa [String.toList_ofList] at hl
  | word hletters hw hstop =>
      subst hnext
      cases cs with
      | nil => rw [isFunctionWord_nil] at hw; cases hw
      | cons c more => exact ⟨c, more, rfl, lexeme_of_isFunctionWord hletters hw hstop⟩
  | factorial hstop => exact ⟨'!', [], rfl, .factorial (hnext ▸ hstop)⟩
  | unequal => exact ⟨'!', ['='], rfl, .unequal rfl⟩
  | symbol h => exact ⟨_, [], rfl, .symbol h⟩

/-! ### How far a token goes -/

/-- A run is at least as long as a part that it starts with. -/
theorem length_le_takeWhile_append {p : Char → Bool} {cs : List Char}
    (h : ∀ x ∈ cs, p x = true) (rest : List Char) :
    cs.length ≤ ((cs ++ rest).takeWhile p).length := by
  rw [List.takeWhile_append_of_pos h, List.length_append]
  omega

/-- The character behind a run is none of it. -/
theorem not_of_mem_head?_drop {p : Char → Bool} {cs : List Char} :
    ∀ x ∈ (cs.drop (cs.takeWhile p).length).head?, p x = false := by
  induction cs with
  | nil => nofun
  | cons c cs ih =>
      by_cases hc : p c = true
      · rwa [List.takeWhile_cons_of_pos hc]
      · rw [List.takeWhile_cons_of_neg hc]
        rintro x ⟨⟩
        exact Bool.eq_false_iff.2 hc

/-- A number that starts with the point goes on with digits only. -/
theorem isNumber_point_iff {fs : List Char} :
    isNumber (String.ofList ('.' :: fs)) = true ↔ AllDigits fs ∧ fs ≠ [] := by
  simp [isNumber, isDecimalDigit_point, AllDigits]

/-- The rest of a number goes at least as far as any number that starts at its first digit. -/
theorem length_le_numberTail {c : Char} (hc : isDecimalDigit c = true) {cs : List Char}
    (h : isNumber (String.ofList (c :: cs)) = true) (rest : List Char) :
    cs.length ≤ numberTail (cs ++ rest) := by
  rw [isNumber_iff, String.toList_ofList] at h
  rcases h with ⟨hds, -⟩ | ⟨ds, fs, htext, hds, hfs, -⟩
  · have hlength := length_le_takeWhile_append (fun x hx => hds x (List.mem_cons_of_mem c hx)) rest
    rw [numberTail]
    split <;> omega
  · cases ds with
    | nil =>
        obtain ⟨rfl, -⟩ := List.cons.inj htext
        rw [isDecimalDigit_point] at hc
        cases hc
    | cons d ds =>
        rw [List.cons_append] at htext
        obtain ⟨-, rfl⟩ := List.cons.inj htext
        have hpoint : ∀ x ∈ ('.' :: (fs ++ rest)).head?, isDecimalDigit x = false := by
          simp [isDecimalDigit_point]
        obtain ⟨htake, hdrop⟩ :=
          takeWhile_append_of_head (fun x hx => hds x (List.mem_cons_of_mem d hx)) hpoint
        have hlength := length_le_takeWhile_append hfs rest
        rw [List.append_assoc, List.cons_append, numberTail, htake, hdrop]
        simp only [List.length_append, List.length_cons]
        omega

/-- A lexeme is a slice of the text. -/
theorem Lexeme.slice {c : Char} {rest : List Char} {kind : TokenClass} {n : ℕ}
    (h : Lexeme c rest kind n) : Slice (c :: rest.take n) (rest.drop n).head? kind := by
  cases h with
  | word hc hw =>
      refine .word ?_ ?_ not_of_mem_head?_drop
      · rw [take_length_takeWhile]
        intro x hx
        rcases List.mem_cons.1 hx with rfl | hx
        · exact hc
        · exact List.mem_takeWhile_imp hx
      · rwa [take_length_takeWhile]
  | name hc hw => exact .name (isName_take_takeWhile hc hw) not_of_mem_head?_drop
  | number hc =>
      refine .number (isNumber_take_numberTail hc rest) fun x hx => Bool.eq_false_iff.2 fun hn => ?_
      obtain ⟨more, hmore⟩ := List.head?_eq_some_iff.1 hx
      have hsplit := List.take_append_drop (numberTail rest) rest
      rw [List.cons_append] at hn
      have hlength := length_le_numberTail hc hn more
      rw [List.append_assoc, List.singleton_append, ← hmore, hsplit, List.length_append,
        List.length_take_of_le (numberTail_le rest), List.length_singleton] at hlength
      omega
  | fraction h =>
      rw [take_length_takeWhile]
      refine .number (isNumber_point_iff.2 ⟨allDigits_takeWhile rest, h⟩) fun x hx => ?_
      refine Bool.eq_false_iff.2 fun hn => ?_
      have hx' : isDecimalDigit x = true := (isNumber_point_iff.1 hn).1 x (by simp)
      rw [not_of_mem_head?_drop x hx] at hx'
      cases hx'
  | unequal h =>
      obtain ⟨more, rfl⟩ := List.head?_eq_some_iff.1 h
      exact .unequal
  | factorial h => exact .factorial h
  | symbol h => exact .symbol h

/-- **Slices are the lexemes that end where they end.** -/
theorem slice_iff {c : Char} {cs rest : List Char} {kind : TokenClass} :
    Slice (c :: cs) rest.head? kind ↔ Lexeme c (cs ++ rest) kind cs.length := by
  constructor
  · intro h
    obtain ⟨c', cs', heq, hl⟩ := h.exists_lexeme
    obtain ⟨rfl, rfl⟩ := List.cons.inj heq
    exact hl
  · intro h
    have hslice := h.slice
    rwa [List.take_left, List.drop_left] at hslice

/-- Where a text starts with a token, the lexer finds one that is at least as long. -/
theorem Slice.exists_lexeme_append {c : Char} {cs : List Char} {kind : TokenClass}
    (h : Slice (c :: cs) none kind) (rest : List Char) :
    ∃ kind' n, Lexeme c (cs ++ rest) kind' n ∧ cs.length ≤ n := by
  -- letters start a function or a name, depending on how far the run of letters goes in the text
  have hrun : isLetter c = true → (∀ x ∈ cs, isAlphanumeric x = true) →
      (isFunctionWord (c :: (cs ++ rest).takeWhile isLetter) = true → ∀ x ∈ cs, isLetter x = true) →
      ∃ kind' n, Lexeme c (cs ++ rest) kind' n ∧ cs.length ≤ n := by
    intro hc hcs hletters
    cases hw : isFunctionWord (c :: (cs ++ rest).takeWhile isLetter) with
    | true => exact ⟨_, _, .word hc hw, length_le_takeWhile_append (hletters hw) rest⟩
    | false => exact ⟨_, _, .name hc hw, length_le_takeWhile_append hcs rest⟩
  cases h with
  | number h =>
      rcases Number.isNumeric_of_isNumber h c (by simp) with hc | rfl
      · exact ⟨_, _, .number hc, length_le_numberTail hc h rest⟩
      · obtain ⟨hds, hne⟩ := isNumber_point_iff.1 h
        have hlength := length_le_takeWhile_append hds rest
        refine ⟨_, _, .fraction fun hnil => hne ?_, hlength⟩
        rw [hnil] at hlength
        exact List.length_eq_zero_iff.1 (Nat.le_zero.1 hlength)
  | name h =>
      obtain ⟨c', cs', heq, hc, hcs, hw⟩ := h
      rw [String.toList_ofList] at heq
      obtain ⟨rfl, rfl⟩ := List.cons.inj heq
      refine hrun hc hcs fun hw' => ?_
      rw [List.takeWhile_append] at hw'
      split at hw'
      · rename_i hlength
        exact List.takeWhile_eq_self_iff.1 ((List.takeWhile_prefix _).eq_of_length hlength)
      · rw [hw] at hw'
        cases hw'
  | word hletters hw =>
      have hcs : ∀ x ∈ cs, isLetter x = true :=
        fun x hx => hletters x (List.mem_cons_of_mem c hx)
      exact hrun (hletters c List.mem_cons_self)
        (fun x hx => isAlphanumeric_of_isLetter (hcs x hx)) fun _ => hcs
  | factorial =>
      by_cases hnext : ([] ++ rest : List Char).head? = some '='
      · exact ⟨_, _, .unequal hnext, Nat.zero_le _⟩
      · exact ⟨_, _, .factorial hnext, Nat.zero_le _⟩
  | unequal => exact ⟨_, _, .unequal rfl, le_rfl⟩
  | symbol h => exact ⟨_, _, .symbol h, le_rfl⟩

/-- **A slice is the longest token that starts where it starts.** -/
theorem Slice.longest {cs ds rest : List Char} {kind kind' : TokenClass}
    (h : Slice cs (ds ++ rest).head? kind) (hds : Slice (cs ++ ds) none kind') : ds = [] := by
  obtain ⟨c, more, rfl, hl⟩ := h.exists_lexeme
  rw [List.cons_append] at hds
  obtain ⟨kind'', n, hl', hlength⟩ := hds.exists_lexeme_append rest
  rw [List.append_assoc] at hl'
  have heq := hl.lexeme?_eq.symm.trans hl'.lexeme?_eq
  simp only [Option.some.injEq, Prod.mk.injEq] at heq
  rw [List.length_append, ← heq.2] at hlength
  exact List.length_eq_zero_iff.1 (by omega)

/-! ### Columns -/

/-- The **column** behind the characters that have been read: one more than there are characters
since the last newline. -/
def columnAfter (front : List Char) : ℕ :=
  (front.reverse.takeWhile (· ≠ '\n')).length + 1

/-- The columns are counted on as the lexer does over what it ignores. -/
theorem columnAfter_append_singleton (front : List Char) (c : Char) :
    columnAfter (front ++ [c]) = nextColumn (columnAfter front) c := by
  simp only [columnAfter, nextColumn, List.reverse_append, List.reverse_singleton,
    List.singleton_append, List.takeWhile_cons]
  by_cases hc : c = '\n' <;> simp [hc]

/-- Behind characters of the same line the column is as much further. -/
theorem columnAfter_append {cs : List Char} (h : ∀ x ∈ cs, x ≠ '\n') (front : List Char) :
    columnAfter (front ++ cs) = columnAfter front + cs.length := by
  rw [columnAfter, columnAfter, List.reverse_append,
    List.takeWhile_append_of_pos (by simpa using h), List.length_append, List.length_reverse]
  omega

/-- No character of a slice is ignored. -/
theorem Slice.not_isIgnored {cs : List Char} {next : Option Char} {kind : TokenClass}
    (h : Slice cs next kind) : ∀ x ∈ cs, isIgnored x = false := by
  intro x hx
  cases h with
  | number h =>
      exact not_isIgnored_of_isNumeric
        (Number.isNumeric_of_isNumber h x (by rwa [String.toList_ofList]))
  | name h =>
      obtain ⟨c, more, heq, hc, hmore, -⟩ := h
      rw [String.toList_ofList] at heq
      subst heq
      refine not_isIgnored_of_isAlphanumeric ?_
      rcases List.mem_cons.1 hx with rfl | hx
      · exact isAlphanumeric_of_isLetter hc
      · exact hmore x hx
  | word hletters =>
      exact not_isIgnored_of_isAlphanumeric (isAlphanumeric_of_isLetter (hletters x hx))
  | factorial =>
      obtain rfl := List.mem_singleton.1 hx
      decide
  | unequal =>
      rcases List.mem_cons.1 hx with rfl | hx
      · decide
      · obtain rfl := List.mem_singleton.1 hx
        decide
  | symbol h =>
      obtain rfl := List.mem_singleton.1 hx
      exact not_isIgnored_of_mem_symbols h

/-- No character of a slice starts a new line. -/
theorem Slice.ne_newline {cs : List Char} {next : Option Char} {kind : TokenClass}
    (h : Slice cs next kind) : ∀ x ∈ cs, x ≠ '\n' := by
  rintro x hx rfl
  exact absurd (h.not_isIgnored _ hx) (by decide)

/-! ### Segmented texts -/

/-- The **segmented** texts: behind what has been read there are gaps and slices by turns up to the
end of the text, and the tokens are those of the slices. -/
inductive Segmented : List Char → List Char → List Token → Prop
  | gap {front rest : List Char} (hgap : ∀ x ∈ rest, isIgnored x = true) : Segmented front rest []
  | slice {front gap cs rest : List Char} {kind : TokenClass} {ts : List Token}
      (hgap : ∀ x ∈ gap, isIgnored x = true) (hslice : Slice cs rest.head? kind)
      (hrest : Segmented (front ++ gap ++ cs) rest ts) :
      Segmented front (gap ++ cs ++ rest) (ofLexeme kind cs (columnAfter (front ++ gap)) :: ts)

/-- The lexer only moves on over a gap. -/
theorem scan_gap {gap : List Char} (hgap : ∀ x ∈ gap, isIgnored x = true) (front rest : List Char) :
    scan (columnAfter front) (gap ++ rest) = scan (columnAfter (front ++ gap)) rest := by
  induction gap generalizing front with
  | nil => rw [List.nil_append, List.append_nil]
  | cons c gap ih =>
      rw [List.cons_append, scan_cons_ignored (hgap c List.mem_cons_self),
        ← columnAfter_append_singleton, ih fun x hx => hgap x (List.mem_cons_of_mem c hx),
        List.append_assoc, List.singleton_append]

/-- A segmented text is scanned to its tokens. -/
theorem Segmented.scan_eq {front rest : List Char} {ts : List Token}
    (h : Segmented front rest ts) : scan (columnAfter front) rest = .ok ts := by
  induction h with
  | @gap front rest hgap =>
      have hscan := scan_gap hgap front []
      rwa [List.append_nil, scan] at hscan
  | @slice front gap cs rest kind ts hgap hslice hrest ih =>
      obtain ⟨c, more, rfl, hl⟩ := hslice.exists_lexeme
      rw [columnAfter_append hslice.ne_newline, List.length_cons, ← Nat.add_assoc,
        Nat.add_right_comm] at ih
      rw [List.append_assoc, scan_gap hgap]
      exact hl.splits (columnAfter (front ++ gap)) ts ih

/-- A gap goes on to the front. -/
theorem Segmented.cons {front rest : List Char} {c : Char} {ts : List Token}
    (hc : isIgnored c = true) (h : Segmented (front ++ [c]) rest ts) :
    Segmented front (c :: rest) ts := by
  generalize hfront : front ++ [c] = front' at h
  have hignored {gap : List Char} (hgap : ∀ x ∈ gap, isIgnored x = true) :
      ∀ x ∈ c :: gap, isIgnored x = true := by
    intro x hx
    rcases List.mem_cons.1 hx with rfl | hx
    · exact hc
    · exact hgap x hx
  cases h with
  | gap hgap => exact .gap (hignored hgap)
  | @slice _ gap cs rest kind ts hgap hslice hrest =>
      subst hfront
      rw [List.append_assoc front, List.singleton_append] at hrest ⊢
      exact .slice (hignored hgap) hslice hrest

/-- A slice may stand in front without a gap. -/
theorem Segmented.prepend {front cs rest : List Char} {kind : TokenClass} {ts : List Token}
    (hslice : Slice cs rest.head? kind) (h : Segmented (front ++ cs) rest ts) :
    Segmented front (cs ++ rest) (ofLexeme kind cs (columnAfter front) :: ts) := by
  have hs : Segmented front ([] ++ cs ++ rest) _ :=
    .slice (List.forall_mem_nil _) hslice (by rwa [List.append_nil])
  rwa [List.nil_append, List.append_nil] at hs

/-- Behind a lexeme the lexer stands in the column behind its characters. -/
theorem Lexeme.columnAfter_eq {c : Char} {rest : List Char} {kind : TokenClass} {n : ℕ}
    (h : Lexeme c rest kind n) (front : List Char) :
    columnAfter (front ++ c :: rest.take n) = columnAfter front + 1 + n := by
  rw [columnAfter_append h.slice.ne_newline, List.length_cons, List.length_take_of_le h.length_le,
    Nat.add_assoc, Nat.add_comm 1]

/-- A slice stays one when the text ends somewhere behind it. -/
theorem Slice.of_append {cs front rest : List Char} {kind : TokenClass}
    (h : Slice cs (front ++ rest).head? kind) : Slice cs front.head? kind := by
  cases front with
  | nil => exact h.atEnd
  | cons => exact h

/-- Whether the lexer **halts** in front of a text: what it has read before the character that it
reports is segmented, and the character is neither ignored nor the start of a lexeme. -/
def Halts (front rest : List Char) (c : Char) (column : ℕ) : Prop :=
  ∃ read more ts, rest = read ++ c :: more ∧ column = columnAfter (front ++ read) ∧
    Segmented front read ts ∧ isIgnored c = false ∧ lexeme? c more = none

/-- **The lexer segments the text or halts.** -/
theorem segmented_or_halts (front rest : List Char) :
    (∃ ts, scan (columnAfter front) rest = .ok ts ∧ Segmented front rest ts) ∨
      ∃ c column, scan (columnAfter front) rest = .error (.unrecognizedCharacter c column) ∧
        Halts front rest c column := by
  generalize hcolumn : columnAfter front = column
  fun_induction scan column rest generalizing front with
  | case1 => exact .inl ⟨[], rfl, .gap (List.forall_mem_nil _)⟩
  | case2 column c rest hc ih =>
      have hnext := (columnAfter_append_singleton front c).trans (by rw [hcolumn])
      rcases ih (front ++ [c]) hnext with ⟨ts, hs, hsegmented⟩ | ⟨c', column', hs, hhalts⟩
      · exact .inl ⟨ts, hs, hsegmented.cons hc⟩
      · obtain ⟨read, more, ts, rfl, hat, hsegmented, hc', hnone⟩ := hhalts
        rw [List.append_assoc, List.singleton_append] at hat
        exact .inr ⟨c', column', hs, c :: read, more, ts, rfl, hat, hsegmented.cons hc, hc', hnone⟩
  | case3 column c rest hc hnone =>
      refine .inr ⟨c, column, rfl, [], rest, [], rfl, ?_, .gap (List.forall_mem_nil _),
        by simpa using hc, hnone⟩
      rw [List.append_nil, hcolumn]
  | case4 column c rest _ kind n hl ih =>
      have hl := Lexeme.of_lexeme? hl
      have hsplit := List.take_append_drop n rest
      have hslice := hl.slice
      rw [← hcolumn] at ih ⊢
      rcases ih _ (hl.columnAfter_eq front) with ⟨ts, hs, hsegmented⟩ | ⟨c', column', hs, hhalts⟩
      · refine .inl ⟨_, by rw [hs]; rfl, ?_⟩
        have hwhole := hsegmented.prepend hslice
        rwa [List.cons_append, hsplit] at hwhole
      · obtain ⟨read, more, ts, hread, hat, hsegmented, hc', hnone⟩ := hhalts
        rw [hread] at hslice hsplit
        rw [List.append_assoc] at hat
        refine .inr ⟨c', column', by rw [hs]; rfl, c :: rest.take n ++ read, more, _, ?_, hat,
          hsegmented.prepend hslice.of_append, hc', hnone⟩
        rw [List.append_assoc, List.cons_append, hsplit]

/-- **The lexer succeeds exactly on the segmented texts**, with the tokens of the slices. -/
theorem scan_eq_ok_iff {front rest : List Char} {ts : List Token} :
    scan (columnAfter front) rest = .ok ts ↔ Segmented front rest ts := by
  refine ⟨fun h => ?_, Segmented.scan_eq⟩
  rcases segmented_or_halts front rest with ⟨us, hs, hsegmented⟩ | ⟨c, column, hs, -⟩
  · rw [hs] at h
    cases h
    exact hsegmented
  · rw [hs] at h
    cases h

/-- Where the lexer halts, no token starts. -/
theorem not_slice_of_lexeme?_eq_none {c : Char} {rest : List Char} (h : lexeme? c rest = none)
    {cs more : List Char} (htext : c :: rest = cs ++ more) (kind : TokenClass) :
    ¬ Slice cs none kind := by
  intro hslice
  have hend : Slice cs ([] : List Char).head? kind := hslice
  obtain ⟨c', cs', rfl, -⟩ := hend.exists_lexeme
  obtain ⟨rfl, rfl⟩ := List.cons.inj htext
  obtain ⟨kind', n, hl, -⟩ := hslice.exists_lexeme_append more
  rw [List.append_eq, hl.lexeme?_eq] at h
  cases h

/-! ### The tokens of a text -/

/-- A text has the tokens that it is segmented into, if there are any. -/
theorem ofText_eq_ok_iff_segmented {text : String} {ts : List Token} :
    ofText text = .ok ts ↔ ts ≠ [] ∧ Segmented [] text.toList ts := by
  rw [ofText_eq_ok_iff, and_comm, ← scan_eq_ok_iff]
  rfl

/-- A segmented text is blank or has tokens. -/
theorem Segmented.blank_or_ofText {front : List Char} {ts : List Token}
    (h : Segmented [] front ts) :
    (∀ x ∈ front, isIgnored x = true) ∨ ∃ ts, ofText (String.ofList front) = .ok ts := by
  cases ts with
  | nil =>
      cases h with
      | gap hgap => exact .inl hgap
  | cons t ts =>
      rw [← String.toList_ofList (l := front)] at h
      exact .inr ⟨t :: ts, ofText_eq_ok_iff_segmented.2 ⟨List.cons_ne_nil t ts, h⟩⟩

/-- A text that is refused for a character is one that the lexer halts on. -/
theorem halts_of_ofText {text : String} {c : Char} {column : ℕ}
    (h : ofText text = .error (.unrecognizedCharacter c column)) :
    Halts [] text.toList c column := by
  have hstart : columnAfter [] = 1 := rfl
  rw [ofText, ← hstart] at h
  rcases segmented_or_halts [] text.toList with ⟨ts, hs, -⟩ | ⟨c', column', hs, hhalts⟩
  · rw [hs] at h
    simp only [bind, Except.bind] at h
    split at h <;> cases h
  · rw [hs] at h
    cases h
    exact hhalts

/-- **The tokens of a text are its slices, in order and as long as they can be**, and between them
there are only blanks. Where a text is refused for a character, what stands in front of it is blank
or has tokens of its own, and no token starts with it. -/
theorem ofText_faithful (text : String) :
    (∀ ts, ofText text = .ok ts ↔ ts ≠ [] ∧ Segmented [] text.toList ts) ∧
      ∀ c column, ofText text = .error (.unrecognizedCharacter c column) →
        ∃ front rest, text.toList = front ++ c :: rest ∧ column = columnAfter front ∧
          ((∀ x ∈ front, isIgnored x = true) ∨
            ∃ ts, ofText (String.ofList front) = .ok ts) ∧
          isIgnored c = false ∧
          ∀ cs more kind, c :: rest = cs ++ more → ¬ Slice cs none kind := by
  refine ⟨fun ts => ofText_eq_ok_iff_segmented, fun c column h => ?_⟩
  obtain ⟨front, rest, ts, htext, hcolumn, hsegmented, hc, hnone⟩ := halts_of_ofText h
  exact ⟨front, rest, htext, hcolumn, hsegmented.blank_or_ofText, hc,
    fun cs more kind heq => not_slice_of_lexeme?_eq_none hnone heq kind⟩

/-- The text `Sin(x)*2.` on two lines is segmented to its end, while a second point behind it is
refused. -/
theorem ofText_faithful_points :
    Segmented [] "Sin(x)\n*2.".toList [⟨"sin", .function, some 1⟩, ⟨"(", .structural, some 4⟩,
        ⟨"x", .operand, some 5⟩, ⟨")", .structural, some 6⟩, ⟨"*", .multiplicative, some 1⟩,
        ⟨"2.", .operand, some 2⟩] ∧
      ofText "Sin(x)\n*2.." = .error (.unrecognizedCharacter '.' 4) ∧
      ∃ front rest, "Sin(x)\n*2..".toList = front ++ '.' :: rest ∧ 4 = columnAfter front ∧
        ((∀ x ∈ front, isIgnored x = true) ∨ ∃ ts, ofText (String.ofList front) = .ok ts) ∧
        isIgnored '.' = false ∧
        ∀ cs more kind, '.' :: rest = cs ++ more → ¬ Slice cs none kind := by
  have htokens := ((ofText_faithful "Sin(x)\n*2.").1 [⟨"sin", .function, some 1⟩,
    ⟨"(", .structural, some 4⟩, ⟨"x", .operand, some 5⟩, ⟨")", .structural, some 6⟩,
    ⟨"*", .multiplicative, some 1⟩, ⟨"2.", .operand, some 2⟩]).1 (by decide +kernel)
  have hpoint : ofText "Sin(x)\n*2.." = .error (.unrecognizedCharacter '.' 4) := by
    decide +kernel
  exact ⟨htokens.2, hpoint, (ofText_faithful _).2 _ _ hpoint⟩

end Formulary.Token
