import Formulary.Proofs.JsonTexts

/-!
# Remnants in Front of a Record

A record that is written behind a line without an end is glued to what stands there, and a reader
meets both as one text. This module proves that such a text is never a value, whatever stands in
front of the record: a string, an array or an object that was left open cannot take the record in,
since the record holds no end for it, and a complete value cannot stand in front of a brace. Only
blanks do no harm.

## Conventions

A text is **named** if it begins like an object with a field: with a brace, the quote of the first
name and a letter. This letter **stands apart** if it is neither blank nor one of the marks that
stand behind a value.

The one way to read into a named text and to stop there is a string left open in front of it. It
runs over the brace and takes the quote of the name for its end, so it leaves the letter, and no
value can end in front of that. To **spare** a named text is to leave it whole, or to leave the
letter and what is behind it.

## Main results

* `Takes.suffix`: a reader that takes no brace off leaves a named text whole.
* `spares_readText`: a string in front of a named text spares it.
* `Reads.respects`: the readers of values, items and fields spare it, unless they are given the text
  itself.
* `Reads.read_append_iff`: what is in front of a named text may only be blank.
* `exists_toRecord_eq_named`: the record of an object is named after its first field in order.
-/

namespace Formulary

/-- What goes on gives a result if both its parts do. -/
theorem bind_eq_ok {ε α β : Type} {x : Except ε α} {f : α → Except ε β} {b : β} :
    x >>= f = .ok b ↔ ∃ a, x = .ok a ∧ f a = .ok b := by
  cases x with
  | ok a => exact ⟨fun h => ⟨a, rfl, h⟩, fun ⟨_, ha, h⟩ => by cases ha; exact h⟩
  | error e => exact ⟨fun h => (by cases h), fun ⟨_, ha, _⟩ => by cases ha⟩

namespace Json

open Text Number

/-! ### What a reader takes off -/

/-- Whether a reader **takes off** a part of a text that holds no opening brace. -/
def Takes (cs rest : List Char) : Prop :=
  ∃ used, cs = used ++ rest ∧ '\x7b' ∉ used

/-- Nothing is taken off. -/
theorem Takes.refl (cs : List Char) : Takes cs cs :=
  ⟨[], rfl, List.not_mem_nil⟩

/-- Parts are taken off one after the other. -/
theorem Takes.trans {cs rest last : List Char} (h : Takes cs rest) (hrest : Takes rest last) :
    Takes cs last := by
  obtain ⟨used, rfl, hused⟩ := h
  obtain ⟨more, rfl, hmore⟩ := hrest
  exact ⟨used ++ more, (List.append_assoc _ _ _).symm, by simp [hused, hmore]⟩

/-- A character is taken off. -/
theorem takes_cons {c : Char} (h : c ≠ '\x7b') (cs : List Char) : Takes (c :: cs) cs :=
  ⟨[c], rfl, by simpa using h.symm⟩

/-- The first characters of a class without the brace are taken off. -/
theorem takes_dropWhile {p : Char → Bool} (h : p '\x7b' = false) (cs : List Char) :
    Takes cs (cs.dropWhile p) := by
  refine ⟨cs.takeWhile p, List.takeWhile_append_dropWhile.symm, fun hmem => ?_⟩
  rw [List.mem_takeWhile_imp hmem] at h
  cases h

/-- **What begins with a brace is found behind all that a reader takes off.** -/
theorem Takes.suffix {cs rest more : List Char} (h : Takes cs rest)
    (hsuffix : '\x7b' :: more <:+ cs) : '\x7b' :: more <:+ rest := by
  obtain ⟨used, rfl, hused⟩ := h
  induction used with
  | nil => exact hsuffix
  | cons c used ih =>
      rw [List.mem_cons, not_or] at hused
      rcases List.suffix_cons_iff.1 hsuffix with heq | hsuffix
      · exact absurd (List.cons.inj heq).1 hused.1
      · exact ih hused.2 hsuffix

/-- What is left is an end of the text. -/
theorem Takes.isSuffix {cs rest : List Char} (h : Takes cs rest) : rest <:+ cs := by
  obtain ⟨used, rfl, -⟩ := h
  exact List.suffix_append used rest

/-! ### Numbers and words -/

/-- The digits before the point are taken off. -/
theorem takes_takeWhole (cs : List Char) : Takes cs (takeWhole cs).2 := by
  rw [takeWhole.eq_def]
  split
  · exact takes_cons (by decide) _
  · rw [List.span_eq_takeWhile_dropWhile]
    exact takes_dropWhile rfl cs

/-- A fraction is taken off. -/
theorem takes_takeFraction (cs : List Char) : Takes cs (takeFraction cs).2 := by
  rw [takeFraction.eq_def]
  split
  · rename_i rest
    rw [List.span_eq_takeWhile_dropWhile]
    simp only
    split
    · exact .refl _
    · exact (takes_cons (by decide) _).trans (takes_dropWhile rfl rest)
  · exact .refl _

/-- An exponent is taken off. -/
theorem takes_takeExponent (cs : List Char) : Takes cs (takeExponent cs).2 := by
  cases cs with
  | nil => exact .refl _
  | cons c rest =>
      by_cases hc : c = 'e' ∨ c = 'E'
      · have hbrace : c ≠ '\x7b' := by
          rintro rfl
          revert hc
          decide
        have hbody (sign body : List Char) (h : Takes rest body) :
            Takes (c :: rest) (if (body.takeWhile Char.isDigit).isEmpty then ([], c :: rest)
              else (c :: sign ++ body.takeWhile Char.isDigit, body.dropWhile Char.isDigit)).2 := by
          split
          · exact .refl _
          · exact ((takes_cons hbrace rest).trans h).trans (takes_dropWhile rfl body)
        simp only [takeExponent.eq_def, if_pos hc, List.span_eq_takeWhile_dropWhile]
        split
        · exact hbody _ _ (takes_cons (by decide) _)
        · exact hbody _ _ (takes_cons (by decide) _)
        · exact hbody _ _ (.refl _)
      · simp only [takeExponent.eq_def, if_neg hc]
        exact .refl _

/-- A number is taken off. -/
theorem takes_readNumber {cs rest : List Char} {v : Json} (h : readNumber cs = .ok (v, rest)) :
    Takes cs rest := by
  rw [readNumber.eq_def] at h
  split at h
  rename_i sign body hsign
  have hbody : Takes cs body := by
    split at hsign
    · cases hsign
      exact takes_cons (by decide) _
    · cases hsign
      exact .refl _
  have htakes := ((hbody.trans (takes_takeWhole body)).trans (takes_takeFraction _)).trans
    (takes_takeExponent _)
  simp only at h
  split at h
  · cases h
  split at h
  · split at h
    · cases h
    · cases h
      exact htakes
  · split at h
    · cases h
      exact htakes
    · cases h

/-- A word is taken off. -/
theorem takes_readWord? {cs rest : List Char} {v : Json} (h : readWord? cs = some (v, rest)) :
    Takes cs rest := by
  have hword {word : String} {value : Json} (hbrace : '\x7b' ∉ word.toList)
      (h : (word? word cs).map (value, ·) = some (v, rest)) : Takes cs rest := by
    obtain ⟨after, hafter, heq⟩ := Option.map_eq_some_iff.1 h
    obtain ⟨rfl, rfl⟩ := Prod.mk.inj heq
    rw [word?] at hafter
    split at hafter
    · rename_i hprefix
      obtain ⟨more, rfl⟩ := List.isPrefixOf_iff_prefix.1 hprefix
      cases hafter
      exact ⟨word.toList, by rw [List.drop_left], hbrace⟩
    · cases hafter
  simp only [readWord?, Option.orElse_eq_some] at h
  rcases h with h | ⟨-, h | ⟨-, h | ⟨-, h | ⟨-, h | ⟨-, h⟩⟩⟩⟩⟩
  all_goals exact hword (by decide) h

/-- Blanks are taken off. -/
theorem takes_skipSpace (cs : List Char) : Takes cs (skipSpace cs) :=
  takes_dropWhile rfl cs

/-- A simple escape is taken off. -/
theorem takes_escape {c e : Char} (he : unescape? c = some e) (cs : List Char) :
    Takes ('\\' :: c :: cs) cs := by
  refine ⟨['\\', c], rfl, fun hmem => ?_⟩
  have hc : c = '\x7b' := by simpa [eq_comm] using hmem
  rw [hc] at he
  cases he

/-- An escaped unit is taken off. -/
theorem takes_unit {a b c d : Char} {n : ℕ} (hn : unit? a b c d = some n) (cs : List Char) :
    Takes ('\\' :: 'u' :: a :: b :: c :: d :: cs) cs := by
  refine ⟨['\\', 'u', a, b, c, d], rfl, fun hmem => ?_⟩
  have hbrace : hexValue? '\x7b' = none := rfl
  simp only [List.mem_cons, List.not_mem_nil, or_false] at hmem
  rcases hmem with h | h | rfl | rfl | rfl | rfl
  · cases h
  · cases h
  all_goals simp [unit?, hbrace] at hn

/-! ### Strings -/

/-- A text that begins with a **named** field: the brace of an object, the quote of its first name
and the first letter of this name. -/
def named (letter : Char) (more : List Char) : List Char :=
  '\x7b' :: '"' :: letter :: more

/-- Whether a reader **spares** a text with a named field: of the text that it was given it leaves
an end, and this holds the whole text or begins with the first letter of the name, if the reader
took the quote in front of this letter for the end of a string. -/
def Spares (letter : Char) (more cs rest : List Char) : Prop :=
  rest <:+ cs ∧ (named letter more <:+ rest ∨ rest = letter :: more)

/-- What a reader takes off without a brace spares the text. -/
theorem Takes.spares {cs rest : List Char} (h : Takes cs rest) {letter : Char} {more : List Char}
    (hsuffix : named letter more <:+ cs) : Spares letter more cs rest :=
  ⟨h.isSuffix, .inl (h.suffix hsuffix)⟩

/-- A text is spared if it is spared from a part behind what was taken off. -/
theorem Spares.of_suffix {cs rest last : List Char} {letter : Char} {more : List Char}
    (h : Spares letter more rest last) (hrest : rest <:+ cs) : Spares letter more cs last :=
  ⟨h.1.trans hrest, h.2⟩

section

variable {letter : Char} {more : List Char}

/-- A text behind one more character begins there or later. -/
theorem named_suffix_cons {c : Char} {cs : List Char} (h : named letter more <:+ c :: cs) :
    (c = '\x7b' ∧ cs = '"' :: letter :: more) ∨ named letter more <:+ cs := by
  rcases List.suffix_cons_iff.1 h with heq | h
  · obtain ⟨rfl, rfl⟩ := List.cons.inj heq
    exact .inl ⟨rfl, rfl⟩
  · exact .inr h

/-- **A string in front of the text spares it.** -/
theorem spares_readText {read s cs rest : List Char} {high : Option ℕ}
    (h : readText read high cs = some (s, rest)) (hsuffix : named letter more <:+ cs) :
    Spares letter more cs rest := by
  fun_induction readText read high cs with
  | case1 => cases h
  | case2 read high after =>
      cases h
      rcases named_suffix_cons hsuffix with ⟨hc, -⟩ | hsuffix
      · cases hc
      · exact ⟨List.suffix_cons _ _, .inl hsuffix⟩
  | case3 => cases h
  | case4 read high a b c d after n hn _ ih | case5 read a b c d after n hn _ _ first ih
  | case6 read a b c d after n hn _ _ ih | case7 read high a b c d after n hn _ _ ih =>
      have htakes := takes_unit hn after
      exact (ih h (htakes.suffix hsuffix)).of_suffix htakes.isSuffix
  | case8 read high c after _ e he ih =>
      have htakes := takes_escape he after
      exact (ih h (htakes.suffix hsuffix)).of_suffix htakes.isSuffix
  | case9 => cases h
  | case10 => cases h
  | case11 read high c after _ _ _ _ ih =>
      rcases named_suffix_cons hsuffix with ⟨rfl, rfl⟩ | hsuffix
      · -- the string runs into the text and ends with the quote of the name
        rw [readText] at h
        cases h
        exact ⟨List.suffix_append ['\x7b', '"'] _, .inr rfl⟩
      · exact (ih h hsuffix).of_suffix (List.suffix_cons c after)

/-- Behind a reader that spares the text there is more than blanks. -/
theorem Spares.isEmpty_skipSpace {cs rest : List Char} (h : Spares letter more cs rest)
    (hletter : isSpace letter = false) : (skipSpace rest).isEmpty = false := by
  rcases h.2 with h | rfl
  · have hsuffix : named letter more <:+ skipSpace rest := (takes_skipSpace rest).suffix h
    exact List.isEmpty_eq_false_iff.2 (hsuffix.ne_nil (List.cons_ne_nil _ _))
  · rw [skipSpace_cons hletter]
    rfl

/-! ### Values -/

/-- Whether a letter **stands apart**: it is no blank, and no mark that goes on with a value or ends
it. -/
def Apart (letter : Char) : Prop :=
  isSpace letter = false ∧ letter ∉ [',', ':', ']', '\x7d']

/-- Whether a reader stopped **before** the text: it took something off and left the whole text. -/
def Before (letter : Char) (more cs rest : List Char) : Prop :=
  rest <:+ cs ∧ rest.length < cs.length ∧ named letter more <:+ rest

/-- Whether a value **passes** the text: it is the text and nothing is left, or it spares it. -/
def Passes (letter : Char) (more cs rest : List Char) : Prop :=
  cs = named letter more ∧ rest = [] ∨ Spares letter more cs rest

/-- What stopped before the text spares it. -/
theorem Before.spares {cs rest : List Char} (h : Before letter more cs rest) :
    Spares letter more cs rest :=
  ⟨h.1, .inl h.2.2⟩

/-- A reader that skips blanks stays before the text. -/
theorem Before.skipSpace {cs rest : List Char} (h : Before letter more cs rest) :
    Before letter more cs (skipSpace rest) := by
  have htakes := takes_skipSpace rest
  exact ⟨htakes.isSuffix.trans h.1, htakes.isSuffix.length_le.trans_lt h.2.1, htakes.suffix h.2.2⟩

/-- **A mark behind a value that passes the text stands before the text.** -/
theorem Passes.before_of_mark (hletter : Apart letter) {cs rest after : List Char} {mark : Char}
    (h : Passes letter more cs rest) (hmark : mark ∈ [',', ':', ']', '\x7d'])
    (hskip : Json.skipSpace rest = mark :: after) : Before letter more cs after := by
  have hafter : mark :: after <:+ rest := hskip ▸ (takes_skipSpace rest).isSuffix
  rcases h with ⟨-, rfl⟩ | ⟨hrest, h | rfl⟩
  · cases hskip
  · have hlength := (hafter.trans hrest).length_le
    have hsuffix : named letter more <:+ mark :: after := hskip ▸ (takes_skipSpace rest).suffix h
    refine ⟨(List.suffix_cons mark after).trans (hafter.trans hrest), hlength, ?_⟩
    rcases named_suffix_cons hsuffix with ⟨rfl, -⟩ | h
    · exact absurd hmark (by decide)
    · exact h
  · rw [skipSpace_cons hletter.1] at hskip
    exact absurd ((List.cons.inj hskip).1 ▸ hmark) hletter.2

/-- Whether the readers of some fuel **respect** the text: they pass it with a value, and spare it
with the items of an array and the fields of an object. -/
structure Respects (letter : Char) (more : List Char) (fuel : ℕ) : Prop where
  value {cs rest : List Char} {v : Json} : named letter more <:+ cs → 2 * cs.length ≤ fuel →
    readValue fuel cs = .ok (v, rest) → Passes letter more cs rest
  items {cs rest : List Char} {vs : List Json} : named letter more <:+ cs →
    2 * cs.length + 1 ≤ fuel → readItems fuel cs = .ok (vs, rest) → Spares letter more cs rest
  fields {cs rest : List Char} {before vs : Fields} : named letter more <:+ cs →
    2 * cs.length + 1 ≤ fuel → readFields fuel before cs = .ok (vs, rest) →
    Spares letter more cs rest

/-- **A value that is not the text itself spares it.** -/
theorem Respects.spares_readValue {fuel : ℕ} (ih : Respects letter more fuel)
    (hletter : Apart letter) {cs rest : List Char} {v : Json}
    (hsuffix : named letter more <:+ cs) (hne : cs ≠ named letter more)
    (hfuel : 2 * cs.length ≤ fuel + 1) (h : readValue (fuel + 1) cs = .ok (v, rest)) :
    Spares letter more cs rest := by
  have htail {c : Char} {tail : List Char} (hcs : cs = c :: tail) :
      Before letter more cs tail := by
    subst hcs
    rcases named_suffix_cons hsuffix with ⟨rfl, rfl⟩ | htail
    · exact absurd rfl hne
    · exact ⟨List.suffix_cons c tail, Nat.lt_succ_self _, htail⟩
  rw [readValue.eq_def] at h
  simp only at h
  split at h
  · -- a string
    split at h
    · rename_i hread
      cases h
      exact (spares_readText hread (htail rfl).2.2).of_suffix (List.suffix_cons _ _)
    · cases h
  · -- an array
    rename_i tail
    split at h
    · rename_i hclose
      cases h
      exact (Passes.before_of_mark hletter (.inr (htail rfl).spares) (by decide) hclose).spares
    · obtain ⟨⟨vs, after⟩, hitems, hresult⟩ := bind_eq_ok.1 h
      cases hresult
      obtain ⟨hend, hlength, htext⟩ := (htail rfl).skipSpace
      exact (ih.items htext (by omega) hitems).of_suffix hend
  · -- an object
    rename_i tail
    split at h
    · rename_i hclose
      cases h
      exact (Passes.before_of_mark hletter (.inr (htail rfl).spares) (by decide) hclose).spares
    · obtain ⟨⟨vs, after⟩, hfields, hresult⟩ := bind_eq_ok.1 h
      cases hresult
      obtain ⟨hend, hlength, htext⟩ := (htail rfl).skipSpace
      exact (ih.fields htext (by omega) hfields).of_suffix hend
  · -- a word or a number
    split at h
    · rename_i hword
      cases h
      exact (takes_readWord? hword).spares hsuffix
    · exact (takes_readNumber h).spares hsuffix

/-- **The items of an array spare the text.** -/
theorem Respects.spares_readItems {fuel : ℕ} (ih : Respects letter more fuel)
    (hletter : Apart letter) {cs rest : List Char} {vs : List Json}
    (hsuffix : named letter more <:+ cs) (hfuel : 2 * cs.length + 1 ≤ fuel + 1)
    (h : readItems (fuel + 1) cs = .ok (vs, rest)) : Spares letter more cs rest := by
  rw [readItems] at h
  obtain ⟨⟨item, after⟩, hitem, h⟩ := bind_eq_ok.1 h
  have hpasses := ih.value hsuffix (by omega) hitem
  simp only at h
  split at h
  · rename_i hskip
    cases h
    exact (hpasses.before_of_mark hletter (by decide) hskip).spares
  · rename_i hskip
    obtain ⟨⟨items, last⟩, hitems, hresult⟩ := bind_eq_ok.1 h
    cases hresult
    obtain ⟨hend, hlength, htext⟩ :=
      (hpasses.before_of_mark hletter (by decide) hskip).skipSpace
    exact (ih.items htext (by omega) hitems).of_suffix hend
  · cases h

/-- **The fields of an object spare the text.** -/
theorem Respects.spares_readFields {fuel : ℕ} (ih : Respects letter more fuel)
    (hletter : Apart letter) {cs rest : List Char} {before vs : Fields}
    (hsuffix : named letter more <:+ cs) (hfuel : 2 * cs.length + 1 ≤ fuel + 1)
    (h : readFields (fuel + 1) before cs = .ok (vs, rest)) : Spares letter more cs rest := by
  rw [readFields.eq_def] at h
  simp only at h
  split at h
  · rename_i tail
    split at h
    · cases h
    · rename_i hread
      -- the name of the field
      have htail := (named_suffix_cons hsuffix).resolve_left fun heq => by cases heq.1
      have hname := (spares_readText hread htail).of_suffix (List.suffix_cons '"' tail)
      split at h
      · rename_i hcolon
        obtain ⟨⟨value, after⟩, hvalue, h⟩ := bind_eq_ok.1 h
        obtain ⟨hend, hlength, htext⟩ :=
          (Passes.before_of_mark hletter (.inr hname) (by decide) hcolon).skipSpace
        have hpasses := ih.value htext (by omega) hvalue
        simp only at h
        split at h
        · rename_i hskip
          cases h
          exact (hpasses.before_of_mark hletter (by decide) hskip).spares.of_suffix hend
        · rename_i hskip
          obtain ⟨hnext, hless, htext⟩ :=
            (hpasses.before_of_mark hletter (by decide) hskip).skipSpace
          exact (ih.fields htext (by omega) h).of_suffix (hnext.trans hend)
        · cases h
      · cases h
  · cases h

/-- **The readers respect a text that reads as a value**, if the first letter of its first name
stands apart. -/
theorem Reads.respects {v : Json} (h : Reads (named letter more) v) (hletter : Apart letter)
    (fuel : ℕ) : Respects letter more fuel := by
  induction fuel with
  | zero =>
      refine ⟨fun _ _ h => ?_, fun _ _ h => ?_, fun _ _ h => ?_⟩
      · rw [readValue] at h
        cases h
      · rw [readItems] at h
        cases h
      · rw [readFields] at h
        cases h
  | succ fuel ih =>
      refine ⟨fun {cs rest v} hsuffix hfuel hread => ?_, ih.spares_readItems hletter,
        ih.spares_readFields hletter⟩
      by_cases heq : cs = named letter more
      · subst heq
        have hvalue := h.value (fuel + 1) [] ends_nil hfuel
        rw [List.append_nil, hread] at hvalue
        cases hvalue
        exact .inl ⟨rfl, rfl⟩
      · exact .inr (ih.spares_readValue hletter hsuffix heq hfuel hread)

/-- **Nothing but blanks may stand in front of an object** whose first name begins with a letter
that stands apart: everything else makes the text unreadable. -/
theorem Reads.read_append_iff {v : Json} (h : Reads (named letter more) v) (hletter : Apart letter)
    (front : List Char) (value : Json) :
    Json.read (front ++ named letter more) = .ok value ↔
      (∀ c ∈ front, isSpace c = true) ∧ value = v := by
  have hskip : skipSpace (front ++ named letter more) = skipSpace front ++ named letter more :=
    dropWhile_append_eq (by rintro c ⟨⟩; rfl)
  have hblank : (∀ c ∈ front, isSpace c = true) ↔ skipSpace front = [] :=
    List.dropWhile_eq_nil_iff.symm
  have hfuel : 2 * (skipSpace front ++ named letter more).length ≤
      2 * (front ++ named letter more).length + 2 := by
    have hle := (takes_skipSpace front).isSuffix.length_le
    rw [List.length_append, List.length_append]
    omega
  rw [hblank, Json.read, hskip]
  by_cases hfront : skipSpace front = []
  · -- the reader comes to the text itself
    rw [hfront, List.nil_append] at hfuel ⊢
    have hvalue := h.value _ [] ends_nil hfuel
    rw [List.append_nil] at hvalue
    rw [hvalue]
    exact ⟨fun heq => ⟨rfl, (Except.ok.inj heq).symm⟩, fun heq => congrArg Except.ok heq.2.symm⟩
  · refine iff_of_false (fun hread => ?_) fun heq => hfront heq.1
    obtain ⟨⟨first, rest⟩, hvalue, hread⟩ := bind_eq_ok.1 hread
    have hne : skipSpace front ++ named letter more ≠ named letter more := fun heq =>
      hfront (List.append_left_eq_self.1 heq)
    have hspares := (h.respects hletter _).spares_readValue hletter (List.suffix_append _ _) hne
      hfuel hvalue
    simp only [hspares.isEmpty_skipSpace hletter.1] at hread
    cases hread

end

/-! ### Records -/

/-- **A record begins with its first field**: the text of an object whose first name in order begins
with a letter that is written as it is. -/
theorem exists_toRecord_eq_named {fields : Fields} {name : String} {names : List String}
    {letter : Char} {letters : List Char} (hnames : sortNames (fields.map (·.1)) = name :: names)
    (hname : name.toList = letter :: letters) (hletter : escapeChar true letter = [letter]) :
    ∃ more, (Json.object fields).toRecord = named letter more := by
  have hsorted : (sortOn (·.1) fields).map (·.1) = name :: names :=
    (sortOn_map (fun _ => rfl) fields).symm.trans hnames
  obtain ⟨field, later, hfields, rfl, -⟩ := List.map_eq_cons_iff.1 hsorted
  have hfield (value : List Char) : ∃ more, fieldText field.1 value = '"' :: letter :: more := by
    rw [fieldText, writeText, hname, List.flatMap_cons, hletter]
    exact ⟨_, rfl⟩
  have hjoined (value : List Char) (texts : List (List Char)) :
      ∃ more, joined (fieldText field.1 value :: texts) = '"' :: letter :: more := by
    obtain ⟨more, hmore⟩ := hfield value
    cases texts with
    | nil => exact ⟨more, by rw [joined_singleton, hmore]⟩
    | cons next texts =>
        exact ⟨_, by rw [joined_cons_cons, hmore, List.cons_append, List.cons_append]⟩
  have hrecord : Style.record.sorted = true := rfl
  rw [toRecord, Style.write, enclose_record, if_pos hrecord, writeFields_eq,
    sortOn_map fun _ => rfl, hfields, List.map_cons, List.map_cons]
  obtain ⟨more, hmore⟩ := hjoined (Style.record.write 1 field.2) _
  rw [hmore]
  exact ⟨_, rfl⟩

end Json

end Formulary
