import Formulary.Proofs.JsonNumbers

/-!
# Records Read Back

A record is one line of text, and the log consists of such lines. This module proves that the line
of a value is read as the value, and that it holds no character that could end a line or mean more
than one byte.

## Conventions

A value is **well formed** if the fields of each of its objects have different names and its whole
numbers have no more digits than a reader accepts. Reading gives it back with the fields of its
objects in the order of their names (`Json.sorted`), since that is how they are written.

`Reads cs v` says of a text that it reads as the value in front of everything that ends a value, if
the fuel of the reader is at least twice the length of the text. Each way to write a value is one
lemma about `Reads`.

## Main results

* `escapeChar_cases`, `readText_escapeChar`: how a character is escaped and read from its escape.
* `Reads.array`, `Reads.object`: texts that read as values are put together.
* `WellFormed.field?_sorted`: a value in order has the same fields.
* `WellFormed.reads`: the text of a well formed value reads as the value.
* `read_toRecord`: a record is read back.
-/

namespace Formulary.Json

open Text Number

/-! ### Characters -/

/-- Whether a character is **printable** ASCII or the delete character, so that it is one byte and
ends no line. -/
def IsPlain (c : Char) : Prop :=
  0x20 ≤ c.toNat ∧ c.toNat < 0x80

instance (c : Char) : Decidable (IsPlain c) :=
  inferInstanceAs (Decidable (_ ∧ _))

/-- A digit is plain. -/
theorem isPlain_of_isDigit {c : Char} (h : c.isDigit = true) : IsPlain c := by
  obtain ⟨hlow, hhigh⟩ : 48 ≤ c.toNat ∧ c.toNat ≤ 57 := by
    simpa [Char.isDigit, UInt32.le_iff_toNat_le] using h
  exact ⟨by omega, by omega⟩

/-- A figure is plain. -/
theorem isPlain_of_isFigure {c : Char} (h : Numeral.IsFigure c) : IsPlain c := by
  rcases h with h | rfl | rfl | rfl | rfl
  · exact isPlain_of_isDigit h
  all_goals exact ⟨by decide, by decide⟩

/-! ### Escapes -/

/-- The digits of a code unit. -/
theorem hexDigits_four (n : ℕ) :
    hexDigits 4 n = [hexDigit (n / 16 / 16 / 16 % 16), hexDigit (n / 16 / 16 % 16),
      hexDigit (n / 16 % 16), hexDigit (n % 16)] :=
  rfl

/-- A hexadecimal digit is plain and has its value. -/
theorem hexDigit_spec {n : ℕ} (h : n < 16) :
    IsPlain (hexDigit n) ∧ hexValue? (hexDigit n) = some n := by
  have hall : ∀ n < 16, (0x20 ≤ (hexDigit n).toNat ∧ (hexDigit n).toNat < 0x80) ∧
      hexValue? (hexDigit n) = some n := by
    decide
  exact hall n h

/-- **An escaped code unit is read**: as a character, as a first half, or as the second half of one
that is waiting. -/
theorem readText_escapeUnit {n : ℕ} (hn : n < 0x10000) (read : List Char) (high : Option ℕ)
    (rest : List Char) :
    (n < 0xD800 ∨ 0xE000 ≤ n → readText read high (escapeUnit n ++ rest) =
        readText (Char.ofNat n :: readText.flush read high) none rest) ∧
      (0xD800 ≤ n ∧ n < 0xDC00 → readText read high (escapeUnit n ++ rest) =
        readText (readText.flush read high) (some n) rest) ∧
      (0xDC00 ≤ n ∧ n < 0xE000 → ∀ first, high = some first →
        readText read high (escapeUnit n ++ rest) =
          readText (Char.ofNat (0x10000 + (first - 0xD800) * 0x400 + (n - 0xDC00)) :: read) none
            rest) := by
  have hunit : unit? (hexDigit (n / 16 / 16 / 16 % 16)) (hexDigit (n / 16 / 16 % 16))
      (hexDigit (n / 16 % 16)) (hexDigit (n % 16)) = some n := by
    have hvalue (k : ℕ) : hexValue? (hexDigit (k % 16)) = some (k % 16) :=
      (hexDigit_spec (Nat.mod_lt k (by decide))).2
    have heq : ((n / 16 / 16 / 16 % 16 * 16 + n / 16 / 16 % 16) * 16 + n / 16 % 16) * 16 + n % 16 =
        n := by omega
    simp only [unit?, hvalue, bind, Option.bind, pure, heq]
  simp only [escapeUnit, hexDigits_four, List.cons_append, List.nil_append, readText, hunit]
  refine ⟨fun h => ?_, fun h => ?_, fun h first hfirst => ?_⟩
  · rw [if_neg (by omega), if_neg (by omega)]
  · rw [if_pos h]
  · subst hfirst
    rw [if_neg (by omega), if_pos h]

/-- The characters with an escape of two characters, and the second of these. -/
def simpleEscapes : List (Char × Char) :=
  [('"', '"'), ('\\', '\\'), ('\n', 'n'), ('\r', 'r'), ('\t', 't'), (Char.ofNat 0x08, 'b'),
    (Char.ofNat 0x0C, 'f')]

/-- **The four ways in which a character is escaped**: by two characters, as a code unit, not at
all, or as two code units. -/
theorem escapeChar_cases (c : Char) :
    (∃ e, escapeChar true c = ['\\', e] ∧ IsPlain e ∧ e ≠ 'u' ∧ unescape? e = some c) ∨
      (escapeChar true c = escapeUnit c.toNat ∧ c.toNat < 0x10000) ∨
      (escapeChar true c = [c] ∧ IsPlain c ∧ c ≠ '"' ∧ c ≠ '\\') ∨
      (escapeChar true c = escapeUnit (0xD800 + (c.toNat - 0x10000) / 0x400) ++
          escapeUnit (0xDC00 + (c.toNat - 0x10000) % 0x400) ∧ 0x10000 ≤ c.toNat) := by
  have htable : ∀ x ∈ simpleEscapes, escapeChar true x.1 = ['\\', x.2] ∧ IsPlain x.2 ∧ x.2 ≠ 'u' ∧
      unescape? x.2 = some x.1 :=
    List.forall_iff_forall_mem.1 (by decide)
  by_cases hsimple : ∃ x ∈ simpleEscapes, x.1 = c
  · obtain ⟨x, hx, rfl⟩ := hsimple
    exact .inl ⟨x.2, htable x hx⟩
  have hne : ∀ x ∈ simpleEscapes, c ≠ x.1 := fun x hx heq => hsimple ⟨x, hx, heq.symm⟩
  rw [simpleEscapes] at hne
  simp only [List.forall_mem_cons] at hne
  obtain ⟨hquote, hbackslash, hnewline, hreturn, htab, hback, hfeed, -⟩ := hne
  have hcode (n : ℕ) (hn : c ≠ Char.ofNat n) : c.toNat ≠ n := fun heq =>
    hn (by rw [← heq, Char.ofNat_toNat])
  rw [escapeChar, if_neg hquote, if_neg hbackslash, if_neg hnewline, if_neg hreturn, if_neg htab,
    if_neg (hcode _ hback), if_neg (hcode _ hfeed), Bool.not_true, Bool.false_or]
  by_cases hlow : c.toNat < 0x20
  · rw [if_pos hlow]
    exact .inr (.inl ⟨rfl, by omega⟩)
  rw [if_neg hlow]
  by_cases hascii : c.toNat < 0x80
  · rw [if_pos (decide_eq_true hascii)]
    exact .inr (.inr (.inl ⟨rfl, ⟨by omega, hascii⟩, hquote, hbackslash⟩))
  rw [if_neg (by rw [decide_eq_true_eq]; exact hascii)]
  by_cases hunit : c.toNat < 0x10000
  · rw [if_pos hunit]
    exact .inr (.inl ⟨rfl, hunit⟩)
  · rw [if_neg hunit]
    exact .inr (.inr (.inr ⟨rfl, Nat.le_of_not_lt hunit⟩))

/-- **A character is read from its escape.** -/
theorem readText_escapeChar (c : Char) (read rest : List Char) :
    readText read none (escapeChar true c ++ rest) = readText (c :: read) none rest := by
  have hvalid : c.toNat < 0xD800 ∨ 0xDFFF < c.toNat ∧ c.toNat < 0x110000 := c.valid
  have hflush : readText.flush read none = read := rfl
  rcases escapeChar_cases c with ⟨e, heq, -, hu, he⟩ | ⟨heq, hunit⟩ |
    ⟨heq, hplain, hquote, hbackslash⟩ | ⟨heq, hhigh⟩
  · rw [heq, List.cons_append, List.singleton_append, readText, he]
    · simp only [hflush]
    · exact fun _ _ _ _ _ h _ => hu h
  · rw [heq, (readText_escapeUnit hunit read none rest).1 (by omega), hflush, Char.ofNat_toNat]
  · rw [heq, List.singleton_append, readText]
    · rw [if_neg (Nat.not_lt.2 hplain.1), hflush]
    · exact hquote
    · exact fun _ _ _ _ _ h _ => hbackslash h
    · exact fun _ _ h _ => hbackslash h
  · rw [heq, List.append_assoc, (readText_escapeUnit (by omega) read none _).2.1 (by omega),
      (readText_escapeUnit (by omega) _ _ rest).2.2 (by omega) _ rfl, hflush]
    have hnumber : 0x10000 + (0xD800 + (c.toNat - 0x10000) / 0x400 - 0xD800) * 0x400 +
        (0xDC00 + (c.toNat - 0x10000) % 0x400 - 0xDC00) = c.toNat := by omega
    rw [hnumber, Char.ofNat_toNat]

/-- The escape of a character is plain. -/
theorem isPlain_escapeChar (c : Char) : ∀ x ∈ escapeChar true c, IsPlain x := by
  have hbackslash : IsPlain '\\' := ⟨by decide, by decide⟩
  have hunit (n : ℕ) : ∀ x ∈ escapeUnit n, IsPlain x := by
    have hdigit (k : ℕ) : IsPlain (hexDigit (k % 16)) :=
      (hexDigit_spec (Nat.mod_lt k (by decide))).1
    rw [escapeUnit, hexDigits_four]
    simp only [List.forall_mem_cons, List.not_mem_nil, false_imp_iff, implies_true, and_true,
      hdigit]
    exact ⟨hbackslash, by decide, by decide⟩
  rcases escapeChar_cases c with ⟨e, heq, he, -⟩ | ⟨heq, -⟩ | ⟨heq, hplain, -⟩ | ⟨heq, -⟩
  · rw [heq]
    exact List.forall_mem_cons.2 ⟨hbackslash, List.forall_mem_singleton.2 he⟩
  · rw [heq]
    exact hunit _
  · rw [heq]
    exact List.forall_mem_singleton.2 hplain
  · rw [heq]
    exact List.forall_mem_append.2 ⟨hunit _, hunit _⟩

/-- **A text is read from between its quotes.** -/
theorem readText_escaped (cs read rest : List Char) :
    readText read none (cs.flatMap (escapeChar true) ++ '"' :: rest) =
      some (read.reverse ++ cs, rest) := by
  induction cs generalizing read with
  | nil =>
      rw [List.flatMap_nil, List.nil_append, readText, List.append_nil]
      rfl
  | cons c cs ih =>
      rw [List.flatMap_cons, List.append_assoc, readText_escapeChar, ih, List.reverse_cons,
        List.append_assoc]
      rfl

/-- A text between its quotes is plain. -/
theorem isPlain_writeText (s : String) : ∀ x ∈ writeText true s, IsPlain x := by
  have hquote : IsPlain '"' := ⟨by decide, by decide⟩
  intro x hx
  rw [writeText, List.cons_append, List.mem_cons, List.mem_append, List.mem_singleton,
    List.mem_flatMap] at hx
  rcases hx with rfl | ⟨c, -, hx⟩ | rfl
  · exact hquote
  · exact isPlain_escapeChar c x hx
  · exact hquote

/-! ### Values in order -/

/-- Whether a value is **well formed**: the fields of its objects have different names, and its
whole numbers have no more digits than a reader accepts. -/
inductive WellFormed : Json → Prop
  | null : WellFormed .null
  | bool (b : Bool) : WellFormed (.bool b)
  | whole {n : ℤ} (h : (digitsOf n.natAbs).length ≤ maxDigits) : WellFormed (.whole n)
  | real (x : Float) : WellFormed (.real x)
  | text (s : String) : WellFormed (.text s)
  | array {items : List Json} (h : ∀ item ∈ items, WellFormed item) : WellFormed (.array items)
  | object {fields : Fields} (hnames : fields.names.Nodup)
      (h : ∀ field ∈ fields, WellFormed field.2) : WellFormed (.object fields)

mutual

/-- The value with the fields of its objects **in the order of their names**. -/
def sorted : Json → Json
  | .array items => .array (sortedItems items)
  | .object fields => .object (sortOn (·.1) (sortedFields fields))
  | value => value

/-- The items of an array in order. -/
def sortedItems : List Json → List Json
  | [] => []
  | item :: rest => sorted item :: sortedItems rest

/-- The fields of an object with their values in order. -/
def sortedFields : List (String × Json) → List (String × Json)
  | [] => []
  | (name, value) :: rest => (name, sorted value) :: sortedFields rest

end

/-- The items are put in order one by one. -/
theorem sortedItems_eq (items : List Json) : sortedItems items = items.map sorted := by
  induction items with
  | nil => rw [sortedItems, List.map_nil]
  | cons item rest ih => rw [sortedItems, List.map_cons, ih]

/-- The values of fields are put in order one by one. -/
theorem sortedFields_eq (fields : Fields) :
    sortedFields fields = fields.map fun field => (field.1, sorted field.2) := by
  induction fields with
  | nil => rw [sortedFields, List.map_nil]
  | cons field rest ih => rw [sortedFields, List.map_cons, ih]

/-- What keeps the names can be done before or after sorting. -/
theorem sortOn_map {α β : Type} {f : α → β} {key : α → String} {key' : β → String}
    (h : ∀ x, key' (f x) = key x) (l : List α) :
    sortOn key' (l.map f) = (sortOn key l).map f := by
  have hinsert (x : α) (l : List α) :
      insertOn key' (f x) (l.map f) = (insertOn key x l).map f := by
    induction l with
    | nil => rfl
    | cons y rest ih =>
        rw [List.map_cons, insertOn, insertOn, h, h, ih]
        split <;> rfl
  induction l with
  | nil => rfl
  | cons x rest ih => rw [List.map_cons, sortOn, sortOn, ih, hinsert]

/-- The fields that are found are those that are there, if they have different names. -/
theorem Fields.get?_eq_some_iff {fields : Fields} (h : fields.names.Nodup) {name : String}
    {value : Json} : fields.get? name = some value ↔ (name, value) ∈ fields := by
  induction fields with
  | nil => simp [Fields.get?]
  | cons field rest ih =>
      obtain ⟨key, old⟩ := field
      obtain ⟨hkey, hrest⟩ := List.nodup_cons.1 h
      rw [Fields.get?] at ih ⊢
      by_cases heq : name = key
      · subst heq
        have hmem : (name, value) ∉ rest := fun hmem =>
          hkey (List.mem_map_of_mem (f := (·.1)) hmem)
        simp [hmem, eq_comm]
      · have hbeq : (name == key) = false := by simpa using heq
        rw [List.lookup_cons, hbeq, List.mem_cons, Prod.mk.injEq, ← ih hrest]
        simp [heq]

/-- **A value in order has the same fields**: each name leads to the value, in order, that it led
to. -/
theorem WellFormed.field?_sorted {v : Json} (h : v.WellFormed) (name : String) :
    v.sorted.field? name = (v.field? name).map sorted := by
  cases h with
  | null | bool | whole | real | text | array => simp [sorted, field?]
  | @object fields hnames _ =>
      have hperm := sortOn_perm (·.1) (fields.map fun field => (field.1, sorted field.2))
      have hmap : (fields.map fun field => (field.1, sorted field.2)).map (·.1) = fields.names := by
        rw [List.map_map]
        rfl
      have hsorted : (Fields.names (sortOn (·.1) _)).Nodup :=
        (hperm.map Prod.fst).nodup_iff.2 (hmap ▸ hnames)
      rw [sorted, sortedFields_eq, field?, field?]
      refine Option.ext fun value => ?_
      rw [Fields.get?_eq_some_iff hsorted, hperm.mem_iff, List.mem_map, Option.map_eq_some_iff]
      simp only [Fields.get?_eq_some_iff hnames]
      constructor
      · rintro ⟨⟨key, old⟩, hmem, heq⟩
        obtain ⟨rfl, rfl⟩ := Prod.mk.inj heq
        exact ⟨old, hmem, rfl⟩
      · rintro ⟨old, hmem, rfl⟩
        exact ⟨(name, old), hmem, rfl⟩

/-! ### Texts that read as values -/

/-- Whether a text **opens** an item: it begins neither with a blank nor with a closing bracket. -/
def Opens (cs : List Char) : Prop :=
  ∃ c more, cs = c :: more ∧ isSpace c = false ∧ c ≠ ']' ∧ c ≠ '\x7d'

/-- Whether a text **reads** as a value: it is plain, it opens an item, and in front of everything
that ends a value the reader takes it off and gives the value. -/
structure Reads (cs : List Char) (v : Json) : Prop where
  plain : ∀ c ∈ cs, IsPlain c
  opens : Opens cs
  value : ∀ fuel rest, Ends rest → 2 * cs.length ≤ fuel →
    readValue fuel (cs ++ rest) = .ok (v, rest)

/-- The end of the text ends a value. -/
theorem ends_nil : Ends [] := by
  intro c hc
  cases hc

/-- A comma ends a value. -/
theorem ends_comma (rest : List Char) : Ends (',' :: rest) := by
  rintro c ⟨⟩
  exact .inl rfl

/-- A closing bracket ends a value. -/
theorem ends_bracket (rest : List Char) : Ends (']' :: rest) := by
  rintro c ⟨⟩
  exact .inr (.inl rfl)

/-- A closing brace ends a value. -/
theorem ends_brace (rest : List Char) : Ends ('\x7d' :: rest) := by
  rintro c ⟨⟩
  exact .inr (.inr rfl)

/-- In front of a character that is no blank there is nothing to skip. -/
theorem skipSpace_cons {c : Char} (h : isSpace c = false) (cs : List Char) :
    skipSpace (c :: cs) = c :: cs := by
  rw [skipSpace, List.dropWhile_cons, h, if_neg Bool.false_ne_true]

/-- In front of a text that opens an item, a blank is skipped and nothing else. -/
theorem Opens.skipSpace {cs : List Char} (h : Opens cs) (rest : List Char) :
    skipSpace (cs ++ rest) = cs ++ rest ∧ Json.skipSpace (' ' :: (cs ++ rest)) = cs ++ rest := by
  obtain ⟨c, more, rfl, hc, -⟩ := h
  have hskip := skipSpace_cons hc (more ++ rest)
  exact ⟨hskip, hskip⟩

/-- Fuel for a text that is not empty is positive. -/
theorem exists_fuel {cs : List Char} (hne : cs ≠ []) {fuel : ℕ} (h : 2 * cs.length ≤ fuel) :
    ∃ less, fuel = less + 1 ∧ 2 * cs.length ≤ less + 1 := by
  have hpos : 0 < cs.length := List.length_pos_of_ne_nil hne
  exact ⟨fuel - 1, by omega, by omega⟩

/-! ### Words and numbers -/

/-- Whether a character may **begin** a word or a number: it is no blank, no bracket and no
quote. -/
def Begins (c : Char) : Prop :=
  isSpace c = false ∧ c ∉ ['"', '[', ']', '\x7b', '\x7d']

instance (c : Char) : Decidable (Begins c) :=
  inferInstanceAs (Decidable (_ ∧ _))

/-- A value that begins like a word or a number is one. -/
theorem readValue_scalar {c : Char} (h : Begins c) (fuel : ℕ) (rest : List Char) :
    (∀ value after, readWord? (c :: rest) = some (value, after) →
        readValue (fuel + 1) (c :: rest) = .ok (value, after)) ∧
      (readWord? (c :: rest) = none →
        readValue (fuel + 1) (c :: rest) = readNumber (c :: rest)) := by
  obtain ⟨-, hmem⟩ := h
  simp only [List.mem_cons, List.not_mem_nil, or_false, not_or] at hmem
  obtain ⟨hquote, hbracket, -, hbrace, -⟩ := hmem
  simp only [readValue, List.cons.injEq, hquote, hbracket, hbrace, false_and, false_imp_iff,
    implies_true]
  refine ⟨fun value after hword => ?_, fun hnone => ?_⟩
  · rw [hword]
  · rw [hnone]

/-- A word or a number reads as a value if the reader takes it for one. -/
theorem reads_scalar {c : Char} {more : List Char} {v : Json} (hplain : ∀ x ∈ c :: more, IsPlain x)
    (hbegins : Begins c)
    (hread : ∀ rest, Ends rest → readWord? (c :: (more ++ rest)) = some (v, rest) ∨
      readWord? (c :: (more ++ rest)) = none ∧
        readNumber (c :: (more ++ rest)) = .ok (v, rest)) :
    Reads (c :: more) v where
  plain := hplain
  opens := by
    obtain ⟨hspace, hmem⟩ := hbegins
    simp only [List.mem_cons, List.not_mem_nil, or_false, not_or] at hmem
    exact ⟨c, more, rfl, hspace, hmem.2.2.1, hmem.2.2.2.2⟩
  value fuel rest hrest hfuel := by
    obtain ⟨less, rfl, -⟩ := exists_fuel (List.cons_ne_nil c more) hfuel
    rw [List.cons_append]
    obtain ⟨hwords, hnumbers⟩ := readValue_scalar hbegins less (more ++ rest)
    rcases hread rest hrest with hword | ⟨hnone, hnumber⟩
    · exact hwords _ _ hword
    · rw [hnumbers hnone, hnumber]

/-- The words read as their values. -/
theorem reads_words :
    Reads ['n', 'u', 'l', 'l'] .null ∧ Reads ['t', 'r', 'u', 'e'] (.bool true) ∧
      Reads ['f', 'a', 'l', 's', 'e'] (.bool false) ∧
      Reads ['N', 'a', 'N'] (.real (Float.ofBits 0x7FF8000000000000)) ∧
      Reads ['I', 'n', 'f', 'i', 'n', 'i', 't', 'y'] (.real (Float.ofBits 0x7FF0000000000000)) ∧
      Reads ['-', 'I', 'n', 'f', 'i', 'n', 'i', 't', 'y']
        (.real (Float.ofBits 0xFFF0000000000000)) := by
  refine ⟨?_, ?_, ?_, ?_, ?_, ?_⟩
  all_goals
    exact reads_scalar (List.forall_iff_forall_mem.1 (by decide)) (by decide) fun rest _ => .inl rfl

/-- A word is not removed from a text that begins otherwise. -/
theorem word?_eq_none {word : String} {w c : Char} {ws : List Char} (hword : word.toList = w :: ws)
    (h : w ≠ c) (rest : List Char) : word? word (c :: rest) = none := by
  simp [word?, hword, h]

/-- A text begins with no word if it begins with the first letter of none. -/
theorem readWord?_eq_none {c : Char} (h : ∀ w ∈ ['n', 't', 'f', 'N', 'I'], w ≠ c)
    {rest : List Char} (hminus : word? "-Infinity" (c :: rest) = none) :
    readWord? (c :: rest) = none := by
  simp only [List.forall_mem_cons] at h
  obtain ⟨hnull, htrue, hfalse, hnan, hinfinity, -⟩ := h
  rw [readWord?, word?_eq_none rfl hnull, word?_eq_none rfl htrue, word?_eq_none rfl hfalse,
    word?_eq_none rfl hnan, word?_eq_none rfl hinfinity, hminus]
  rfl

/-- A digit begins a number, and neither a digit nor a minus and a digit begin a word. -/
theorem readWord?_digit {c : Char} (h : c.isDigit = true) (rest : List Char) :
    Begins c ∧ readWord? (c :: rest) = none ∧ readWord? ('-' :: c :: rest) = none := by
  have hne (x : Char) (hx : x.isDigit = false) : x ≠ c := by
    rintro rfl
    rw [hx] at h
    cases h
  have hminus : word? "-Infinity" ('-' :: c :: rest) = none := by
    have hword : "-Infinity".toList = '-' :: 'I' :: "nfinity".toList := rfl
    simp [word?, hword, hne 'I' rfl]
  refine ⟨⟨?_, ?_⟩, ?_, ?_⟩
  · simp [isSpace, (hne ' ' rfl).symm, (hne '\t' rfl).symm, (hne '\n' rfl).symm,
      (hne '\r' rfl).symm]
  · simp [(hne '"' rfl).symm, (hne '[' rfl).symm, (hne ']' rfl).symm, (hne '\x7b' rfl).symm,
      (hne '\x7d' rfl).symm]
  · have hletters : ∀ w ∈ ['n', 't', 'f', 'N', 'I'], w.isDigit = false :=
      List.forall_iff_forall_mem.1 (by decide)
    exact readWord?_eq_none (fun w hw => hne w (hletters w hw))
      (word?_eq_none rfl (hne '-' rfl) rest)
  · exact readWord?_eq_none (List.forall_iff_forall_mem.1 (by decide)) hminus

/-- A numeral behind a sign reads as a number if the reader of numbers takes it off. -/
theorem reads_numeral {n : Numeral} {negative : Bool} {v : Json}
    (hread : ∀ rest, Ends rest →
      readNumber (signText negative ++ (n.text ++ rest)) = .ok (v, rest)) :
    Reads (signText negative ++ n.text) v := by
  obtain ⟨c, more, hwhole⟩ := List.exists_cons_of_ne_nil n.whole_ne
  have hdigit : c.isDigit = true := n.whole_digits c (by rw [hwhole]; exact List.mem_cons_self)
  have htext : n.text = c :: (more ++ (n.fractionText ++ n.exponentText)) := by
    rw [Numeral.text, hwhole, List.cons_append]
  have hplain : ∀ x ∈ n.text, IsPlain x := fun x hx =>
    isPlain_of_isFigure (n.isFigure_of_mem_text x hx)
  obtain ⟨hbegins, -⟩ := readWord?_digit hdigit []
  rw [htext] at hread hplain ⊢
  cases negative with
  | false =>
      rw [signText, if_neg Bool.false_ne_true] at hread ⊢
      exact reads_scalar hplain hbegins fun rest hrest =>
        .inr ⟨(readWord?_digit hdigit _).2.1, hread rest hrest⟩
  | true =>
      rw [signText, if_pos rfl] at hread ⊢
      refine reads_scalar (List.forall_mem_cons.2 ⟨⟨by decide, by decide⟩, hplain⟩)
        (by decide +kernel) fun rest hrest => ?_
      exact .inr ⟨(readWord?_digit hdigit _).2.2, hread rest hrest⟩

/-- The text of a whole number reads as it, unless it has too many digits. -/
theorem reads_whole {n : ℤ} (hn : (digitsOf n.natAbs).length ≤ maxDigits) :
    Reads (Number.whole n).toList (.whole n) := by
  rw [toList_whole]
  refine reads_numeral fun rest hrest => ?_
  rw [← List.append_assoc, ← toList_whole, readNumber_whole hn hrest]

/-- The text of a real number reads as it. -/
theorem reads_real (x : Float) : Reads (realStandard x).toList (.real x) := by
  obtain ⟨-, -, -, hnan, hinfinity, hminus⟩ := reads_words
  rcases realStandard_cases x with ⟨htext, rfl⟩ | ⟨htext, rfl⟩ | ⟨htext, rfl⟩ | ⟨htext, hx⟩
  · rw [htext]
    exact hnan
  · rw [htext]
    exact hinfinity
  · rw [htext]
    exact hminus
  · obtain ⟨n, hnumeral, -, -⟩ := exists_numeral hx
    rw [htext]
    have hread (rest : List Char) (hrest : Ends rest) := readNumber_standard hx hrest
    rw [hnumeral, String.toList_ofList] at hread ⊢
    refine reads_numeral fun rest hrest => ?_
    rw [← List.append_assoc, hread rest hrest]

/-- A text between its quotes reads as the text. -/
theorem reads_text (s : String) : Reads (writeText true s) (.text s) where
  plain := isPlain_writeText s
  opens := ⟨'"', _, rfl, by decide, by decide, by decide⟩
  value fuel rest hrest hfuel := by
    obtain ⟨less, rfl, -⟩ := exists_fuel (List.cons_ne_nil _ _) hfuel
    rw [writeText, List.cons_append, List.cons_append, List.append_assoc, readValue]
    have hread := readText_escaped s.toList [] rest
    rw [List.singleton_append, hread]
    simp only [List.reverse_nil, List.nil_append, String.ofList_toList]

/-! ### Arrays and objects -/

/-- The texts of items or fields with commas between them. -/
def joined (texts : List (List Char)) : List Char :=
  [',', ' '].intercalate texts

/-- One text alone. -/
theorem joined_singleton (text : List Char) : joined [text] = text := by
  simp [joined, List.intercalate]

/-- One text in front of others. -/
theorem joined_cons_cons (text next : List Char) (more : List (List Char)) :
    joined (text :: next :: more) = text ++ ',' :: ' ' :: joined (next :: more) := by
  rw [joined, List.intercalate_cons_cons, List.append_assoc]
  rfl

/-- A record is written without line breaks. -/
theorem enclose_record (depth : ℕ) (first last : Char) (texts : List (List Char)) :
    Style.record.enclose depth first last texts = first :: (joined texts ++ [last]) := by
  rw [Style.enclose]
  cases texts with
  | nil => rfl
  | cons => rfl

/-- The texts of items are plain if each of them is. -/
theorem isPlain_joined {texts : List (List Char)} (h : ∀ text ∈ texts, ∀ c ∈ text, IsPlain c) :
    ∀ c ∈ joined texts, IsPlain c := by
  have hseparator : ∀ c ∈ [',', ' '], IsPlain c := List.forall_iff_forall_mem.1 (by decide)
  induction texts with
  | nil => intro c hc; cases hc
  | cons text more ih =>
      have hmore := ih fun t ht => h t (List.mem_cons_of_mem _ ht)
      cases more with
      | nil =>
          rw [joined_singleton]
          exact h text List.mem_cons_self
      | cons next more =>
          rw [joined_cons_cons]
          intro c hc
          rcases List.mem_append.1 hc with hc | hc
          · exact h text List.mem_cons_self c hc
          rcases List.mem_append.1 (show c ∈ [',', ' '] ++ _ from hc) with hc | hc
          · exact hseparator c hc
          · exact hmore c hc

/-- The joined texts begin like the first of them. -/
theorem Opens.joined {text : List Char} (h : Opens text) (more : List (List Char)) :
    Opens (joined (text :: more)) := by
  obtain ⟨c, cs, rfl, hc⟩ := h
  cases more with
  | nil => exact ⟨c, cs, joined_singleton _, hc⟩
  | cons next more => exact ⟨c, _, joined_cons_cons _ next more, hc⟩

section Parts

variable {ι : Type} {text : ι → List Char}

/-- **The items of an array are read one after the other.** -/
theorem readItems_joined {value : ι → Json} {l : List ι} (h : ∀ i ∈ l, Reads (text i) (value i))
    (hne : l ≠ []) : ∀ fuel rest, 2 * (joined (l.map text)).length + 2 ≤ fuel →
      readItems fuel (joined (l.map text) ++ ']' :: rest) = .ok (l.map value, rest) := by
  induction l with
  | nil => exact absurd rfl hne
  | cons i l ih =>
      obtain ⟨hi, hl⟩ := List.forall_mem_cons.1 h
      intro fuel rest hfuel
      obtain ⟨fuel, rfl⟩ : ∃ less, fuel = less + 1 := ⟨fuel - 1, by omega⟩
      rw [List.map_cons] at hfuel ⊢
      cases l with
      | nil =>
          rw [List.map_nil, joined_singleton] at hfuel ⊢
          rw [readItems, hi.value fuel _ (ends_bracket rest) (by omega)]
          rfl
      | cons j l =>
          have hj := hl j List.mem_cons_self
          rw [List.map_cons, joined_cons_cons, List.length_append, List.length_cons,
            List.length_cons] at hfuel
          have hrest := ih hl (List.cons_ne_nil _ _) fuel rest (by rw [List.map_cons]; omega)
          rw [List.map_cons] at hrest
          rw [List.map_cons, joined_cons_cons, List.append_assoc, readItems, List.cons_append,
            List.cons_append, hi.value fuel _ (ends_comma _) (by omega)]
          simp only [bind, Except.bind]
          rw [skipSpace_cons (by decide)]
          simp only
          rw [((hj.opens.joined _).skipSpace _).2, hrest]
          rfl

/-- **An array is read** if its items are. -/
theorem Reads.array {value : ι → Json} {l : List ι} (h : ∀ i ∈ l, Reads (text i) (value i)) :
    Reads ('[' :: (joined (l.map text) ++ [']'])) (.array (l.map value)) where
  plain := by
    refine List.forall_mem_cons.2 ⟨⟨by decide, by decide⟩, List.forall_mem_append.2 ⟨?_, ?_⟩⟩
    · exact isPlain_joined (List.forall_mem_map.2 fun i hi => (h i hi).plain)
    · exact List.forall_iff_forall_mem.1 (by decide)
  opens := ⟨'[', _, rfl, by decide, by decide, by decide⟩
  value fuel rest hrest hfuel := by
    obtain ⟨fuel, rfl, hfuel⟩ := exists_fuel (List.cons_ne_nil _ _) hfuel
    rw [List.length_cons, List.length_append, List.length_singleton] at hfuel
    rw [List.cons_append, List.append_assoc, List.singleton_append, readValue]
    cases l with
    | nil => rfl
    | cons i l =>
        have hopens := (h i List.mem_cons_self).opens.joined (l.map text)
        have hitems := readItems_joined h (List.cons_ne_nil _ _) fuel rest (by omega)
        rw [List.map_cons] at hitems ⊢
        rw [(hopens.skipSpace _).1]
        obtain ⟨c, cs, hc, -, hbracket, -⟩ := hopens
        rw [hc, List.cons_append] at hitems ⊢
        split
        · rename_i heq
          exact absurd (List.cons.inj heq).1 hbracket
        · rw [hitems]
          rfl

/-! ### Objects -/

/-- The text of a field. -/
def fieldText (name : String) (value : List Char) : List Char :=
  writeText true name ++ ':' :: ' ' :: value

/-- The text of a field opens an item. -/
theorem opens_fieldText (name : String) (value : List Char) : Opens (fieldText name value) :=
  ⟨'"', _, rfl, by decide, by decide, by decide⟩

/-- The value of a field is a part of its text. -/
theorem length_le_fieldText (name : String) (value : List Char) :
    value.length ≤ (fieldText name value).length := by
  rw [fieldText, List.length_append, List.length_cons, List.length_cons]
  omega

/-- A field with a new name is set at the end. -/
theorem Fields.set_of_not_mem {name : String} (value : Json) {fields : Fields}
    (h : name ∉ fields.names) : fields.set name value = fields ++ [(name, value)] := by
  induction fields with
  | nil => rfl
  | cons field rest ih =>
      rw [Fields.names, List.map_cons, List.mem_cons, not_or] at h
      rw [Fields.set, if_neg (Ne.symm h.1), ih h.2]
      rfl

/-- A field is read, and what follows it decides how the reader goes on. -/
theorem readFields_fieldText {cs : List Char} {v : Json} (h : Reads cs v) (name : String)
    {before : Fields} (hname : name ∉ before.names) {fuel : ℕ} {rest : List Char}
    (hrest : Ends rest) (hfuel : 2 * cs.length ≤ fuel) :
    readFields (fuel + 1) before (fieldText name cs ++ rest) =
      match skipSpace rest with
      | '\x7d' :: rest => .ok (before ++ [(name, v)], rest)
      | ',' :: rest => readFields fuel (before ++ [(name, v)]) (skipSpace rest)
      | _ => .error .malformed := by
  have hread := readText_escaped name.toList [] (':' :: ' ' :: (cs ++ rest))
  rw [fieldText, writeText, List.append_assoc, List.cons_append, List.cons_append,
    List.append_assoc, readFields, List.singleton_append, List.cons_append, List.cons_append, hread]
  simp only [List.reverse_nil, List.nil_append, String.ofList_toList]
  rw [skipSpace_cons (by decide)]
  simp only [(h.opens.skipSpace rest).2, h.value fuel rest hrest hfuel, bind, Except.bind,
    Fields.set_of_not_mem v hname]
  rfl

/-- **The fields of an object are read one after the other**, behind those before. -/
theorem readFields_joined {name : ι → String} {value : ι → Json} {l : List ι}
    (h : ∀ i ∈ l, Reads (text i) (value i)) (hne : l ≠ []) :
    ∀ before fuel rest, (Fields.names before ++ l.map name).Nodup →
      2 * (joined (l.map fun i => fieldText (name i) (text i))).length + 2 ≤ fuel →
      readFields fuel before
          (joined (l.map fun i => fieldText (name i) (text i)) ++ '\x7d' :: rest) =
        .ok (before ++ l.map fun i => (name i, value i), rest) := by
  induction l with
  | nil => exact absurd rfl hne
  | cons i l ih =>
      obtain ⟨hi, hl⟩ := List.forall_mem_cons.1 h
      intro before fuel rest hnodup hfuel
      obtain ⟨fuel, rfl⟩ : ∃ less, fuel = less + 1 := ⟨fuel - 1, by omega⟩
      have hname : name i ∉ before.names := fun hmem =>
        (List.nodup_append.1 hnodup).2.2 _ hmem _ List.mem_cons_self rfl
      have hlength := length_le_fieldText (name i) (text i)
      rw [List.map_cons] at hfuel ⊢
      cases l with
      | nil =>
          rw [List.map_nil, joined_singleton] at hfuel ⊢
          rw [readFields_fieldText hi _ hname (ends_brace rest) (by omega),
            skipSpace_cons (by decide)]
          rfl
      | cons j l =>
          have hopens := (opens_fieldText (name j) (text j)).joined
            (l.map fun i => fieldText (name i) (text i))
          have hassoc : (before ++ [(name i, value i)]).names ++ (j :: l).map name =
              before.names ++ (i :: j :: l).map name := by
            rw [Fields.names, List.map_append, List.append_assoc]
            rfl
          rw [List.map_cons, joined_cons_cons, List.length_append, List.length_cons,
            List.length_cons] at hfuel
          have hrest := ih hl (List.cons_ne_nil _ _) (before ++ [(name i, value i)]) fuel rest
            (by rw [hassoc]; exact hnodup) (by rw [List.map_cons]; omega)
          rw [List.map_cons] at hrest
          rw [List.map_cons, joined_cons_cons, List.append_assoc, List.cons_append,
            List.cons_append, readFields_fieldText hi _ hname (ends_comma _) (by omega),
            skipSpace_cons (by decide)]
          simp only [(hopens.skipSpace _).2, hrest, List.append_assoc]
          rfl

/-- **An object is read** if its values are and its fields have different names. -/
theorem Reads.object {name : ι → String} {value : ι → Json} {l : List ι}
    (h : ∀ i ∈ l, Reads (text i) (value i)) (hnames : (l.map name).Nodup) :
    Reads ('\x7b' :: (joined (l.map fun i => fieldText (name i) (text i)) ++ ['\x7d']))
      (.object (l.map fun i => (name i, value i))) where
  plain := by
    refine List.forall_mem_cons.2 ⟨⟨by decide, by decide⟩, List.forall_mem_append.2 ⟨?_, ?_⟩⟩
    · refine isPlain_joined (List.forall_mem_map.2 fun i hi => List.forall_mem_append.2 ⟨?_, ?_⟩)
      · exact isPlain_writeText (name i)
      · exact List.forall_mem_cons.2 ⟨⟨by decide, by decide⟩,
          List.forall_mem_cons.2 ⟨⟨by decide, by decide⟩, (h i hi).plain⟩⟩
    · exact List.forall_iff_forall_mem.1 (by decide)
  opens := ⟨'\x7b', _, rfl, by decide, by decide, by decide⟩
  value fuel rest hrest hfuel := by
    obtain ⟨fuel, rfl, hfuel⟩ := exists_fuel (List.cons_ne_nil _ _) hfuel
    rw [List.length_cons, List.length_append, List.length_singleton] at hfuel
    rw [List.cons_append, List.append_assoc, List.singleton_append, readValue]
    cases l with
    | nil => rfl
    | cons i l =>
        have hopens := (opens_fieldText (name i) (text i)).joined
          (l.map fun i => fieldText (name i) (text i))
        have hfields := readFields_joined h (List.cons_ne_nil _ _) [] fuel rest hnames (by omega)
        rw [List.map_cons] at hfields ⊢
        rw [(hopens.skipSpace _).1]
        obtain ⟨c, cs, hc, -, -, hbrace⟩ := hopens
        rw [hc, List.cons_append] at hfields ⊢
        split
        · rename_i heq
          exact absurd (List.cons.inj heq).1 hbrace
        · rw [hfields]
          rfl

end Parts

/-! ### Records -/

/-- The items of an array are written one by one. -/
theorem writeItems_eq (style : Style) (depth : ℕ) (items : List Json) :
    style.writeItems depth items = items.map (style.write depth) := by
  induction items with
  | nil => rw [Style.writeItems, List.map_nil]
  | cons item rest ih => rw [Style.writeItems, List.map_cons, ih]

/-- The fields of an object are written one by one. -/
theorem writeFields_eq (depth : ℕ) (fields : Fields) :
    Style.record.writeFields depth fields =
      fields.map fun field => (field.1, fieldText field.1 (Style.record.write depth field.2)) := by
  induction fields with
  | nil => rw [Style.writeFields, List.map_nil]
  | cons field rest ih =>
      rw [Style.writeFields, List.map_cons, ih]
      rfl

/-- **The text of a well formed value reads as the value**, with the fields of its objects in
order. -/
theorem WellFormed.reads {v : Json} (h : v.WellFormed) (depth : ℕ) :
    Reads (Style.record.write depth v) v.sorted := by
  obtain ⟨hnull, htrue, hfalse, -⟩ := reads_words
  induction h generalizing depth with
  | null => simpa only [Style.write, sorted] using hnull
  | bool b => cases b with
    | true => simpa only [Style.write, sorted] using htrue
    | false => simpa only [Style.write, sorted] using hfalse
  | whole hn => simpa only [Style.write, sorted] using reads_whole hn
  | real x => simpa only [Style.write, Style.record, sorted] using reads_real x
  | text s => simpa only [Style.write, Style.record, sorted] using reads_text s
  | array _ ih =>
      rw [Style.write, sorted, enclose_record, writeItems_eq, sortedItems_eq]
      exact Reads.array fun item hitem => ih item hitem (depth + 1)
  | @object fields hnames _ ih =>
      have hperm := sortOn_perm (·.1) fields
      have hnodup : ((sortOn (·.1) fields).map (·.1)).Nodup := (hperm.map _).nodup_iff.2 hnames
      -- names are kept by writing and by putting values in order, so sorting may come first
      have hsorted : Style.record.sorted = true := rfl
      have htexts : (sortOn (·.1) (Style.record.writeFields (depth + 1) fields)).map (·.2) =
          (sortOn (·.1) fields).map fun field =>
            fieldText field.1 (Style.record.write (depth + 1) field.2) := by
        rw [writeFields_eq, sortOn_map fun _ => rfl, List.map_map]
        rfl
      rw [Style.write, sorted, enclose_record, sortedFields_eq, sortOn_map fun _ => rfl,
        if_pos hsorted, htexts]
      exact Reads.object (fun field hfield => ih field (hperm.mem_iff.1 hfield) (depth + 1)) hnodup

/-- **A record is read back**: one line of plain characters, which reads as the value with the
fields of its objects in order. -/
theorem read_toRecord {v : Json} (h : v.WellFormed) :
    (∀ c ∈ v.toRecord, IsPlain c) ∧ Json.read v.toRecord = .ok v.sorted := by
  have hreads := h.reads 0
  have hskip := (hreads.opens.skipSpace []).1
  have hvalue := hreads.value (2 * (Style.record.write 0 v).length + 2) [] ends_nil (by omega)
  rw [List.append_nil] at hskip hvalue
  refine ⟨hreads.plain, ?_⟩
  rw [toRecord, Json.read, hskip, hvalue]
  rfl

end Formulary.Json
