import Formulary.Formula.Basic
import Formulary.Proofs.Numerals
import Formulary.Token.Lexer

/-!
# What the Lexer Emits

The lexer decides about a token by looking ahead from its first character. This module restates
that decision as the relation `Lexeme`, one constructor for each kind of token, and derives from
it what the tokens of a text look like and how a text is split when its pieces are known.

## Conventions

`Lexeme c rest kind n` says that in front of `rest` the character `c` starts a token of the class
`kind` with `n` more characters.

A **piece** of text is split off in front of a continuation (`Splits`). That takes a continuation
which cannot prolong the piece: a name, a number or a function word has to be stopped (`Stops`).

## Main results

* `lexeme?_iff`: the relation is the decision of the lexer.
* `exists_lexeme_of_mem_scan`: every token of a text is the slice of some lexeme.
* `splits_symbol`, `splits_word`, `splits_name`, `splits_number`: how the text of each kind of
  token is split off.
* `isName_iff`: the names are the texts that are one token and no number.
-/

namespace Formulary.Token

open Text

/-! ### Lexemes -/

/-- The characters that are tokens on their own, with their classes. The exclamation mark is not
among them, since it may start a comparison. -/
def symbols : List (Char × TokenClass) :=
  [('=', .comparison), ('>', .comparison), ('<', .comparison), ('+', .additive), ('-', .additive),
   ('*', .multiplicative), ('/', .multiplicative), ('%', .multiplicative), ('^', .power),
   ('(', .structural), (')', .structural), (',', .structural)]

/-- The **lexemes**: what may start with a character, depending on the characters behind it. -/
inductive Lexeme : Char → List Char → TokenClass → ℕ → Prop
  | word {c : Char} {rest : List Char} (hc : isLetter c = true)
      (hw : isFunctionWord (c :: rest.takeWhile isLetter) = true) :
      Lexeme c rest .function (rest.takeWhile isLetter).length
  | name {c : Char} {rest : List Char} (hc : isLetter c = true)
      (hw : isFunctionWord (c :: rest.takeWhile isLetter) = false) :
      Lexeme c rest .operand (rest.takeWhile isAlphanumeric).length
  | number {c : Char} {rest : List Char} (hc : isDecimalDigit c = true) :
      Lexeme c rest .operand (numberTail rest)
  | fraction {rest : List Char} (h : rest.takeWhile isDecimalDigit ≠ []) :
      Lexeme '.' rest .operand (rest.takeWhile isDecimalDigit).length
  | unequal {rest : List Char} (h : rest.head? = some '=') : Lexeme '!' rest .comparison 1
  | factorial {rest : List Char} (h : rest.head? ≠ some '=') : Lexeme '!' rest .function 0
  | symbol {c : Char} {rest : List Char} {kind : TokenClass} (h : (c, kind) ∈ symbols) :
      Lexeme c rest kind 0

/-- A digit is no letter. -/
theorem isLetter_of_isDecimalDigit {c : Char} (h : isDecimalDigit c = true) :
    isLetter c = false := by
  simp [isLetter, h]

/-- A symbol is neither a letter nor a digit. -/
theorem not_letter_of_mem_symbols {c : Char} {kind : TokenClass} (h : (c, kind) ∈ symbols) :
    isLetter c = false ∧ isDecimalDigit c = false := by
  have hall : ∀ p ∈ symbols, isLetter p.1 = false ∧ isDecimalDigit p.1 = false := by
    decide +kernel
  exact hall _ h

/-- The point and the exclamation mark are no letters. -/
theorem not_letter_of_mark : isLetter '.' = false ∧ isLetter '!' = false ∧
    isDecimalDigit '!' = false := by
  decide +kernel

/-- What the lexer decides is a lexeme. -/
theorem Lexeme.of_lexeme? {c : Char} {rest : List Char} {kind : TokenClass} {n : ℕ}
    (h : lexeme? c rest = some (kind, n)) : Lexeme c rest kind n := by
  simp only [lexeme?] at h
  split at h
  · rename_i hc
    split at h
    · cases h; exact .word hc ‹_›
    · cases h; exact .name hc (Bool.eq_false_iff.2 ‹_›)
  split at h
  · cases h; exact .number ‹_›
  split at h
  · rename_i hpoint
    subst hpoint
    split at h
    · cases h
    · rename_i hfraction
      cases h
      exact .fraction (by simpa using hfraction)
  split at h
  · rename_i hmark
    subst hmark
    split at h
    · cases h; exact .unequal ‹_›
    · cases h; exact .factorial ‹_›
  split at h
  · rename_i hc
    cases h
    exact .symbol (by rcases hc with rfl | rfl | rfl <;> decide)
  split at h
  · rename_i hc
    cases h
    exact .symbol (by rcases hc with rfl | rfl <;> decide)
  split at h
  · rename_i hc
    cases h
    exact .symbol (by rcases hc with rfl | rfl | rfl <;> decide)
  split at h
  · rename_i hc
    cases h
    exact .symbol (by rw [hc]; decide)
  split at h
  · rename_i hc
    cases h
    exact .symbol (by rcases hc with rfl | rfl | rfl <;> decide)
  · cases h

/-- Every lexeme is what the lexer decides. -/
theorem Lexeme.lexeme?_eq {c : Char} {rest : List Char} {kind : TokenClass} {n : ℕ}
    (h : Lexeme c rest kind n) : lexeme? c rest = some (kind, n) := by
  obtain ⟨hpoint, hmark, hmarkDigit⟩ := not_letter_of_mark
  cases h with
  | word hc hw => simp [lexeme?, hc, hw]
  | name hc hw => simp [lexeme?, hc, hw]
  | number hc => simp [lexeme?, isLetter_of_isDecimalDigit hc, hc]
  | fraction h => simp [lexeme?, hpoint, isDecimalDigit_point, h]
  | unequal h => simp [lexeme?, hmark, hmarkDigit, h]
  | factorial h => simp [lexeme?, hmark, hmarkDigit, h]
  | symbol h =>
      obtain ⟨hletter, hdigit⟩ := not_letter_of_mem_symbols h
      rw [lexeme?, if_neg (by simp [hletter]), if_neg (by simp [hdigit])]
      simp only [symbols, List.mem_cons, Prod.mk.injEq, List.not_mem_nil, or_false] at h
      rcases h with ⟨rfl, rfl⟩ | ⟨rfl, rfl⟩ | ⟨rfl, rfl⟩ | ⟨rfl, rfl⟩ | ⟨rfl, rfl⟩ | ⟨rfl, rfl⟩ |
        ⟨rfl, rfl⟩ | ⟨rfl, rfl⟩ | ⟨rfl, rfl⟩ | ⟨rfl, rfl⟩ | ⟨rfl, rfl⟩ | ⟨rfl, rfl⟩ <;> rfl

/-- The lexemes are exactly the decisions of the lexer. -/
theorem lexeme?_iff {c : Char} {rest : List Char} {kind : TokenClass} {n : ℕ} :
    lexeme? c rest = some (kind, n) ↔ Lexeme c rest kind n :=
  ⟨.of_lexeme?, Lexeme.lexeme?_eq⟩

/-- The rest of a number is part of the text. -/
theorem numberTail_le (rest : List Char) : numberTail rest ≤ rest.length := by
  have hsplit := List.takeWhile_append_dropWhile (p := isDecimalDigit) (l := rest)
  have hlen := congrArg List.length hsplit
  rw [List.length_append] at hlen
  rw [numberTail]
  split
  · rename_i fraction hdrop
    have hfraction := (List.takeWhile_prefix isDecimalDigit (l := fraction)).length_le
    rw [hdrop, List.length_cons] at hlen
    omega
  · omega

/-- A lexeme is part of the text. -/
theorem Lexeme.length_le {c : Char} {rest : List Char} {kind : TokenClass} {n : ℕ}
    (h : Lexeme c rest kind n) : n ≤ rest.length := by
  cases h with
  | word | name | fraction => exact (List.takeWhile_prefix _).length_le
  | number => exact numberTail_le rest
  | unequal h =>
      cases rest with
      | nil => cases h
      | cons => simp
  | factorial | symbol => exact Nat.zero_le _

/-- A character of a class without blanks is not ignored. -/
theorem not_isIgnored_of {p : Char → Bool}
    (hblank : [' ', '\t', '\n', '\r', '\x0c'].all (!p ·) = true) {c : Char} (h : p c = true) :
    isIgnored c = false := by
  rw [Bool.eq_false_iff]
  intro hc
  have hp := List.all_eq_true.1 hblank c (by simpa [isIgnored, or_assoc] using hc)
  rw [h] at hp
  cases hp

/-- A letter or digit is not ignored. -/
theorem not_isIgnored_of_isAlphanumeric {c : Char} (h : isAlphanumeric c = true) :
    isIgnored c = false :=
  not_isIgnored_of (p := isAlphanumeric) (by decide +kernel) h

/-- A character of a number is not ignored. -/
theorem not_isIgnored_of_isNumeric {c : Char} (h : Number.IsNumeric c) : isIgnored c = false := by
  rcases h with h | rfl
  · exact not_isIgnored_of (p := isDecimalDigit) (by decide +kernel) h
  · decide

/-- A symbol is not ignored. -/
theorem not_isIgnored_of_mem_symbols {c : Char} {kind : TokenClass} (h : (c, kind) ∈ symbols) :
    isIgnored c = false := by
  have hall : ∀ p ∈ symbols, isIgnored p.1 = false := by decide
  exact hall _ h

/-- No lexeme starts with a character that is ignored. -/
theorem Lexeme.not_isIgnored {c : Char} {rest : List Char} {kind : TokenClass} {n : ℕ}
    (h : Lexeme c rest kind n) : isIgnored c = false := by
  cases h with
  | word hc => exact not_isIgnored_of_isAlphanumeric (isAlphanumeric_of_isLetter hc)
  | name hc => exact not_isIgnored_of_isAlphanumeric (isAlphanumeric_of_isLetter hc)
  | number hc => exact not_isIgnored_of_isNumeric (.inl hc)
  | fraction => exact not_isIgnored_of_isNumeric (.inr rfl)
  | unequal => decide
  | factorial => decide
  | symbol h => exact not_isIgnored_of_mem_symbols h

/-- A lexeme becomes the first token. -/
theorem Lexeme.scan_cons {c : Char} {rest : List Char} {kind : TokenClass} {n : ℕ}
    (h : Lexeme c rest kind n) (column : ℕ) :
    scan column (c :: rest) =
      (scan (column + 1 + n) (rest.drop n)).map
        (ofLexeme kind (c :: rest.take n) column :: ·) :=
  scan_cons_lexeme h.not_isIgnored h.lexeme?_eq

/-- Every token of a text is the slice of a lexeme. -/
theorem exists_lexeme_of_mem_scan {column : ℕ} {cs : List Char} {ts : List Token}
    (h : scan column cs = .ok ts) :
    ∀ t ∈ ts, ∃ c rest kind n column, Lexeme c rest kind n ∧
      t = ofLexeme kind (c :: rest.take n) column ∧ ∀ x ∈ c :: rest.take n, x ∈ cs := by
  fun_induction scan column cs generalizing ts with
  | case1 => cases h; simp
  | case2 column c rest _ ih =>
      intro t ht
      obtain ⟨c', rest', kind, n, column', hl, htoken, hsub⟩ := ih h t ht
      refine ⟨c', rest', kind, n, column', hl, htoken, ?_⟩
      intro x hx
      exact List.mem_cons_of_mem c (hsub x hx)
  | case3 => cases h
  | case4 column c rest _ kind n hl ih =>
      cases hs : scan (column + 1 + n) (rest.drop n) with
      | error fault => rw [hs] at h; cases h
      | ok us =>
          rw [hs] at h
          cases h
          intro t ht
          rcases List.mem_cons.1 ht with rfl | ht
          · refine ⟨c, rest, kind, n, column, .of_lexeme? hl, rfl, fun x hx => ?_⟩
            rcases List.mem_cons.1 hx with rfl | hx
            · exact List.mem_cons_self
            · exact List.mem_cons_of_mem c (List.mem_of_mem_take hx)
          · obtain ⟨c', rest', kind, n, column', hl, htoken, hsub⟩ := ih hs t ht
            refine ⟨c', rest', kind, n, column', hl, htoken, fun x hx => ?_⟩
            exact List.mem_cons_of_mem c (List.mem_of_mem_drop (hsub x hx))

/-- The tokens of a text are those that the lexer scans, and there is at least one. -/
theorem ofText_eq_ok_iff {text : String} {ts : List Token} :
    ofText text = .ok ts ↔ scan 1 text.toList = .ok ts ∧ ts ≠ [] := by
  simp only [ofText, bind, Except.bind]
  constructor
  · intro h
    cases hs : scan 1 text.toList with
    | error fault => rw [hs] at h; cases h
    | ok us =>
        simp only [hs] at h
        split at h
        · cases h
        · rename_i hne
          cases h
          exact ⟨rfl, by simpa using hne⟩
  · rintro ⟨h, hne⟩
    simp only [h]
    rw [if_neg (by simpa using hne)]
    rfl

/-! ### Pieces of text -/

/-- Whether a piece of text **splits** into tokens in front of a continuation: whatever tokens the
continuation has, those of the piece come in front of them. -/
def Splits (column : ℕ) (cs rest : List Char) (ts : List Token) (next : ℕ) : Prop :=
  ∀ us, scan next rest = .ok us → scan column (cs ++ rest) = .ok (ts ++ us)

/-- A piece that the text ends with is all there is. -/
theorem Splits.scan_eq {column next : ℕ} {cs : List Char} {ts : List Token}
    (h : Splits column cs [] ts next) : scan column cs = .ok ts := by
  have hscan := h [] (by rw [scan])
  rwa [List.append_nil, List.append_nil] at hscan

/-- Pieces that follow each other split one after the other. -/
theorem Splits.append {column middle next : ℕ} {cs ds rest : List Char} {ts us : List Token}
    (h : Splits column cs (ds ++ rest) ts middle) (h' : Splits middle ds rest us next) :
    Splits column (cs ++ ds) rest (ts ++ us) next := by
  intro vs hvs
  rw [List.append_assoc, List.append_assoc]
  exact h _ (h' vs hvs)

/-- A lexeme that ends where the continuation starts splits off one token. -/
theorem Lexeme.splits {c : Char} {cs rest : List Char} {kind : TokenClass}
    (h : Lexeme c (cs ++ rest) kind cs.length) (column : ℕ) :
    Splits column (c :: cs) rest [ofLexeme kind (c :: cs) column] (column + 1 + cs.length) := by
  intro us hus
  rw [List.cons_append, h.scan_cons, List.drop_left, List.take_left, hus]
  rfl

/-- Whether a continuation cannot prolong a name, a number or a function. -/
def Stops (rest : List Char) : Prop :=
  ∀ c ∈ rest.head?, isAlphanumeric c = false ∧ isDecimalDigit c = false ∧ c ≠ '.'

/-- The end of the text stops a piece. -/
theorem stops_nil : Stops [] := by
  intro c hc
  cases hc

/-- What stops a piece is no letter. -/
theorem Stops.not_isLetter {rest : List Char} (h : Stops rest) :
    ∀ c ∈ rest.head?, isLetter c = false := by
  intro c hc
  rw [isLetter, (h c hc).1, Bool.false_and]

/-- A symbol or an exclamation mark stops a piece. -/
theorem stops_cons {c : Char} (h : c = '!' ∨ ∃ kind, (c, kind) ∈ symbols) (rest : List Char) :
    Stops (c :: rest) := by
  have hall : ('!' :: symbols.map Prod.fst).all
      (fun c => !isAlphanumeric c && !isDecimalDigit c && c != '.') = true := by
    decide +kernel
  have hmem : c ∈ '!' :: symbols.map Prod.fst := by
    rcases h with rfl | ⟨kind, h⟩
    · exact List.mem_cons_self
    · exact List.mem_cons_of_mem _ (List.mem_map_of_mem h)
  have hc := List.all_eq_true.1 hall c hmem
  simp only [Bool.and_eq_true, Bool.not_eq_true', bne_iff_ne, and_assoc] at hc
  rintro c' ⟨⟩
  exact hc

/-- An opening parenthesis stops a piece. -/
theorem stops_opening (rest : List Char) : Stops ('(' :: rest) :=
  stops_cons (.inr ⟨.structural, by decide⟩) rest

/-- A closing parenthesis stops a piece. -/
theorem stops_closing (rest : List Char) : Stops (')' :: rest) :=
  stops_cons (.inr ⟨.structural, by decide⟩) rest

/-- A comma stops a piece. -/
theorem stops_comma (rest : List Char) : Stops (',' :: rest) :=
  stops_cons (.inr ⟨.structural, by decide⟩) rest

/-- A symbol is a token of its own. -/
theorem splits_symbol {c : Char} {kind : TokenClass} (h : (c, kind) ∈ symbols) (column : ℕ)
    (rest : List Char) :
    Splits column [c] rest [⟨String.ofList [c], kind, some column⟩] (column + 1) := by
  have hkind : ∀ p ∈ symbols, p.2 ≠ .function := by decide
  have hl : Lexeme c ([] ++ rest) kind ([] : List Char).length := .symbol h
  have hsplits := hl.splits column
  rw [ofLexeme, if_neg (hkind _ h)] at hsplits
  exact hsplits

/-- A minus between values. -/
theorem splits_minus (column : ℕ) (rest : List Char) :
    Splits column ['-'] rest [⟨"-", .additive, some column⟩] (column + 1) :=
  splits_symbol (by decide) column rest

/-- An opening parenthesis. -/
theorem splits_opening (column : ℕ) (rest : List Char) :
    Splits column ['('] rest [⟨"(", .structural, some column⟩] (column + 1) :=
  splits_symbol (by decide) column rest

/-- A closing parenthesis. -/
theorem splits_closing (column : ℕ) (rest : List Char) :
    Splits column [')'] rest [⟨")", .structural, some column⟩] (column + 1) :=
  splits_symbol (by decide) column rest

/-- A comma. -/
theorem splits_comma (column : ℕ) (rest : List Char) :
    Splits column [','] rest [⟨",", .structural, some column⟩] (column + 1) :=
  splits_symbol (by decide) column rest

/-- The two characters that compare for inequality are one token. -/
theorem splits_unequal (column : ℕ) (rest : List Char) :
    Splits column ['!', '='] rest [⟨"!=", .comparison, some column⟩] (column + 2) := by
  have hl : Lexeme '!' (['='] ++ rest) .comparison ['='].length := .unequal rfl
  exact hl.splits column

/-- An exclamation mark is a function of its own if no equality sign follows. -/
theorem splits_factorial {rest : List Char} (h : rest.head? ≠ some '=') (column : ℕ) :
    Splits column ['!'] rest [⟨"!", .function, some column⟩] (column + 1) := by
  have hl : Lexeme '!' ([] ++ rest) .function ([] : List Char).length := .factorial h
  exact hl.splits column

/-- Letters that spell a function are a lexeme in front of anything but a letter. -/
theorem lexeme_of_isFunctionWord {c : Char} {cs rest : List Char}
    (hletters : ∀ x ∈ c :: cs, isLetter x = true) (hw : isFunctionWord (c :: cs) = true)
    (hrest : ∀ x ∈ rest.head?, isLetter x = false) : Lexeme c (cs ++ rest) .function cs.length := by
  have hrun : (cs ++ rest).takeWhile isLetter = cs :=
    (takeWhile_append_of_head (fun x hx => hletters x (List.mem_cons_of_mem c hx)) hrest).1
  have hword : Lexeme c (cs ++ rest) .function _ :=
    .word (hletters c List.mem_cons_self) (by rw [hrun, hw])
  rwa [hrun] at hword

/-- A function word is a token of its own if it is stopped. -/
theorem splits_word {word : String} (h : word ∈ functionWords) {rest : List Char}
    (hrest : Stops rest) (column : ℕ) :
    ∃ next, Splits column word.toList rest [⟨word, .function, some column⟩] next := by
  have hall : ∀ w ∈ functionWords, w.toList ≠ [] ∧ w.toList.all isLetter = true ∧
      isFunctionWord w.toList = true ∧ String.ofList (w.toList.flatMap lowerLetter) = w := by
    decide +kernel
  obtain ⟨hne, hletters, hw, hlower⟩ := hall word h
  rw [List.all_eq_true] at hletters
  obtain ⟨c, cs, htext⟩ := List.exists_cons_of_ne_nil hne
  rw [htext] at hletters hw hlower ⊢
  have hsplits := (lexeme_of_isFunctionWord hletters hw hrest.not_isLetter).splits column
  rw [ofLexeme, if_pos rfl, hlower] at hsplits
  exact ⟨_, hsplits⟩

/-- Whether a text is a **name**: a letter, followed by letters and digits, where the letters in
front do not spell a function. -/
def IsName (text : String) : Prop :=
  ∃ c cs, text.toList = c :: cs ∧ isLetter c = true ∧ (∀ x ∈ cs, isAlphanumeric x = true) ∧
    isFunctionWord (c :: cs.takeWhile isLetter) = false

/-- Taking the rest of a number off a text leaves digits, with at most one point among them. -/
theorem isNumber_take_numberTail {c : Char} (hc : isDecimalDigit c = true) (rest : List Char) :
    isNumber (String.ofList (c :: rest.take (numberTail rest))) = true := by
  have hsplit := List.takeWhile_append_dropWhile (p := isDecimalDigit) (l := rest)
  have hds : AllDigits (c :: rest.takeWhile isDecimalDigit) := by
    intro x hx
    rcases List.mem_cons.1 hx with rfl | hx
    · exact hc
    · exact List.mem_takeWhile_imp hx
  rw [isNumber_iff, String.toList_ofList, numberTail]
  split
  · rename_i fs hdrop
    refine .inr ⟨_, fs.takeWhile isDecimalDigit, ?_, hds, allDigits_takeWhile fs, by simp⟩
    rw [hdrop] at hsplit
    have htail : rest.take ((rest.takeWhile isDecimalDigit).length +
        (1 + (fs.takeWhile isDecimalDigit).length)) =
        rest.takeWhile isDecimalDigit ++ '.' :: fs.takeWhile isDecimalDigit := by
      generalize rest.takeWhile isDecimalDigit = ds at hsplit ⊢
      rw [← hsplit, List.take_length_add_append, Nat.add_comm 1, List.take_succ_cons,
        take_length_takeWhile]
    rw [Nat.add_assoc, htail]
    rfl
  · refine .inl ⟨?_, List.cons_ne_nil _ _⟩
    rwa [take_length_takeWhile]

/-- A letter that starts no function is the start of a name, with all letters and digits behind
it. -/
theorem isName_take_takeWhile {c : Char} {rest : List Char} (hc : isLetter c = true)
    (hw : isFunctionWord (c :: rest.takeWhile isLetter) = false) :
    IsName (String.ofList (c :: rest.take (rest.takeWhile isAlphanumeric).length)) := by
  rw [take_length_takeWhile]
  refine ⟨c, _, String.toList_ofList, hc, fun x hx => List.mem_takeWhile_imp hx, ?_⟩
  have hletter : (fun x => decide (isLetter x = true ∧ isAlphanumeric x = true)) = isLetter := by
    funext x
    rw [Bool.eq_iff_iff, decide_eq_true_eq]
    exact ⟨And.left, fun h => ⟨h, isAlphanumeric_of_isLetter h⟩⟩
  rw [List.takeWhile_takeWhile, hletter, hw]

/-- **The operands of a text are names and numbers.** -/
theorem Lexeme.isName_or_isNumber {c : Char} {rest : List Char} {kind : TokenClass} {n : ℕ}
    (h : Lexeme c rest kind n) (hk : kind = .operand) :
    IsName (String.ofList (c :: rest.take n)) ∨
      isNumber (String.ofList (c :: rest.take n)) = true := by
  cases h with
  | name hc hw => exact .inl (isName_take_takeWhile hc hw)
  | number hc => exact .inr (isNumber_take_numberTail hc rest)
  | fraction h =>
      refine .inr (isNumber_iff.2 (.inr ⟨[], rest.takeWhile isDecimalDigit, ?_, ?_, ?_, ?_⟩))
      · rw [String.toList_ofList, take_length_takeWhile]
        rfl
      · intro x hx
        cases hx
      · exact allDigits_takeWhile rest
      · exact fun hne => h hne.2
  | symbol h =>
      have hall : ∀ p ∈ symbols, p.2 ≠ .operand := by decide
      exact absurd hk (hall _ h)
  | word => cases hk
  | unequal => cases hk
  | factorial => cases hk

/-- A name is a lexeme in front of anything but a letter or digit. -/
theorem exists_lexeme_of_isName {name : String} (h : IsName name) {rest : List Char}
    (hrest : ∀ x ∈ rest.head?, isAlphanumeric x = false) :
    ∃ c cs, name.toList = c :: cs ∧ Lexeme c (cs ++ rest) .operand cs.length := by
  obtain ⟨c, cs, htext, hc, hcs, hw⟩ := h
  have hletter : ∀ x ∈ rest.head?, isLetter x = false := by
    intro x hx
    rw [isLetter, hrest x hx, Bool.false_and]
  have hrun : (cs ++ rest).takeWhile isAlphanumeric = cs :=
    (takeWhile_append_of_head hcs hrest).1
  have hname : Lexeme c (cs ++ rest) .operand _ :=
    .name hc (by rw [takeWhile_append_eq hletter, hw])
  rw [hrun] at hname
  exact ⟨c, cs, htext, hname⟩

/-- A name is a token of its own if it is stopped. -/
theorem splits_name {name : String} (h : IsName name) {rest : List Char} (hrest : Stops rest)
    (column : ℕ) :
    ∃ next, Splits column name.toList rest [⟨name, .operand, some column⟩] next := by
  obtain ⟨c, cs, htext, hl⟩ := exists_lexeme_of_isName h fun x hx => (hrest x hx).1
  have hsplits := hl.splits column
  rw [ofLexeme, if_neg (by decide), ← htext, String.ofList_toList] at hsplits
  exact ⟨_, hsplits⟩

/-- The rest of a number that starts with a digit. -/
theorem numberTail_append {ds rest : List Char} (hds : AllDigits ds)
    (hrest : ∀ c ∈ rest.head?, isDecimalDigit c = false ∧ c ≠ '.') :
    numberTail (ds ++ rest) = ds.length := by
  obtain ⟨htake, hdrop⟩ := takeWhile_append_of_head hds fun c hc => (hrest c hc).1
  rw [numberTail, htake, hdrop]
  split
  · exact absurd rfl (hrest '.' rfl).2
  · rfl

/-- The rest of a number that starts with a digit and has a point. -/
theorem numberTail_append_point {ds fs rest : List Char} (hds : AllDigits ds) (hfs : AllDigits fs)
    (hrest : ∀ c ∈ rest.head?, isDecimalDigit c = false) :
    numberTail (ds ++ '.' :: fs ++ rest) = (ds ++ '.' :: fs).length := by
  have hpoint : ∀ c ∈ ('.' :: (fs ++ rest)).head?, isDecimalDigit c = false := by
    simp [isDecimalDigit_point]
  obtain ⟨htake, hdrop⟩ := takeWhile_append_of_head hds hpoint
  obtain ⟨hfraction, -⟩ := takeWhile_append_of_head hfs hrest
  rw [List.append_assoc, List.cons_append, numberTail, htake, hdrop]
  simp only [hfraction, List.length_append, List.length_cons]
  omega

/-- A number is a lexeme in front of anything that does not make a longer number of it. -/
theorem exists_lexeme_of_isNumber {text : String} (h : isNumber text = true) {rest : List Char}
    (hrest : ∀ x ∈ rest.head?, isNumber (String.ofList (text.toList ++ [x])) = false) :
    ∃ c cs, text.toList = c :: cs ∧ Lexeme c (cs ++ rest) .operand cs.length := by
  simp only [Bool.eq_false_iff, ne_eq, isNumber_iff, String.toList_ofList] at hrest
  rcases isNumber_iff.1 h with ⟨hds, hne⟩ | ⟨ds, fs, htext, hds, hfs, hne⟩
  · -- digits alone go on over a digit and over a point
    have hstop : ∀ x ∈ rest.head?, isDecimalDigit x = false ∧ x ≠ '.' := by
      intro x hx
      refine ⟨Bool.eq_false_iff.2 fun hdigit => hrest x hx (.inl ⟨?_, by simp⟩), ?_⟩
      · exact hds.append_singleton hdigit
      · rintro rfl
        exact hrest _ hx (.inr ⟨text.toList, [], rfl, hds, nofun, fun hnil => hne hnil.1⟩)
    obtain ⟨c, cs, htext⟩ := List.exists_cons_of_ne_nil hne
    rw [htext] at hds
    refine ⟨c, cs, htext, ?_⟩
    rw [← numberTail_append (fun x hx => hds x (List.mem_cons_of_mem c hx)) hstop]
    exact .number (hds c List.mem_cons_self)
  · -- behind the point only a digit goes on
    have hstop : ∀ x ∈ rest.head?, isDecimalDigit x = false := by
      intro x hx
      refine Bool.eq_false_iff.2 fun hdigit => hrest x hx (.inr ⟨ds, fs ++ [x], ?_, hds, ?_, ?_⟩)
      · rw [htext, List.append_assoc, List.cons_append]
      · exact hfs.append_singleton hdigit
      · simp
    cases ds with
    | nil =>
        have hrun : (fs ++ rest).takeWhile isDecimalDigit = fs :=
          (takeWhile_append_of_head hfs hstop).1
        have hfraction : fs ≠ [] := fun hf => hne ⟨rfl, hf⟩
        have hl : Lexeme '.' (fs ++ rest) .operand _ := .fraction (by rwa [hrun])
        rw [hrun] at hl
        exact ⟨'.', fs, htext, hl⟩
    | cons c ds =>
        refine ⟨c, ds ++ '.' :: fs, htext, ?_⟩
        rw [← numberTail_append_point (fun x hx => hds x (List.mem_cons_of_mem c hx)) hfs hstop]
        exact .number (hds c List.mem_cons_self)

/-- What stops a number makes no longer number of it. -/
theorem Stops.not_isNumber {rest : List Char} (h : Stops rest) (cs : List Char) :
    ∀ x ∈ rest.head?, isNumber (String.ofList (cs ++ [x])) = false := by
  intro x hx
  rw [Bool.eq_false_iff]
  intro hn
  rcases Number.isNumeric_of_isNumber hn x (by simp) with hdigit | rfl
  · rw [(h x hx).2.1] at hdigit
    cases hdigit
  · exact (h _ hx).2.2 rfl

/-- A number is a token of its own if it is stopped. -/
theorem splits_number {text : String} (h : isNumber text = true) {rest : List Char}
    (hrest : Stops rest) (column : ℕ) :
    ∃ next, Splits column text.toList rest [⟨text, .operand, some column⟩] next := by
  obtain ⟨c, cs, htext, hl⟩ := exists_lexeme_of_isNumber h (hrest.not_isNumber _)
  have hsplits := hl.splits column
  rw [ofLexeme, if_neg (by decide), ← htext, String.ofList_toList] at hsplits
  exact ⟨_, hsplits⟩

/-- **A number is a text whose only token is itself.** -/
theorem ofText_of_isNumber {text : String} (h : isNumber text = true) :
    ofText text = .ok [⟨text, .operand, some 1⟩] := by
  obtain ⟨next, hsplits⟩ := splits_number h stops_nil 1
  exact ofText_eq_ok_iff.2 ⟨hsplits.scan_eq, List.cons_ne_nil _ _⟩

/-- The operands of a text are names and numbers. -/
theorem isName_or_isNumber_of_mem_scan {column : ℕ} {cs : List Char} {ts : List Token}
    (h : scan column cs = .ok ts) {t : Token} (ht : t ∈ ts) (hk : t.kind = .operand) :
    IsName t.text ∨ isNumber t.text = true := by
  obtain ⟨c, rest, kind, n, column', hl, rfl, -⟩ := exists_lexeme_of_mem_scan h t ht
  obtain rfl : kind = .operand := hk
  rw [ofLexeme, if_neg (by decide)]
  exact hl.isName_or_isNumber rfl

/-- **A name is a text whose only token is itself**, and no number. -/
theorem isName_iff {name : String} :
    IsName name ↔
      (∃ column, ofText name = .ok [⟨name, .operand, column⟩]) ∧ isNumber name = false := by
  constructor
  · intro h
    obtain ⟨next, hsplits⟩ := splits_name h stops_nil 1
    refine ⟨⟨some 1, ofText_eq_ok_iff.2 ⟨hsplits.scan_eq, List.cons_ne_nil _ _⟩⟩, ?_⟩
    obtain ⟨c, cs, htext, hc, -, -⟩ := h
    rw [Bool.eq_false_iff]
    intro hn
    have hnumeric := Number.isNumeric_of_isNumber hn c (by rw [htext]; exact List.mem_cons_self)
    rcases hnumeric with hdigit | rfl
    · rw [isLetter_of_isDecimalDigit hdigit] at hc
      cases hc
    · rw [not_letter_of_mark.1] at hc
      cases hc
  · rintro ⟨⟨column, h⟩, hn⟩
    have hoperand := isName_or_isNumber_of_mem_scan (ofText_eq_ok_iff.1 h).1
      (List.mem_singleton_self _) rfl
    exact hoperand.resolve_right (by simp [hn])

end Formulary.Token
