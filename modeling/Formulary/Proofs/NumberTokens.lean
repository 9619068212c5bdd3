import Formulary.Proofs.Conservation
import Formulary.Proofs.Contradictions
import Formulary.Proofs.Listings
import Formulary.Proofs.Segmentation

/-!
# Scanned as a Number, Built as a Number

Whether a token is a number is decided twice. The lexer decides while it scans, with functions and
names competing for the same characters, and takes as many characters as it can. The check for
undeclared names and the builder decide again, from the whole text of the token and without a trace
of how it was scanned. This module keeps that trace and proves that the two decisions agree, in
digits and letters of every script, so that a name is never built as a literal.

## Conventions

A **letter** is what may start a name: an alphanumeric character that is no decimal digit. So a
superscript two and a Roman numeral are letters here, and texts that start with them are names,
while the digits of all scripts form numbers.

The tokens of the lexer say their class, and names and numbers have the same one. `Terminal.scan` is
the lexer with the terminal of every token kept. The terminals are tried in the order of their
priority (`Terminal.first?`), without a look at the class that the token will have.

## Main results

* `Terminal.first?_cases`, `Terminal.scan_eq`: forgetting the terminals gives the lexer.
* `Terminal.operand_cases`: an operand was scanned as a number and is one, or as a name and is one.
* `Formula.leaves_of_ofText`: the leaves of a formula are built from the operands of its text.
* `isNumber_iff_scanned`: the texts that are numbers, and what the later stages make of a scan.
-/

namespace Formulary

namespace Token

open Text

/-! ### Terminals -/

/-- The **terminals** of the lexer: the rules by which a token may be scanned. -/
inductive Terminal where
  /-- A run of letters that spells a function. -/
  | word
  /-- A letter, with the letters and digits behind it. -/
  | name
  /-- Digits with at most one point. -/
  | number
  /-- A text that is a token as it stands. -/
  | symbol (kind : TokenClass)
  deriving DecidableEq, Repr

/-- The texts that are tokens as they stand, with their classes. Of two texts with the same first
character the longer one comes first. -/
def spellings : List (List Char × TokenClass) :=
  (['!', '='], .comparison) :: (['!'], .function) :: symbols.map fun p => ([p.1], p.2)

namespace Terminal

/-- The class of the tokens that are scanned by a terminal. -/
def kind : Terminal → TokenClass
  | word => .function
  | name => .operand
  | number => .operand
  | symbol kind => kind

/-- The **first terminal** that matches at the start of a text, in the order of their priority, and
how many characters it takes. A number takes what it can get of digits, a point and digits again,
but not the point alone. -/
def first? (cs : List Char) : Option (Terminal × ℕ) :=
  let run := cs.takeWhile isLetter
  if isFunctionWord run then some (word, run.length)
  else if cs.head?.any isLetter then some (name, (cs.takeWhile isAlphanumeric).length)
  else if (cs.take (numberTail cs)).any isDecimalDigit then some (number, numberTail cs)
  else (spellings.find? (·.1.isPrefixOf cs)).map fun p => (symbol p.2, p.1.length)

/-- The **scan** of a text whose first character stands in the given column: its tokens, each with
the terminal that it was scanned by. -/
def scan (column : ℕ) : List Char → Except Fault (List (Terminal × Token))
  | [] => .ok []
  | c :: rest =>
    if isIgnored c then scan (nextColumn column c) rest
    else
      match first? (c :: rest) with
      | none => .error (.unrecognizedCharacter c column)
      | some (r, n) =>
        (scan (column + n) (rest.drop (n - 1))).map
          ((r, ofLexeme r.kind (c :: rest.take (n - 1)) column) :: ·)
termination_by text => text.length
decreasing_by all_goals simp only [List.length_cons, List.length_drop]; omega

/-! ### What the first terminal is -/

/-- How far a number goes that starts with a digit. -/
theorem numberTail_digit {c : Char} (hc : isDecimalDigit c = true) (rest : List Char) :
    numberTail (c :: rest) = numberTail rest + 1 := by
  rw [numberTail, numberTail, List.takeWhile_cons_of_pos hc, List.dropWhile_cons_of_pos hc,
    List.length_cons]
  split <;> omega

/-- How far a number goes that starts with the point. -/
theorem numberTail_point (rest : List Char) :
    numberTail ('.' :: rest) = (rest.takeWhile isDecimalDigit).length + 1 := by
  simp [numberTail, isDecimalDigit_point, Nat.add_comm]

/-- No number starts with another character. -/
theorem numberTail_other {c : Char} (hc : isDecimalDigit c = false) (hpoint : c ≠ '.')
    (rest : List Char) : numberTail (c :: rest) = 0 := by
  simp [numberTail, hc, hpoint]

variable {c : Char} {rest : List Char}

/-- A letter starts a function or a name. -/
theorem first?_letter (hc : isLetter c = true) :
    first? (c :: rest) =
      if isFunctionWord (c :: rest.takeWhile isLetter) then
        some (word, (rest.takeWhile isLetter).length + 1)
      else some (name, (rest.takeWhile isAlphanumeric).length + 1) := by
  simp [first?, hc, isAlphanumeric_of_isLetter hc]

/-- Any other character starts a number or a symbol. -/
theorem first?_other (hc : isLetter c = false) :
    first? (c :: rest) =
      if ((c :: rest).take (numberTail (c :: rest))).any isDecimalDigit then
        some (number, numberTail (c :: rest))
      else
        (spellings.find? (·.1.isPrefixOf (c :: rest))).map fun p => (symbol p.2, p.1.length) := by
  simp [first?, hc, isFunctionWord_nil]

/-- Letters that spell a function are scanned as one. -/
theorem first?_word (hc : isLetter c = true)
    (hw : isFunctionWord (c :: rest.takeWhile isLetter) = true) :
    first? (c :: rest) = some (word, (rest.takeWhile isLetter).length + 1) := by
  rw [first?_letter hc, if_pos hw]

/-- Other letters are scanned as a name, with the digits behind them. -/
theorem first?_name (hc : isLetter c = true)
    (hw : isFunctionWord (c :: rest.takeWhile isLetter) = false) :
    first? (c :: rest) = some (name, (rest.takeWhile isAlphanumeric).length + 1) := by
  rw [first?_letter hc, if_neg (by simp [hw])]

/-- A digit starts a number. -/
theorem first?_digit (hc : isDecimalDigit c = true) :
    first? (c :: rest) = some (number, numberTail rest + 1) := by
  rw [first?_other (isLetter_of_isDecimalDigit hc), numberTail_digit hc, List.take_succ_cons,
    if_pos (by simp [hc])]

/-- A point starts a number if digits follow, and nothing otherwise. -/
theorem first?_point :
    first? ('.' :: rest) =
      if rest.takeWhile isDecimalDigit = [] then none
      else some (number, (rest.takeWhile isDecimalDigit).length + 1) := by
  rw [first?_other not_letter_of_mark.1, numberTail_point, List.take_succ_cons,
    take_length_takeWhile]
  cases hrun : rest.takeWhile isDecimalDigit with
  | nil => rfl
  | cons d ds =>
      have hd : isDecimalDigit d = true := allDigits_takeWhile rest d (by simp [hrun])
      rw [if_pos (by simp [hd]), if_neg (List.cons_ne_nil d ds)]

/-- What starts neither a name nor a number is looked up among the symbols. -/
theorem first?_symbol (hc : isLetter c = false) (hd : isDecimalDigit c = false)
    (hpoint : c ≠ '.') :
    first? (c :: rest) =
      (spellings.find? (·.1.isPrefixOf (c :: rest))).map fun p => (symbol p.2, p.1.length) := by
  rw [first?_other hc, numberTail_other hd hpoint, List.take_zero]
  rfl

/-- A symbol is found under its character. -/
theorem find?_spellings {kind : TokenClass} (h : (c, kind) ∈ symbols) :
    spellings.find? (·.1.isPrefixOf (c :: rest)) = some ([c], kind) := by
  simp only [symbols, List.mem_cons, Prod.mk.injEq, List.not_mem_nil, or_false] at h
  rcases h with ⟨rfl, rfl⟩ | ⟨rfl, rfl⟩ | ⟨rfl, rfl⟩ | ⟨rfl, rfl⟩ | ⟨rfl, rfl⟩ | ⟨rfl, rfl⟩ |
    ⟨rfl, rfl⟩ | ⟨rfl, rfl⟩ | ⟨rfl, rfl⟩ | ⟨rfl, rfl⟩ | ⟨rfl, rfl⟩ | ⟨rfl, rfl⟩ <;> rfl

end Terminal

/-! ### Forgetting the terminals -/

/-- Every lexeme is what the first terminal takes. -/
theorem Lexeme.exists_first? {c : Char} {rest : List Char} {kind : TokenClass} {n : ℕ}
    (h : Lexeme c rest kind n) :
    ∃ r : Terminal, r.kind = kind ∧ Terminal.first? (c :: rest) = some (r, n + 1) := by
  obtain ⟨-, hmark, hmarkDigit⟩ := not_letter_of_mark
  have hlookup : Terminal.first? ('!' :: rest) = _ :=
    Terminal.first?_symbol hmark hmarkDigit (by decide)
  cases h with
  | word hc hw => exact ⟨.word, rfl, Terminal.first?_word hc hw⟩
  | name hc hw => exact ⟨.name, rfl, Terminal.first?_name hc hw⟩
  | number hc => exact ⟨.number, rfl, Terminal.first?_digit hc⟩
  | fraction h => exact ⟨.number, rfl, by rw [Terminal.first?_point, if_neg h]⟩
  | unequal h =>
      obtain ⟨more, rfl⟩ := List.head?_eq_some_iff.1 h
      exact ⟨.symbol .comparison, rfl, hlookup⟩
  | factorial h =>
      refine ⟨.symbol .function, rfl, ?_⟩
      rw [hlookup]
      cases rest with
      | nil => rfl
      | cons x more =>
          have hx : x ≠ '=' := by simpa using h
          simp [spellings, hx.symm]
  | @symbol _ _ kind h =>
      obtain ⟨hletter, hdigit⟩ := not_letter_of_mem_symbols h
      have hpoint : ∀ p ∈ symbols, p.1 ≠ '.' := by decide
      refine ⟨.symbol kind, rfl, ?_⟩
      rw [Terminal.first?_symbol hletter hdigit (hpoint _ h), Terminal.find?_spellings h]
      rfl

/-- A symbol that a text starts with starts a lexeme. -/
theorem exists_lexeme_of_spelling {c : Char} {rest : List Char} {p : List Char × TokenClass}
    (hp : p ∈ spellings) (h : p.1.isPrefixOf (c :: rest) = true) :
    ∃ kind n, Lexeme c rest kind n := by
  have hmark : ∃ kind n, Lexeme '!' rest kind n := by
    by_cases hnext : rest.head? = some '='
    · exact ⟨_, _, .unequal hnext⟩
    · exact ⟨_, _, .factorial hnext⟩
  simp only [spellings, List.mem_cons, List.mem_map] at hp
  rcases hp with rfl | rfl | ⟨⟨x, kind⟩, hx, rfl⟩
  · obtain ⟨rfl, -⟩ : '!' = c ∧ _ := by simpa using h
    exact hmark
  · obtain rfl : '!' = c := by simpa using h
    exact hmark
  · obtain rfl : x = c := by simpa using h
    exact ⟨_, _, .symbol hx⟩

namespace Terminal

/-- Where a terminal matches, a lexeme starts. -/
theorem exists_lexeme_of_first? {c : Char} {rest : List Char} {p : Terminal × ℕ}
    (h : first? (c :: rest) = some p) : ∃ kind n, Lexeme c rest kind n := by
  cases hc : isLetter c with
  | true =>
      cases hw : isFunctionWord (c :: rest.takeWhile isLetter) with
      | true => exact ⟨_, _, .word hc hw⟩
      | false => exact ⟨_, _, .name hc hw⟩
  | false =>
      cases hd : isDecimalDigit c with
      | true => exact ⟨_, _, .number hd⟩
      | false =>
          by_cases hpoint : c = '.'
          · subst hpoint
            rw [first?_point] at h
            split at h
            · cases h
            · exact ⟨_, _, .fraction ‹_›⟩
          · rw [first?_symbol hc hd hpoint] at h
            obtain ⟨p, hp, -⟩ := Option.map_eq_some_iff.1 h
            have hstarts := List.find?_some hp
            exact exists_lexeme_of_spelling (List.mem_of_find?_eq_some hp) hstarts

/-- **The first terminal decides as the lexer does**, on the class and on the length. -/
theorem first?_cases (c : Char) (rest : List Char) :
    (∃ r n, first? (c :: rest) = some (r, n + 1) ∧ lexeme? c rest = some (r.kind, n)) ∨
      (first? (c :: rest) = none ∧ lexeme? c rest = none) := by
  cases hl : lexeme? c rest with
  | some p =>
      obtain ⟨kind, n⟩ := p
      obtain ⟨r, rfl, hr⟩ := (Lexeme.of_lexeme? hl).exists_first?
      exact .inl ⟨r, n, hr, rfl⟩
  | none =>
      refine .inr ⟨Option.eq_none_iff_forall_not_mem.2 fun p hp => ?_, rfl⟩
      obtain ⟨kind, n, h⟩ := exists_lexeme_of_first? hp
      rw [h.lexeme?_eq] at hl
      cases hl

/-- What the first terminal takes is a lexeme of its class. -/
theorem lexeme_of_first? {c : Char} {rest : List Char} {r : Terminal} {n : ℕ}
    (h : first? (c :: rest) = some (r, n + 1)) : Lexeme c rest r.kind n := by
  rcases first?_cases c rest with ⟨r', n', hr, hl⟩ | ⟨hnone, -⟩
  · rw [h] at hr
    cases hr
    exact .of_lexeme? hl
  · rw [h] at hnone
    cases hnone

/-- **Forgetting the terminals gives the lexer**, its faults included. -/
theorem scan_eq (column : ℕ) (cs : List Char) :
    Token.scan column cs = (scan column cs).map (List.map Prod.snd) := by
  fun_induction Token.scan column cs with
  | case1 => rw [scan]; rfl
  | case2 column c rest hc ih => rw [scan, if_pos hc, ih]
  | case3 column c rest hc hnone =>
      rcases first?_cases c rest with ⟨r, n, -, hl⟩ | ⟨hr, -⟩
      · rw [hnone] at hl
        cases hl
      · rw [scan, if_neg hc, hr]
        rfl
  | case4 column c rest hc kind n hl ih =>
      obtain ⟨r, rfl, hr⟩ := (Lexeme.of_lexeme? hl).exists_first?
      rw [scan, if_neg hc, hr, ih, Nat.add_assoc, Nat.add_comm 1]
      simp only [Nat.add_sub_cancel]
      cases scan (column + (n + 1)) (rest.drop n) <;> rfl

/-- Every token of a scan is the slice that its terminal took. -/
theorem exists_first?_of_mem_scan {column : ℕ} {cs : List Char} {rs : List (Terminal × Token)}
    (h : scan column cs = .ok rs) :
    ∀ p ∈ rs, ∃ c rest n column, first? (c :: rest) = some (p.1, n + 1) ∧
      p.2 = ofLexeme p.1.kind (c :: rest.take n) column := by
  fun_induction scan column cs generalizing rs with
  | case1 => cases h; simp
  | case2 column c rest _ ih => exact ih h
  | case3 => cases h
  | case4 column c rest _ r m hr ih =>
      -- a terminal takes the character in front at least, so that the scan moves on
      obtain ⟨n, rfl⟩ : ∃ n, m = n + 1 := by
        rcases first?_cases c rest with ⟨r', n, hr', -⟩ | ⟨hnone, -⟩
        · rw [hr] at hr'
          cases hr'
          exact ⟨n, rfl⟩
        · rw [hr] at hnone
          cases hnone
      cases hs : scan (column + (n + 1)) (rest.drop (n + 1 - 1)) with
      | error fault => rw [hs] at h; cases h
      | ok us =>
          rw [hs] at h
          cases h
          intro p hp
          rcases List.mem_cons.1 hp with rfl | hp
          · exact ⟨c, rest, n, column, hr, rfl⟩
          · exact ih hs p hp

/-- **An operand was scanned as a number and is one, or as a name and is one.** -/
theorem operand_cases {column : ℕ} {cs : List Char} {rs : List (Terminal × Token)}
    (h : scan column cs = .ok rs) {r : Terminal} {t : Token} (hp : (r, t) ∈ rs)
    (hk : t.kind = .operand) :
    (r = number ∧ isNumber t.text = true) ∨ (r = name ∧ IsName t.text) := by
  obtain ⟨c, rest, n, column', hr, ht⟩ := exists_first?_of_mem_scan h _ hp
  dsimp only at hr ht
  subst ht
  have hkind : r.kind = .operand := hk
  have hl := lexeme_of_first? hr
  rw [hkind] at hl
  rw [ofLexeme, hkind, if_neg (by decide)]
  cases hl with
  | name hc hw =>
      rw [first?_name hc hw] at hr
      cases hr
      exact .inr ⟨rfl, isName_take_takeWhile hc hw⟩
  | number hc =>
      rw [first?_digit hc] at hr
      cases hr
      exact .inl ⟨rfl, isNumber_take_numberTail hc rest⟩
  | fraction hrun =>
      rw [first?_point, if_neg hrun] at hr
      cases hr
      refine .inl ⟨rfl, ?_⟩
      rw [take_length_takeWhile]
      exact isNumber_point_iff.2 ⟨allDigits_takeWhile rest, hrun⟩
  | symbol hs =>
      have hall : ∀ q ∈ symbols, q.2 ≠ .operand := by decide
      exact absurd rfl (hall _ hs)

/-! ### What an operand is built as -/

/-- What an operand is **built as**, by the terminal that it was scanned by: a number as the literal
of its value, and a name as itself. -/
inductive Builds : Terminal × Token → Formula → Prop
  | number {t : Token} {x : Float} (hx : Number.read? t.text = some x) :
      Builds (number, t) (.literal x)
  | name {t : Token} : Builds (name, t) (.var t.text)

/-- Whether the later stages **agree** with the lexer about an operand. -/
structure Agrees (p : Terminal × Token) : Prop where
  /-- Its text is a number exactly if it was scanned as one. -/
  isNumber_iff : isNumber p.2.text = true ↔ p.1 = number
  /-- It passes the check if it was scanned as a number, or if its name is declared or reserved. -/
  isKnown_iff (declared : List String) :
    isKnown declared p.2.text = true ↔
      p.1 = number ∨ p.2.text ∈ declared ∨ isReserved p.2.text = true
  /-- The builder puts onto any stack what it is to be built as. -/
  push_eq (stack : List Formula) :
    ∃ leaf, Builds p leaf ∧ Formula.push stack p.2 = .ok (leaf :: stack)

variable {column : ℕ} {cs : List Char} {rs : List (Terminal × Token)}

/-- The leaf that the builder makes of an operand is what the operand is to be built as. -/
theorem builds_ofOperand (h : scan column cs = .ok rs) {p : Terminal × Token} (hp : p ∈ rs)
    (hk : p.2.kind = .operand) : Builds p (Formula.ofOperand p.2.text) := by
  obtain ⟨r, t⟩ := p
  rcases operand_cases h hp hk with ⟨rfl, hn⟩ | ⟨rfl, hname⟩
  · obtain ⟨digits, exponent, hx⟩ := Number.exists_read?_of_isNumber hn
    rw [ParseTree.ofOperand_number hn hx]
    exact .number hx
  · rw [ParseTree.ofOperand_name (isName_iff.1 hname).2]
    exact .name

/-- **The later stages agree with the lexer** about every operand. -/
theorem agrees_of_mem_scan (h : scan column cs = .ok rs) {p : Terminal × Token} (hp : p ∈ rs)
    (hk : p.2.kind = .operand) : Agrees p := by
  have hnumber : isNumber p.2.text = true ↔ p.1 = number := by
    rcases operand_cases h hp hk with ⟨hr, hn⟩ | ⟨hr, hname⟩
    · simp only [hr, hn]
    · simp only [hr, (isName_iff.1 hname).2, Bool.false_eq_true, reduceCtorEq]
  refine ⟨hnumber, fun declared => ?_, fun stack => ?_⟩
  · simp only [isKnown, Bool.or_eq_true, List.contains_iff_mem, hnumber]
    rw [or_assoc, or_left_comm]
  · exact ⟨_, builds_ofOperand h hp hk, push_operand hk stack⟩

end Terminal

/-- Marking the minuses of a sequence leaves its operands. -/
theorem operands_eq_of_marked {ts vs : List Token} (h : List.Forall₂ Marked ts vs) :
    operands vs = operands ts := by
  induction h with
  | nil => rfl
  | @cons t v _ _ hmarked _ ih =>
      rcases hmarked with rfl | ⟨hminus, rfl⟩
      · simp only [operands, List.filter_cons] at ih ⊢
        rw [ih]
      · have hkind : t.kind ≠ .operand := by
          rcases kind_of_isMinus hminus with hk | hk <;> simp [hk]
        simpa [operands, negated, hkind] using ih

end Token

/-! ### The leaves of a formula -/

namespace Formula

/-- The **leaves** of a formula from left to right: its literals, its variables and its counters. -/
def leaves : Formula → List Formula
  | literal value => [literal value]
  | var name => [var name]
  | unary _ operand => operand.leaves
  | binary _ left right => left.leaves ++ right.leaves
  | aggregate _ counter limit body => var counter :: (limit.leaves ++ body.leaves)

/-- The leaves of a formula are made of the operands of its listing, one of each. -/
theorem Listing.leaves_eq {f : Formula} {ts : List Token} (h : Listing f ts) :
    f.leaves = (Token.operands ts).map fun t => ofOperand t.text := by
  induction h with
  | number hk hn hx =>
      simp [leaves, Token.operands, hk, Token.ParseTree.ofOperand_number hn hx]
  | name hk hn => simp [leaves, Token.operands, hk, Token.ParseTree.ofOperand_name hn]
  | minus hk _ ih | call hk _ _ ih => simp [leaves, ih, Token.operands, hk]
  | @binary t _ _ _ _ _ hk _ _ _ ihl ihr =>
      have hother : t.kind ≠ .operand := fun h => by rw [h] at hk; cases hk
      simp [leaves, ihl, ihr, Token.operands, hother]
  | aggregate hi hn hk _ _ _ ihl ihb =>
      simp [leaves, ihl, ihb, Token.operands, hi, hk, Token.ParseTree.ofOperand_name hn]

/-- **The leaves of a formula are built from the operands of its text**, one of each and in their
order. -/
theorem leaves_of_ofText {text : String} {declared : Option (List String)} {f : Formula}
    (h : ofText text declared = .ok f) :
    ∃ ts, Token.ofText text = .ok ts ∧
      f.leaves = (Token.operands ts).map fun t => ofOperand t.text := by
  obtain ⟨ts, vs, e, htext, he, -, hf, hscoped⟩ := Token.exists_denotes_of_ofText h
  -- from the formula back to its text: the listing, the reordering, the marks of the minuses
  have hlisting : Listing f (Token.toPostorder vs) := by
    have hbuilt := hf.build_eq hscoped
    rw [← Token.ofPostorder_postorder, ← he.toPostorder_eq] at hbuilt
    exact (listing_of_ofPostorder hbuilt).1
  have hpassed : Token.operands (Token.toPostorder vs) = Token.operands vs :=
    (Token.conserves_reorder (List.forall_mem_nil _) vs).operands_eq
  refine ⟨ts, htext, ?_⟩
  rw [hlisting.leaves_eq, hpassed, Token.operands_eq_of_marked he.derives.1.forall₂_marked]

end Formula

/-! ### The two decisions -/

namespace Token

open Text

/-- A text is a number exactly if it is its own only token and starts with no letter. -/
theorem isNumber_iff_ofText {text : String} :
    isNumber text = true ↔
      ∃ t c cs, ofText text = .ok [t] ∧ t.kind = .operand ∧ t.text = text ∧
        text.toList = c :: cs ∧ isLetter c = false := by
  constructor
  · intro h
    have htoken := ofText_of_isNumber h
    obtain ⟨c, cs, htext⟩ : ∃ c cs, text.toList = c :: cs := by
      refine List.exists_cons_of_ne_nil fun hnil => ?_
      simp [isNumber, hnil] at h
    refine ⟨_, c, cs, htoken, rfl, rfl, htext, ?_⟩
    rcases Number.isNumeric_of_isNumber h c (by simp [htext]) with hc | rfl
    · exact isLetter_of_isDecimalDigit hc
    · exact not_letter_of_mark.1
  · rintro ⟨t, c, cs, htoken, hk, htext, hcs, hc⟩
    have hoperand := isName_or_isNumber_of_mem_scan (ofText_eq_ok_iff.1 htoken).1
      (List.mem_singleton_self t) hk
    rw [htext] at hoperand
    refine hoperand.resolve_left ?_
    rintro ⟨d, ds, hds, hd, -⟩
    rw [hcs] at hds
    cases hds
    rw [hc] at hd
    cases hd

/-- **The two decisions about numbers agree.** A text is a number exactly if it is its own only
token and starts with no letter. Of every text that has tokens, an operand is a number for the check
and for the builder exactly if it was scanned as one, and the leaves of the formula that is read
from the text are built from its operands, one of each and in their order: numbers as literals and
names as themselves. -/
theorem isNumber_iff_scanned (text : String) :
    (isNumber text = true ↔
      ∃ t c cs, ofText text = .ok [t] ∧ t.kind = .operand ∧ t.text = text ∧
        text.toList = c :: cs ∧ isLetter c = false) ∧
    ∀ ts, ofText text = .ok ts →
      ∃ rs, Terminal.scan 1 text.toList = .ok rs ∧ rs.map Prod.snd = ts ∧
        (∀ p ∈ rs, p.2.kind = .operand → Terminal.Agrees p) ∧
        ∀ declared f, Formula.ofText text declared = .ok f →
          List.Forall₂ Terminal.Builds (rs.filter (·.2.kind == .operand)) f.leaves := by
  refine ⟨isNumber_iff_ofText, fun ts hts => ?_⟩
  obtain ⟨rs, hrs, rfl⟩ : ∃ rs, Terminal.scan 1 text.toList = .ok rs ∧ rs.map Prod.snd = ts := by
    have hscan := (ofText_eq_ok_iff.1 hts).1
    rw [Terminal.scan_eq] at hscan
    cases hrs : Terminal.scan 1 text.toList with
    | error fault => rw [hrs] at hscan; cases hscan
    | ok rs => rw [hrs] at hscan; cases hscan; exact ⟨rs, rfl, rfl⟩
  refine ⟨rs, hrs, rfl, fun p hp hk => Terminal.agrees_of_mem_scan hrs hp hk, ?_⟩
  intro declared f hf
  obtain ⟨us, hus, hleaves⟩ := Formula.leaves_of_ofText hf
  obtain rfl : rs.map Prod.snd = us := Except.ok.inj (hts.symm.trans hus)
  have hoperands : operands (rs.map Prod.snd) =
      (rs.filter (·.2.kind == .operand)).map Prod.snd := List.filter_map
  rw [hleaves, hoperands, List.map_map, List.forall₂_map_right_iff, List.forall₂_same]
  intro p hp
  obtain ⟨hmem, hk⟩ := List.mem_filter.1 hp
  exact Terminal.builds_ofOperand hrs hmem (by simpa using hk)

/-- Arabic digits around a point are a number and are built as a literal. A letter with a
superscript digit and a Roman numeral are names. -/
theorem isNumber_iff_scanned_scripts :
    let f : Formula := .binary .sub
      (.binary .mul (.literal (Number.nearest 35 (-1))) (.var "x²")) (.var "Ⅷ")
    Formula.ofText "٣.٥*x²-Ⅷ" none = .ok f ∧
      Terminal.Agrees (.number, ⟨"٣.٥", .operand, some 1⟩) ∧
      Terminal.Agrees (.name, ⟨"Ⅷ", .operand, some 8⟩) ∧
      List.Forall₂ Terminal.Builds [(.number, ⟨"٣.٥", .operand, some 1⟩),
        (.name, ⟨"x²", .operand, some 5⟩), (.name, ⟨"Ⅷ", .operand, some 8⟩)] f.leaves := by
  intro f
  have htokens : ofText "٣.٥*x²-Ⅷ" = .ok [⟨"٣.٥", .operand, some 1⟩,
      ⟨"*", .multiplicative, some 4⟩, ⟨"x²", .operand, some 5⟩, ⟨"-", .additive, some 7⟩,
      ⟨"Ⅷ", .operand, some 8⟩] := by
    decide +kernel
  have hterminals : Terminal.scan 1 "٣.٥*x²-Ⅷ".toList =
      .ok [(.number, ⟨"٣.٥", .operand, some 1⟩),
        (.symbol .multiplicative, ⟨"*", .multiplicative, some 4⟩),
        (.name, ⟨"x²", .operand, some 5⟩), (.symbol .additive, ⟨"-", .additive, some 7⟩),
        (.name, ⟨"Ⅷ", .operand, some 8⟩)] := by
    decide +kernel
  have hread : Formula.ofText "٣.٥*x²-Ⅷ" none = .ok f := by
    simp only [Formula.ofText, htokens]
    rfl
  obtain ⟨rs, hrs, -, hagrees, hbuilt⟩ := (isNumber_iff_scanned "٣.٥*x²-Ⅷ").2 _ htokens
  cases hrs.symm.trans hterminals
  exact ⟨hread, hagrees _ (by simp) rfl, hagrees _ (by simp) rfl, hbuilt none f hread⟩

end Token

end Formulary
