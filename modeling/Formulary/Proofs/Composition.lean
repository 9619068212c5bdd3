import Formulary.Proofs.RoundTrip

/-!
# Texts Compose as Their Formulas Do

A text that is read can be pasted between parentheses into a longer text, and the formula of the
longer text then has the formula of the pasted one as a part. This module proves that nothing of the
inside gets out: neither characters that the lexer could join to the parenthesis, nor line breaks,
which move the columns of all that follows, nor operators that stand loose in the text.

## Conventions

The tokens of a pasted text are those of the text alone except for their columns. They are compared
without them (`bare`), and the reference grammar does not look at columns.

An identifier is a text that is one token and no number (`LexesAlone`).

## Main results

* `lexeme?_append`: what is apart from a text changes no decision of the lexer about the text.
* `exists_splits_of_scan`: a text splits as it does alone, in front of everything apart from it.
* `Expression.of_bare`: tokens that differ only by their columns have trees that denote the same.
* `reads_of_ofText`: a text that is read also reads where it is pasted.
* `Formula.ofText_composed`: the ways to paste texts together, with the formulas that they read as.
-/

namespace Formulary

namespace Token

open Text

/-! ### Tokens without their columns -/

/-- The token **without its column**. -/
def bare (t : Token) : Token :=
  { t with column := none }

/-- What does not depend on the column is the same for both tokens. -/
theorem eq_of_bare {α : Type} {t u : Token} (h : t.bare = u.bare) (p : Token → α)
    (hp : ∀ t : Token, p t.bare = p t := by exact fun _ => rfl) : p t = p u := by
  rw [← hp t, h, hp u]

/-! ### Lexemes in a longer text -/

/-- A number goes on no longer in front of what stops it. -/
theorem numberTail_append_eq {front rest : List Char} (h : Stops rest) :
    numberTail (front ++ rest) = numberTail front := by
  have hdigit : ∀ c ∈ rest.head?, isDecimalDigit c = false := fun c hc => (h c hc).2.1
  rw [numberTail, numberTail, takeWhile_append_eq hdigit, dropWhile_append_eq hdigit]
  cases hdrop : front.dropWhile isDecimalDigit with
  | nil =>
      rw [List.nil_append]
      split
      · exact absurd rfl (h '.' rfl).2.2
      · rfl
  | cons c more =>
      by_cases hpoint : c = '.'
      · subst hpoint
        simp only [List.cons_append, takeWhile_append_eq hdigit]
      · simp [hpoint]

/-- Whether a continuation is **apart** from what stands in front of it: it stops names, numbers
and functions, and it makes no comparison of an exclamation mark. -/
def Apart (rest : List Char) : Prop :=
  Stops rest ∧ rest.head? ≠ some '='

/-- What closes is apart. -/
theorem Closes.apart {rest : List Char} (h : Closes rest) : Apart rest := by
  refine ⟨h.stops, fun heq => ?_⟩
  rcases h '=' heq with hc | hc <;> cases hc

/-- **What is apart changes no decision of the lexer**, be it for a lexeme or for none. -/
theorem lexeme?_append {rest : List Char} (h : Apart rest) (c : Char) (front : List Char) :
    lexeme? c (front ++ rest) = lexeme? c front := by
  obtain ⟨hstops, hequal⟩ := h
  have htake {p : Char → Bool} (hrest : ∀ x ∈ rest.head?, p x = false) :
      (front ++ rest).takeWhile p = front.takeWhile p := takeWhile_append_eq hrest
  have hletter := htake hstops.not_isLetter
  have hdigit := htake fun x hx => (hstops x hx).2.1
  have halphanumeric := htake fun x hx => (hstops x hx).1
  have hhead : (front ++ rest).head? = some '=' ↔ front.head? = some '=' := by
    cases front with
    | nil => exact iff_of_false hequal nofun
    | cons => rfl
  simp only [lexeme?, hletter, hdigit, halphanumeric, numberTail_append_eq hstops, hhead]

/-- A lexeme is the same in front of what is apart. -/
theorem Lexeme.append {c : Char} {front rest : List Char} {kind : TokenClass} {n : ℕ}
    (h : Lexeme c front kind n) (hrest : Apart rest) : Lexeme c (front ++ rest) kind n :=
  lexeme?_iff.1 ((lexeme?_append hrest c front).trans h.lexeme?_eq)

/-- **A text splits as it does alone**, from every column on and in front of everything that is
apart from it; only the columns of the tokens change. -/
theorem exists_splits_of_scan {column : ℕ} {cs : List Char} {ts : List Token}
    (h : scan column cs = .ok ts) (start : ℕ) {rest : List Char} (hrest : Apart rest) :
    ∃ us next, Splits start cs rest us next ∧ us.map bare = ts.map bare := by
  fun_induction scan column cs generalizing ts start with
  | case1 =>
      cases h
      exact ⟨[], start, fun us hus => hus, rfl⟩
  | case2 column c cs hc ih =>
      obtain ⟨us, next, hsplits, hus⟩ := ih h (nextColumn start c)
      refine ⟨us, next, fun vs hvs => ?_, hus⟩
      rw [List.cons_append, scan_cons_ignored hc]
      exact hsplits vs hvs
  | case3 => cases h
  | case4 column c cs hc kind n hlexeme ih =>
      cases hs : scan (column + 1 + n) (cs.drop n) with
      | error fault => rw [hs] at h; cases h
      | ok ts' =>
          rw [hs] at h
          cases h
          have hl := Lexeme.of_lexeme? hlexeme
          obtain ⟨us, next, hsplits, hus⟩ := ih hs (start + 1 + n)
          refine ⟨ofLexeme kind (c :: cs.take n) start :: us, next, fun vs hvs => ?_, ?_⟩
          · rw [List.cons_append, (hl.append hrest).scan_cons,
              List.drop_append_of_le_length hl.length_le,
              List.take_append_of_le_length hl.length_le, hsplits vs hvs]
            rfl
          · rw [List.map_cons, List.map_cons, hus]
            rfl

/-! ### Expressions in a longer text -/

/-- **The reference grammar does not look at columns**: tokens that differ by nothing else have a
tree as well, and it denotes the same. -/
theorem Expression.of_bare {k : ℕ} {ts vs : List Token} {e : ParseTree} (h : Expression k ts vs e)
    {us : List Token} (hus : us.map bare = ts.map bare) :
    ∃ ws e', Expression k us ws e' ∧ ∀ f, e.Denotes f → e'.Denotes f := by
  induction h generalizing us with
  | @operand k t ht =>
      obtain ⟨u, us, rfl, hu, hnil⟩ := List.map_eq_cons_iff.1 hus
      obtain rfl := List.map_eq_nil_iff.1 hnil
      have htext := eq_of_bare hu text
      refine ⟨_, _, .operand ((eq_of_bare hu kind).trans ht), fun f hf => ?_⟩
      cases hf with
      | number hn hx => exact .number (by rw [htext, hn]) (by rw [htext, hx])
      | name hn =>
          rw [← htext] at hn ⊢
          exact .name hn
  | group ho hc _ ih =>
      obtain ⟨o', us, rfl, ho', hus⟩ := List.map_eq_cons_iff.1 hus
      rw [List.map_append] at hus
      obtain ⟨ms, cs, rfl, hms, hcs⟩ := List.map_eq_append_iff.1 hus
      obtain ⟨c', cs, rfl, hc', hnil⟩ := List.map_eq_cons_iff.1 hcs
      obtain rfl := List.map_eq_nil_iff.1 hnil
      obtain ⟨ws, e', he', hdenotes⟩ := ih hms
      exact ⟨_, e', .group ((eq_of_bare ho' isOpening).trans ho)
        ((eq_of_bare hc' isClosing).trans hc) he', hdenotes⟩
  | minus ht _ ih =>
      obtain ⟨t', us, rfl, ht', hus⟩ := List.map_eq_cons_iff.1 hus
      obtain ⟨ws, e', he', hdenotes⟩ := ih hus
      refine ⟨_, _, .minus ((eq_of_bare ht' isMinus).trans ht) he', fun f hf => ?_⟩
      cases hf with
      | minus hf => exact .minus (hdenotes _ hf)
  | call hf ho hc _ ih =>
      obtain ⟨g, us, rfl, hg, hus⟩ := List.map_eq_cons_iff.1 hus
      obtain ⟨o', us, rfl, ho', hus⟩ := List.map_eq_cons_iff.1 hus
      rw [List.map_append] at hus
      obtain ⟨ms, cs, rfl, hms, hcs⟩ := List.map_eq_append_iff.1 hus
      obtain ⟨c', cs, rfl, hc', hnil⟩ := List.map_eq_cons_iff.1 hcs
      obtain rfl := List.map_eq_nil_iff.1 hnil
      obtain ⟨ws, e', he', hdenotes⟩ := ih hms
      refine ⟨_, _, .call ⟨(eq_of_bare hg kind).trans hf.1, (eq_of_bare hg isAggregate).trans hf.2⟩
        ((eq_of_bare ho' isOpening).trans ho) ((eq_of_bare hc' isClosing).trans hc) he',
        fun f hf => ?_⟩
      cases hf with
      | call hop hf => exact .call (by rwa [eq_of_bare hg text]) (hdenotes _ hf)
  | aggregate hf ho hi h₁ h₂ hc _ _ ihl ihb =>
      obtain ⟨g, us, rfl, hg, hus⟩ := List.map_eq_cons_iff.1 hus
      obtain ⟨o', us, rfl, ho', hus⟩ := List.map_eq_cons_iff.1 hus
      obtain ⟨i', us, rfl, hi', hus⟩ := List.map_eq_cons_iff.1 hus
      obtain ⟨s₁', us, rfl, h₁', hus⟩ := List.map_eq_cons_iff.1 hus
      rw [List.map_append] at hus
      obtain ⟨ls, us, rfl, hls, hus⟩ := List.map_eq_append_iff.1 hus
      obtain ⟨s₂', us, rfl, h₂', hus⟩ := List.map_eq_cons_iff.1 hus
      rw [List.map_append] at hus
      obtain ⟨bs, cs, rfl, hbs, hcs⟩ := List.map_eq_append_iff.1 hus
      obtain ⟨c', cs, rfl, hc', hnil⟩ := List.map_eq_cons_iff.1 hcs
      obtain rfl := List.map_eq_nil_iff.1 hnil
      obtain ⟨lv, l', hl', hlimit⟩ := ihl hls
      obtain ⟨bv, b', hb', hbody⟩ := ihb hbs
      refine ⟨_, _, .aggregate ((eq_of_bare hg isAggregate).trans hf)
        ((eq_of_bare ho' isOpening).trans ho) ((eq_of_bare hi' kind).trans hi)
        ((eq_of_bare h₁' isComma).trans h₁) ((eq_of_bare h₂' isComma).trans h₂)
        ((eq_of_bare hc' isClosing).trans hc) hl' hb', fun f hf => ?_⟩
      cases hf with
      | aggregate hl hb =>
          rw [← eq_of_bare hg counting, ← eq_of_bare hi' text]
          exact .aggregate (hlimit _ hl) (hbody _ hb)
  | binary hop hk _ _ ihl ihr =>
      rw [List.map_append] at hus
      obtain ⟨ls, us, rfl, hls, hus⟩ := List.map_eq_append_iff.1 hus
      obtain ⟨t', rs, rfl, ht', hrs⟩ := List.map_eq_cons_iff.1 hus
      obtain ⟨lv, l', hl', hleft⟩ := ihl hls
      obtain ⟨rv, r', hr', hright⟩ := ihr hrs
      have hkind := eq_of_bare ht' kind
      rw [← hkind] at hop hk hl' hr'
      refine ⟨_, _, .binary hop hk hl' hr', fun f hf => ?_⟩
      cases hf with
      | binary ho hl hr =>
          exact .binary (by rwa [eq_of_bare ht' text]) (hleft _ hl) (hright _ hr)

/-- **A text that is read also reads where it is pasted.** -/
theorem reads_of_ofText {text : String} {f : Formula} (h : Formula.ofText text none = .ok f) :
    Reads text.toList f ∧ f.WellScoped := by
  obtain ⟨ts, vs, e, htext, he, -, hf, hscoped⟩ := exists_denotes_of_ofText h
  refine ⟨fun column rest hrest => ?_, hscoped⟩
  obtain ⟨us, next, hsplits, hus⟩ :=
    exists_splits_of_scan (ofText_eq_ok_iff.1 htext).1 column hrest.apart
  obtain ⟨ws, e', he', hdenotes⟩ := he.of_bare hus
  exact ⟨next, us, ws, e', hsplits, he', hdenotes f hf⟩

/-! ### Pasting -/

/-- The builder's answer to an aggregate whose limit and body are well scoped. -/
theorem ParseTree.Denotes.build_aggregate {e : ParseTree} {op : AggregateOp} {counter : String}
    {limit body : Formula} (h : Denotes e (.aggregate op counter limit body))
    (hlimit : limit.WellScoped) (hbody : body.WellScoped) :
    e.build = Formula.ofAggregate op (Formula.ofOperand counter) limit body := by
  cases h with
  | aggregate hl hb => simp only [build, hl.build_eq hlimit, hb.build_eq hbody]

end Token

namespace Formula

/-- **Texts compose as their formulas do.** Of two texts that are read, one in parentheses reads as
its formula, two in parentheses with an operator between them as the operation on both formulas, one
in parentheses behind a minus or a function as what that makes of its formula, and two behind an
identifier in an aggregate as the aggregate of their formulas. An aggregate is refused exactly if
its counter is reserved or bound again in the second text. -/
theorem ofText_composed {a b : String} {A B : Formula} (ha : ofText a none = .ok A)
    (hb : ofText b none = .ok B) :
    ofText ("(" ++ a ++ ")") none = .ok A ∧
      (∀ op : BinaryOp,
        ofText ("(" ++ a ++ ")" ++ op.symbol ++ "(" ++ b ++ ")") none = .ok (.binary op A B)) ∧
      ofText ("-(" ++ a ++ ")") none = .ok (.unary .negate A) ∧
      (∀ op : UnaryOp, op ≠ .negate →
        ofText (op.symbol ++ "(" ++ a ++ ")") none = .ok (.unary op A)) ∧
      ∀ (op : AggregateOp) (i : String), Token.LexesAlone i →
        ofText (op.symbol ++ "(" ++ i ++ "," ++ a ++ "," ++ b ++ ")") none =
          if isReserved i then .error (.invalidCounter i .reserved)
          else if B.binds i then .error (.invalidCounter i .rebound)
          else .ok (.aggregate op i A B) := by
  obtain ⟨hA, hscopedA⟩ := Token.reads_of_ofText ha
  obtain ⟨hB, hscopedB⟩ := Token.reads_of_ofText hb
  have hgroup (text : String) : ("(" ++ text ++ ")").toList = '(' :: (text.toList ++ [')']) := by
    simp [String.toList_append]
  refine ⟨?_, fun op => ?_, ?_, fun op hop => ?_, fun op i hi => ?_⟩
  · exact Token.Writes.ofText_eq (by rw [hgroup]; exact hA.group) hscopedA
  · refine Token.Reads.ofText_eq ?_ ⟨hscopedA, hscopedB⟩
    have hrow := hA.group.row hB.group op
    rw [← hgroup, ← hgroup] at hrow
    simpa [String.toList_append] using hrow
  · refine Token.Writes.ofText_eq ?_ hscopedA
    simpa [String.toList_append] using hA.group.minus
  · refine Token.Writes.ofText_eq ?_ hscopedA
    simpa [String.toList_append] using hA.call hop
  · have hwrites : Token.Writes
        (op.symbol ++ "(" ++ i ++ "," ++ a ++ "," ++ b ++ ")").toList (.aggregate op i A B) := by
      simpa [String.toList_append] using hA.aggregate hi hB op
    obtain ⟨e, hdenotes, hread⟩ := hwrites.reads.exists_build
    rw [hread, hdenotes.build_aggregate hscopedA hscopedB, Token.ParseTree.ofOperand_name hi.2]
    rfl

/-- A difference over two lines, and a comparison of a sum and a factorial: loose operators do not
leave their parentheses, and the counter of the sum cannot be bound around it. -/
theorem ofText_composed_lines :
    let A : Formula := .binary .sub (.var "x") (.binary .mul (.var "y") (.var "z"))
    let B : Formula :=
      .binary .ne (.aggregate .sum "k" (.var "n") (.var "k")) (.unary .factorial (.var "w"))
    ofText " x -\n y*z " none = .ok A ∧ ofText "sum(k,n,k) !=\t!(w)" none = .ok B ∧
      ofText "( x -\n y*z )^(sum(k,n,k) !=\t!(w))" none = .ok (.binary .pow A B) ∧
      ofText "!( x -\n y*z )" none = .ok (.unary .factorial A) ∧
      ofText "mult(i, x -\n y*z ,sum(k,n,k) !=\t!(w))" none = .ok (.aggregate .mult "i" A B) ∧
      ofText "mult(k, x -\n y*z ,sum(k,n,k) !=\t!(w))" none =
        .error (.invalidCounter "k" .rebound) := by
  intro A B
  have hfirst : Token.ofText " x -\n y*z " = .ok [⟨"x", .operand, some 2⟩, ⟨"-", .additive, some 4⟩,
      ⟨"y", .operand, some 2⟩, ⟨"*", .multiplicative, some 3⟩, ⟨"z", .operand, some 4⟩] := by
    decide +kernel
  have hsecond : Token.ofText "sum(k,n,k) !=\t!(w)" = .ok [⟨"sum", .function, some 1⟩,
      ⟨"(", .structural, some 4⟩, ⟨"k", .operand, some 5⟩, ⟨",", .structural, some 6⟩,
      ⟨"n", .operand, some 7⟩, ⟨",", .structural, some 8⟩, ⟨"k", .operand, some 9⟩,
      ⟨")", .structural, some 10⟩, ⟨"!=", .comparison, some 12⟩, ⟨"!", .function, some 15⟩,
      ⟨"(", .structural, some 16⟩, ⟨"w", .operand, some 17⟩, ⟨")", .structural, some 18⟩] := by
    decide +kernel
  have ha : ofText " x -\n y*z " none = .ok A := by
    simp only [ofText, hfirst]
    rfl
  have hb : ofText "sum(k,n,k) !=\t!(w)" none = .ok B := by
    simp only [ofText, hsecond]
    rfl
  have hletter (c : Char) (hc : Text.isLetter c = true) (hw : Token.isFunctionWord [c] = false) :
      Token.LexesAlone (String.ofList [c]) :=
    Token.isName_iff.1 ⟨c, [], String.toList_ofList, hc, by simp, hw⟩
  obtain ⟨-, hbinary, -, hcall, haggregate⟩ := ofText_composed ha hb
  refine ⟨ha, hb, hbinary .pow, hcall .factorial (by decide), ?_, ?_⟩
  · exact haggregate .mult "i" (hletter 'i' (by decide +kernel) (by decide +kernel))
  · exact haggregate .mult "k" (hletter 'k' (by decide +kernel) (by decide +kernel))

end Formula

end Formulary
