import Formulary.Evaluation
import Formulary.Proofs.Contradictions
import Formulary.Proofs.Decimals

/-!
# Rendered Formulas Read Back

A formula is written with all its parentheses, so its text should read as the same formula. The
one exception are negative numbers: formula text has no negative numerals, and what is written for
such a number reads as a minus in front of the number without its sign. This module proves both,
and that the difference does not show when the formula is evaluated.

## Conventions

`Writes cs f` says of a text that it reads as the formula wherever a value may stand: what follows
it only has to stop it, and its tokens are a single value of the reference grammar that denotes
the formula. `Reads cs f` says this of a text that reads as the formula where a parenthesis or a
comma follows; operators may then stand loose in it. Each way to write a formula is one lemma about
the two, and the text of a formula is put together from them.

`Writable` are the formulas that have a text at all: their numbers are numbers, and each of their
names is the only token of its own text.

## Main results

* `writes_render`: the text of a formula writes it, but for negative numbers.
* `run_signless`: negative numbers written with a minus do not change what a formula evaluates to.
* `writable_of_ofText`: what is read from a text is writable and has no negative numbers.
* `ofText_render`: a formula is read back from its text.
-/

namespace Formulary

/-! ### Formulas that have a text -/

/-- The formula with each **negative** number replaced by a minus in front of the number without its
sign. -/
def Formula.signless : Formula → Formula
  | literal value =>
    if Number.isNegative value then unary .negate (literal (-value)) else literal value
  | var name => var name
  | unary op operand => unary op operand.signless
  | binary op left right => binary op left.signless right.signless
  | aggregate op counter limit body => aggregate op counter limit.signless body.signless

/-- Whether a text is the only token of itself, an operand, and no number. -/
def Token.LexesAlone (name : String) : Prop :=
  (∃ column, ofText name = .ok [⟨name, .operand, column⟩]) ∧ isNumber name = false

/-- Whether a formula is **writable**: its literals are numbers, and each name is the only token of
its own text. -/
def Formula.Writable : Formula → Prop
  | literal value => value.isNaN = false
  | var name => Token.LexesAlone name
  | unary _ operand => operand.Writable
  | binary _ left right => left.Writable ∧ right.Writable
  | aggregate _ counter limit body =>
    Token.LexesAlone counter ∧ limit.Writable ∧ body.Writable

/-- The signless form binds the same counters. -/
theorem Formula.binds_signless (name : String) (f : Formula) :
    f.signless.binds name = f.binds name := by
  induction f with
  | literal value =>
      rw [signless]
      split <;> rfl
  | var => rfl
  | unary _ _ ih => exact ih
  | binary _ _ _ ihl ihr => simp only [signless, binds, ihl, ihr]
  | aggregate _ _ _ _ ihl ihb => simp only [signless, binds, ihl, ihb]

/-- The signless form is as well scoped as the formula. -/
theorem Formula.WellScoped.signless {f : Formula} (h : f.WellScoped) : f.signless.WellScoped := by
  induction f with
  | literal value =>
      rw [Formula.signless]
      split <;> trivial
  | var => trivial
  | unary _ _ ih => exact ih h
  | binary _ _ _ ihl ihr => exact ⟨ihl h.1, ihr h.2⟩
  | aggregate _ counter _ body ihl ihb =>
      obtain ⟨hl, hb, hn, hr, hfree⟩ := h
      exact ⟨ihl hl, ihb hb, hn, hr, by rwa [← binds_iff, binds_signless, binds_iff]⟩

/-- **A minus in front of a number evaluates to the negative number**, in both modes. -/
theorem Formula.run_signless {f : Formula} (h : f.Writable) (mode : Mode) (samples : Samples) :
    f.signless.run mode samples = f.run mode samples := by
  induction f with
  | literal value =>
      rw [signless]
      split
      · funext w
        simp only [run, UnaryOp.value, if_pos, Number.neg_neg_eq h]
      · rfl
  | var => rfl
  | unary _ _ ih =>
      funext w
      simp only [signless, run, ih h]
  | binary _ _ _ ihl ihr =>
      funext w
      simp only [signless, run, ihl h.1, ihr h.2]
  | aggregate _ _ _ _ ihl ihb =>
      funext w
      simp only [signless, run, ihl h.2.1, ihb h.2.2]

namespace Token

/-! ### Texts of formulas -/

/-- Whether a text **writes** a formula: in front of everything that stops it, it splits into
tokens that are one value of the reference grammar, and that value denotes the formula. -/
def Writes (cs : List Char) (f : Formula) : Prop :=
  ∀ column rest, Stops rest → ∃ next ts vs e, Splits column cs rest ts next ∧
    Expression valueLevel ts vs e ∧ e.Denotes f

/-- A number writes its value. -/
theorem writes_number {text : String} {x : Float} (hn : isNumber text = true)
    (hx : Number.read? text = some x) : Writes text.toList (.literal x) := by
  intro column rest hrest
  obtain ⟨next, hsplits⟩ := splits_number hn hrest column
  exact ⟨next, _, _, _, hsplits, .operand rfl, .number hn hx⟩

/-- A name writes itself. -/
theorem writes_name {name : String} (h : LexesAlone name) : Writes name.toList (.var name) := by
  intro column rest hrest
  obtain ⟨next, hsplits⟩ := splits_name (isName_iff.2 h) hrest column
  exact ⟨next, _, _, _, hsplits, .operand rfl, .name h.2⟩

/-- A minus in front of a text negates. -/
theorem Writes.minus {cs : List Char} {f : Formula} (h : Writes cs f) :
    Writes ('-' :: cs) (.unary .negate f) := by
  intro column rest hrest
  obtain ⟨next, ts, vs, e, hsplits, he, hf⟩ := h (column + 1) rest hrest
  exact ⟨next, _, _, _, (splits_minus column _).append hsplits, .minus rfl he, .minus hf⟩

/-- Whether a continuation **closes** an argument or a group, or is the end of the text. -/
def Closes (rest : List Char) : Prop :=
  ∀ c ∈ rest.head?, c = ')' ∨ c = ','

/-- The end of the text closes. -/
theorem closes_nil : Closes [] := by
  intro c hc
  cases hc

/-- A closing parenthesis closes. -/
theorem closes_closing (rest : List Char) : Closes (')' :: rest) := by
  rintro c ⟨⟩
  exact .inl rfl

/-- A comma closes. -/
theorem closes_comma (rest : List Char) : Closes (',' :: rest) := by
  rintro c ⟨⟩
  exact .inr rfl

/-- What closes also stops. -/
theorem Closes.stops {rest : List Char} (h : Closes rest) : Stops rest := by
  cases rest with
  | nil => exact stops_nil
  | cons c rest =>
      rcases h c rfl with rfl | rfl
      · exact stops_closing rest
      · exact stops_comma rest

/-- Whether a text **reads** as a formula: in front of everything that closes it, it splits into
tokens that are an expression of the reference grammar, and that expression denotes the formula. -/
def Reads (cs : List Char) (f : Formula) : Prop :=
  ∀ column rest, Closes rest → ∃ next ts vs e, Splits column cs rest ts next ∧
    Expression 1 ts vs e ∧ e.Denotes f

/-- A text that writes a formula reads as it. -/
theorem Writes.reads {cs : List Char} {f : Formula} (h : Writes cs f) : Reads cs f := by
  intro column rest hrest
  obtain ⟨next, ts, vs, e, hsplits, he, hf⟩ := h column rest hrest.stops
  exact ⟨next, ts, vs, e, hsplits, he.formula, hf⟩

/-- Parentheses around a text make a value of it. -/
theorem Reads.group {cs : List Char} {f : Formula} (h : Reads cs f) :
    Writes ('(' :: (cs ++ [')'])) f := by
  intro column rest hrest
  obtain ⟨next, ts, vs, e, hsplits, he, hf⟩ :=
    h (column + 1) (')' :: rest) (closes_closing rest)
  have hall := (splits_opening column _).append (hsplits.append (splits_closing next rest))
  exact ⟨next + 1, _, _, _, hall, .group rfl rfl he, hf⟩

/-- The function of an operation is a token of its own in front of a parenthesis. -/
theorem splits_function {op : UnaryOp} (hop : op ≠ .negate) (column : ℕ) (rest : List Char) :
    ∃ next, Splits column op.symbol.toList ('(' :: rest)
      [⟨op.symbol, .function, some column⟩] next := by
  by_cases hfactorial : op = .factorial
  · subst hfactorial
    exact ⟨column + 1, splits_factorial (by simp) column⟩
  · have hword : op.symbol ∈ functionWords := by
      revert hop hfactorial
      cases op <;> decide
    exact splits_word hword (stops_opening rest) column

/-- A function with a text in parentheses applies it. -/
theorem Reads.call {cs : List Char} {f : Formula} (h : Reads cs f) {op : UnaryOp}
    (hop : op ≠ .negate) : Writes (op.symbol.toList ++ '(' :: (cs ++ [')'])) (.unary op f) := by
  intro column rest hrest
  obtain ⟨start, hfunction⟩ := splits_function hop column (cs ++ [')'] ++ rest)
  obtain ⟨next, ts, vs, e, hsplits, he, hf⟩ :=
    h (start + 1) (')' :: rest) (closes_closing rest)
  have hall := hfunction.append
    ((splits_opening start _).append (hsplits.append (splits_closing next rest)))
  have haggregate : (⟨op.symbol, .function, some column⟩ : Token).isAggregate = false := by
    cases op <;> rfl
  exact ⟨next + 1, _, _, _, hall, .call ⟨rfl, haggregate⟩ rfl rfl he,
    .call (UnaryOp.ofFunction?_eq_some_iff.1 (UnaryOp.ofFunction?_symbol hop)) hf⟩

/-- The operator of an operation is a token of its own, and it stops what stands in front. -/
theorem exists_splits_operator (op : BinaryOp) (column : ℕ) (rest : List Char) :
    Stops (op.symbol.toList ++ rest) ∧ ∃ kind next, kind.isBinary = true ∧
      Splits column op.symbol.toList rest [⟨op.symbol, kind, some column⟩] next := by
  have symbol (c : Char) (kind : TokenClass) (h : (c, kind) ∈ symbols)
      (hk : kind.isBinary = true) : Stops ([c] ++ rest) ∧ ∃ kind next, kind.isBinary = true ∧
        Splits column [c] rest [⟨String.ofList [c], kind, some column⟩] next :=
    ⟨stops_cons (.inr ⟨kind, h⟩) rest, kind, _, hk, splits_symbol h column rest⟩
  cases op with
  | ne => exact ⟨stops_cons (.inl rfl) _, .comparison, _, rfl, splits_unequal column rest⟩
  | add | sub => exact symbol _ .additive (by decide) rfl
  | mul | div | mod => exact symbol _ .multiplicative (by decide) rfl
  | pow => exact symbol _ .power (by decide) rfl
  | eq | gt | lt => exact symbol _ .comparison (by decide) rfl

/-- Two values with an operator between them. -/
theorem Writes.row {cs ds : List Char} {f g : Formula} (h : Writes cs f) (h' : Writes ds g)
    (op : BinaryOp) : Reads (cs ++ (op.symbol.toList ++ ds)) (.binary op f g) := by
  intro column rest hrest
  have hstops : Stops (op.symbol.toList ++ ds ++ rest) := by
    rw [List.append_assoc]
    exact (exists_splits_operator op column _).1
  obtain ⟨middle, ts, vs, l, hleft, hl, hf⟩ := h column _ hstops
  obtain ⟨-, kind, start, hkind, hop⟩ := exists_splits_operator op middle (ds ++ rest)
  obtain ⟨next, us, ws, r, hright, hr, hg⟩ := h' start rest hrest.stops
  have hlevel : kind.level < valueLevel := level_lt_of_isBinary hkind
  let t : Token := ⟨op.symbol, kind, some middle⟩
  have he : Expression 1 (ts ++ t :: us) (vs ++ t :: ws) (.binary t hkind l r) :=
    .binary hkind (level_pos_of_isBinary hkind) (hl.mono hlevel.le) (hr.mono hlevel)
  exact ⟨next, _, _, _, hleft.append (hop.append hright), he,
    .binary (BinaryOp.ofSymbol?_eq_some_iff.1 (BinaryOp.ofSymbol?_symbol op)) hf hg⟩

/-- An aggregate of a counter and two texts. -/
theorem Reads.aggregate {counter : String} {cs ds : List Char} {f g : Formula} (h : Reads cs f)
    (hcounter : LexesAlone counter) (h' : Reads ds g) (op : AggregateOp) :
    Writes (op.symbol.toList ++ '(' :: (counter.toList ++ ',' :: (cs ++ ',' :: (ds ++ [')']))))
      (.aggregate op counter f g) := by
  intro column rest hrest
  have hword : op.symbol ∈ functionWords := by
    cases op <;> decide
  obtain ⟨start, hfunction⟩ := splits_word hword
    (stops_opening (counter.toList ++ ',' :: (cs ++ ',' :: (ds ++ [')'])) ++ rest)) column
  obtain ⟨first, hname⟩ := splits_name (isName_iff.2 hcounter)
    (stops_comma (cs ++ ',' :: (ds ++ [')']) ++ rest)) (start + 1)
  obtain ⟨second, ls, lv, l, hlimit, hl, hf⟩ :=
    h (first + 1) (',' :: (ds ++ [')']) ++ rest) (closes_comma _)
  obtain ⟨next, bs, bv, b, hbody, hb, hg⟩ :=
    h' (second + 1) (')' :: rest) (closes_closing rest)
  have hall := hfunction.append ((splits_opening start _).append (hname.append
    ((splits_comma first _).append (hlimit.append ((splits_comma second _).append
      (hbody.append (splits_closing next rest)))))))
  have haggregate : (⟨op.symbol, .function, some column⟩ : Token).isAggregate = true := by
    cases op <;> rfl
  have hcounting : (⟨op.symbol, .function, some column⟩ : Token).counting = op := by
    cases op <;> rfl
  refine ⟨next + 1, _, _, _, hall, .aggregate haggregate rfl rfl rfl rfl rfl hl hb, ?_⟩
  have hdenotes : ParseTree.Denotes (.aggregate ⟨op.symbol, .function, some column⟩ haggregate
      ⟨counter, .operand, some (start + 1)⟩ rfl l b) _ := .aggregate hf hg
  rwa [hcounting] at hdenotes

/-- The text of a number writes the number, or a minus in front of it. -/
theorem writes_literalText {x : Float} (hx : x.isNaN = false) :
    Writes (Formula.literalText x).toList (Formula.literal x).signless := by
  rw [Formula.signless]
  cases hs : Number.isNegative x with
  | false =>
      obtain ⟨hn, hread⟩ := Formula.read?_literalText hx hs
      exact writes_number hn hread
  | true =>
      have hs' : Number.isNegative (-x) = false := by
        rw [Number.isNegative_neg hx, hs, Bool.not_true]
      obtain ⟨hn, hread⟩ := Formula.read?_literalText (Number.isNaN_neg hx) hs'
      have hwrites := writes_number hn hread
      rcases Formula.literalText_of_isNegative hx hs with htext | htext
      · rw [htext, String.toList_append]
        exact hwrites.minus
      · rw [htext, String.toList_append, String.toList_append, List.append_assoc]
        exact hwrites.reads.group.minus

/-- **The text of a formula writes its signless form.** -/
theorem writes_render {f : Formula} (hf : f.Writable) : Writes f.render.toList f.signless := by
  induction f with
  | literal value => exact writes_literalText hf
  | var name => exact writes_name hf
  | unary op operand ih =>
      have htext : (Formula.unary op operand).render.toList =
          op.symbol.toList ++ '(' :: (operand.render.toList ++ [')']) := by
        simp only [Formula.render, String.toList_append, List.append_assoc]
        rfl
      rw [htext]
      by_cases hop : op = .negate
      · subst hop
        exact (ih hf).reads.group.minus
      · exact (ih hf).reads.call hop
  | binary op left right ihl ihr =>
      have htext : (Formula.binary op left right).render.toList =
          '(' :: (left.render.toList ++ (op.symbol.toList ++ (right.render.toList ++ [')']))) := by
        simp only [Formula.render, String.toList_append, List.append_assoc]
        rfl
      have hrow := ((ihl hf.1).row (ihr hf.2) op).group
      simp only [List.append_assoc] at hrow
      rw [htext]
      exact hrow
  | aggregate op counter limit body ihl ihb =>
      have htext : (Formula.aggregate op counter limit body).render.toList =
          op.symbol.toList ++ '(' :: (counter.toList ++ ',' :: (limit.render.toList ++
            ',' :: (body.render.toList ++ [')']))) := by
        simp only [Formula.render, String.toList_append, List.append_assoc]
        rfl
      rw [htext]
      exact (ihl hf.2.1).reads.aggregate hf.1 (ihb hf.2.2).reads op

/-- What is read from a text is what the builder makes of the expression that it splits into. -/
theorem Reads.exists_build {text : String} {f : Formula} (h : Reads text.toList f) :
    ∃ e, ParseTree.Denotes e f ∧ Formula.ofText text none = e.build := by
  obtain ⟨next, ts, vs, e, hsplits, he, hdenotes⟩ := h 1 [] closes_nil
  have hne : ts ≠ [] := by
    cases he <;> simp
  exact ⟨e, hdenotes, he.ofText_eq (ofText_eq_ok_iff.2 ⟨hsplits.scan_eq, hne⟩) (by simp)⟩

/-- A text that reads as a well scoped formula is read. -/
theorem Reads.ofText_eq {text : String} {f : Formula} (h : Reads text.toList f)
    (hf : f.WellScoped) : Formula.ofText text none = .ok f := by
  obtain ⟨e, hdenotes, hread⟩ := h.exists_build
  rw [hread, hdenotes.build_eq hf]

/-- A text that writes a well scoped formula is read. -/
theorem Writes.ofText_eq {text : String} {f : Formula} (h : Writes text.toList f)
    (hf : f.WellScoped) : Formula.ofText text none = .ok f :=
  h.reads.ofText_eq hf

/-! ### Formulas that are read -/

/-- **What is read is writable and signless**, if the operands are names and numbers. Scope comes
in because a number may stand in the place of a counter. -/
theorem Expression.writable {k : ℕ} {ts vs : List Token} {e : ParseTree}
    (he : Expression k ts vs e)
    (hts : ∀ t ∈ ts, t.kind = .operand → IsName t.text ∨ isNumber t.text = true) {f : Formula}
    (hf : e.Denotes f) (hscoped : f.WellScoped) : f.Writable ∧ f.signless = f := by
  induction he generalizing f with
  | @operand _ t ht =>
      cases hf with
      | number hn hx =>
          obtain ⟨digits, exponent, hread⟩ := Number.exists_read?_of_isNumber hn
          obtain ⟨hs, hnan⟩ := Number.isNegative_nearest digits exponent
          obtain rfl := Option.some.inj (hread.symm.trans hx)
          refine ⟨hnan, ?_⟩
          rw [Formula.signless, hs, if_neg (by decide)]
      | name hn =>
          exact ⟨isName_iff.1 ((hts t (by simp) ht).resolve_right (by simp [hn])), rfl⟩
  | group _ _ _ ih => exact ih (fun t ht => hts t (by simp [ht])) hf hscoped
  | minus _ _ ih =>
      cases hf with
      | minus hf =>
          obtain ⟨hw, hs⟩ := ih (fun t ht => hts t (by simp [ht])) hf hscoped
          exact ⟨hw, congrArg (Formula.unary .negate) hs⟩
  | call _ _ _ _ ih =>
      cases hf with
      | call _ hf =>
          obtain ⟨hw, hs⟩ := ih (fun t ht => hts t (by simp [ht])) hf hscoped
          exact ⟨hw, congrArg (Formula.unary _) hs⟩
  | aggregate _ _ hi _ _ _ _ _ ihl ihb =>
      cases hf with
      | aggregate hl hb =>
          obtain ⟨hlscoped, hbscoped, hn, -⟩ := hscoped
          obtain ⟨hlw, hls⟩ := ihl (fun t ht => hts t (by simp [ht])) hl hlscoped
          obtain ⟨hbw, hbs⟩ := ihb (fun t ht => hts t (by simp [ht])) hb hbscoped
          have hname := (hts _ (by simp) hi).resolve_right (by simp [hn])
          exact ⟨⟨isName_iff.1 hname, hlw, hbw⟩, congrArg₂ (Formula.aggregate _ _) hls hbs⟩
  | binary _ _ _ _ ihl ihr =>
      cases hf with
      | binary _ hl hr =>
          obtain ⟨hlw, hls⟩ := ihl (fun t ht => hts t (by simp [ht])) hl hscoped.1
          obtain ⟨hrw, hrs⟩ := ihr (fun t ht => hts t (by simp [ht])) hr hscoped.2
          exact ⟨⟨hlw, hrw⟩, congrArg₂ (Formula.binary _) hls hrs⟩

/-- A formula that is read from a text is writable, well scoped and signless. -/
theorem writable_of_ofText {text : String} {declared : Option (List String)} {f : Formula}
    (h : Formula.ofText text declared = .ok f) : f.Writable ∧ f.WellScoped ∧ f.signless = f := by
  obtain ⟨ts, vs, e, htext, he, -, hf, hscoped⟩ := exists_denotes_of_ofText h
  have hoperands : ∀ t ∈ ts, t.kind = .operand → IsName t.text ∨ isNumber t.text = true :=
    fun t ht hk => isName_or_isNumber_of_mem_scan (ofText_eq_ok_iff.1 htext).1 ht hk
  obtain ⟨hw, hs⟩ := he.writable hoperands hf hscoped
  exact ⟨hw, hscoped, hs⟩

end Token

namespace Formula

/-- **A formula is read back from its text.** The text of a writable and well scoped formula reads
as the formula with its negative numbers replaced by a minus in front of a number, which evaluates
to the same in both modes. A formula that was itself read from a text has no negative numbers, and
it is read back as it is. -/
theorem ofText_render (f : Formula) :
    (f.Writable → f.WellScoped →
      ofText f.render none = .ok f.signless ∧
        ∀ store mode samples,
          f.signless.evaluate store mode samples = f.evaluate store mode samples) ∧
      ∀ text declared, ofText text declared = .ok f →
        f.Writable ∧ f.WellScoped ∧ f.signless = f ∧ ofText f.render none = .ok f := by
  have hwritten (hw : f.Writable) (hs : f.WellScoped) : ofText f.render none = .ok f.signless :=
    (Token.writes_render hw).ofText_eq hs.signless
  constructor
  · intro hw hs
    refine ⟨hwritten hw hs, ?_⟩
    intro store mode samples
    rw [evaluate, run_signless hw, evaluate]
  · intro text declared h
    obtain ⟨hw, hs, hsignless⟩ := Token.writable_of_ofText h
    have hread := hwritten hw hs
    rw [hsignless] at hread
    exact ⟨hw, hs, hsignless, hread⟩

/-- A sum up to the negative infinity, over powers of the negative zero. -/
theorem ofText_render_negative :
    let f : Formula := .aggregate .sum "i" (.literal (Float.ofBits 0xFFF0000000000000))
      (.binary .pow (.literal (Float.ofBits 0x8000000000000000)) (.var "i"))
    f.Writable ∧ f.WellScoped ∧
      ofText f.render none = .ok (.aggregate .sum "i"
        (.unary .negate (.literal (Float.ofBits 0x7FF0000000000000)))
        (.binary .pow (.unary .negate (.literal (Float.ofBits 0))) (.var "i"))) := by
  intro f
  have hi : Token.LexesAlone "i" :=
    Token.isName_iff.1 ⟨'i', [], rfl, by decide +kernel, by simp, by decide +kernel⟩
  have hlimit : (Float.ofBits 0xFFF0000000000000).isNaN = false := by decide
  have hbase : (Float.ofBits 0x8000000000000000).isNaN = false := by decide
  have hw : f.Writable := ⟨hi, hlimit, hbase, hi⟩
  have hs : f.WellScoped := ⟨trivial, ⟨trivial, trivial⟩, by decide, by decide, by decide⟩
  refine ⟨hw, hs, ?_⟩
  rw [((ofText_render f).1 hw hs).1]
  rfl

end Formula

end Formulary
