import Formulary.Formula.Parse
import Formulary.Proofs.Numerals
import Formulary.Proofs.Postorder

/-!
# Building Returns the Reference Tree

The builder is a second stack machine. It reads the listing of a tree and should return that tree,
with the operations in the place of their symbols, unless an aggregate's counter cannot be bound.
This module says what formula a tree of tokens denotes, and proves that the builder returns it
when it is well scoped and blames a counter when it is not.

## Conventions

`Denotes e f` replaces the texts of the tree `e` by what they stand for, by lists of the texts that
functions, operators and aggregates have (`functionTexts`, `operatorTexts`, `aggregateTexts`). It
does not look at the scope of counters: the counter of an aggregate is whatever its token says, a
number included. `WellScoped` then says which formulas have counters that can be bound. The two
together describe the builder without its stack and its tables.

`ParseTree.build` is what the builder makes of a tree, part by part and from left to right. It is
the bridge: the stack machine is `build` on every listing (`ofPostorder_postorder`), and all other
facts are inductions over the tree.

## Main results

* `UnaryOp.ofFunction?_eq_some_iff`, `BinaryOp.ofSymbol?_eq_some_iff`,
  `AggregateOp.ofSymbol?_eq_some_iff`: the tables of the builder are the lists of texts.
* `assemble_postorder`: the listing of a tree is one step of the stack machine.
* `ParseTree.Denotes.build_eq`, `ParseTree.Denotes.exists_invalidCounter`: the two outcomes for a
  tree whose symbols are known.
* `ofPostorder_toPostorder`: an accepted sequence is reordered and built by the reference grammar.
-/

namespace Formulary

/-! ### Texts of operations -/

/-- The texts of the functions of one argument. -/
def functionTexts : List (UnaryOp × String) :=
  [(.sqrt, "sqrt"), (.log10, "log"), (.ln, "ln"), (.sin, "sin"), (.cos, "cos"), (.tan, "tan"),
   (.sinh, "sinh"), (.cosh, "cosh"), (.tanh, "tanh"), (.asin, "asin"), (.acos, "acos"),
   (.atan, "atan"), (.abs, "abs"), (.ceil, "ceil"), (.floor, "floor"), (.factorial, "!")]

/-- The texts of the operators between values. -/
def operatorTexts : List (BinaryOp × String) :=
  [(.add, "+"), (.sub, "-"), (.mul, "*"), (.div, "/"), (.mod, "%"), (.pow, "^"), (.eq, "="),
   (.ne, "!="), (.gt, ">"), (.lt, "<")]

/-- The texts of the aggregates. -/
def aggregateTexts : List (AggregateOp × String) :=
  [(.sum, "sum"), (.mult, "mult")]

/-- The functions of the builder are those of the list. -/
theorem UnaryOp.ofFunction?_eq_some_iff {text : String} {op : UnaryOp} :
    ofFunction? text = some op ↔ (op, text) ∈ functionTexts := by
  constructor
  · intro h
    have hfound := List.find?_some h
    simp only [Bool.and_eq_true, bne_iff_ne, beq_iff_eq] at hfound
    obtain ⟨hne, rfl⟩ := hfound
    revert hne
    cases op <;> decide
  · have hall : ∀ p ∈ functionTexts, ofFunction? p.2 = some p.1 := by decide
    exact hall (op, text)

/-- The operators of the builder are those of the list. -/
theorem BinaryOp.ofSymbol?_eq_some_iff {text : String} {op : BinaryOp} :
    ofSymbol? text = some op ↔ (op, text) ∈ operatorTexts := by
  constructor
  · intro h
    obtain rfl : op.symbol = text := by simpa using List.find?_some h
    cases op <;> decide
  · have hall : ∀ p ∈ operatorTexts, ofSymbol? p.2 = some p.1 := by decide
    exact hall (op, text)

/-- The aggregates of the builder are those of the list. -/
theorem AggregateOp.ofSymbol?_eq_some_iff {text : String} {op : AggregateOp} :
    ofSymbol? text = some op ↔ (op, text) ∈ aggregateTexts := by
  constructor
  · intro h
    rw [ofSymbol?] at h
    split at h
    · rename_i htext
      cases h
      simp [aggregateTexts, htext]
    · split at h
      · rename_i htext
        cases h
        simp [aggregateTexts, htext]
      · cases h
  · have hall : ∀ p ∈ aggregateTexts, ofSymbol? p.2 = some p.1 := by decide
    exact hall (op, text)

instance (text : String) : Decidable (∃ op, (op, text) ∈ functionTexts) :=
  decidable_of_iff ((UnaryOp.ofFunction? text).isSome = true) <| by
    simp only [Option.isSome_iff_exists, UnaryOp.ofFunction?_eq_some_iff]

instance (text : String) : Decidable (∃ op, (op, text) ∈ operatorTexts) :=
  decidable_of_iff ((BinaryOp.ofSymbol? text).isSome = true) <| by
    simp only [Option.isSome_iff_exists, BinaryOp.ofSymbol?_eq_some_iff]

/-! ### Scope -/

/-- Whether an aggregate in a formula **rebinds** a name: at any depth, limits included. -/
inductive Formula.Rebinds (name : String) : Formula → Prop
  | unary {op : UnaryOp} {operand : Formula} (h : Rebinds name operand) :
      Rebinds name (.unary op operand)
  | left {op : BinaryOp} {left right : Formula} (h : Rebinds name left) :
      Rebinds name (.binary op left right)
  | right {op : BinaryOp} {left right : Formula} (h : Rebinds name right) :
      Rebinds name (.binary op left right)
  | counter {op : AggregateOp} {limit body : Formula} : Rebinds name (.aggregate op name limit body)
  | limit {op : AggregateOp} {counter : String} {limit body : Formula} (h : Rebinds name limit) :
      Rebinds name (.aggregate op counter limit body)
  | body {op : AggregateOp} {counter : String} {limit body : Formula} (h : Rebinds name body) :
      Rebinds name (.aggregate op counter limit body)

/-- The check of the builder finds the names that are rebound. -/
theorem Formula.binds_iff {name : String} {f : Formula} : f.binds name = true ↔ f.Rebinds name := by
  constructor
  · intro h
    induction f with
    | literal | var => cases h
    | unary _ _ ih => exact .unary (ih h)
    | binary _ _ _ ihl ihr =>
        rcases Bool.or_eq_true_iff.1 h with h | h
        · exact .left (ihl h)
        · exact .right (ihr h)
    | aggregate _ counter _ _ ihl ihb =>
        rcases Bool.or_eq_true_iff.1 h with h | h
        · rcases Bool.or_eq_true_iff.1 h with h | h
          · obtain rfl : counter = name := by simpa using h
            exact .counter
          · exact .limit (ihl h)
        · exact .body (ihb h)
  · intro h
    induction h with
    | unary _ ih => exact ih
    | left _ ih | right _ ih | limit _ ih | body _ ih => simp [binds, ih]
    | counter => simp [binds]

/-- The check of the builder passes the names that are not rebound. -/
theorem Formula.binds_eq_false_iff {name : String} {f : Formula} :
    f.binds name = false ↔ ¬ f.Rebinds name := by
  rw [← binds_iff, Bool.not_eq_true]

instance (name : String) (f : Formula) : Decidable (f.Rebinds name) :=
  decidable_of_iff _ Formula.binds_iff

/-- Whether a formula is **well scoped**: the counter of every aggregate is a name that is not
reserved and that no aggregate inside the body binds again. -/
def Formula.WellScoped : Formula → Prop
  | literal _ => True
  | var _ => True
  | unary _ operand => operand.WellScoped
  | binary _ left right => left.WellScoped ∧ right.WellScoped
  | aggregate _ counter limit body =>
    limit.WellScoped ∧ body.WellScoped ∧ isNumber counter = false ∧
      isReserved counter = false ∧ ¬ body.Rebinds counter

namespace Token

/-! ### What a tree denotes -/

/-- The aggregate operation of a token that counts. -/
def counting (f : Token) : AggregateOp :=
  if f.text = "sum" then .sum else .mult

/-- A token that counts has an aggregate operation. -/
theorem ofSymbol?_of_isAggregate {f : Token} (h : f.isAggregate = true) :
    AggregateOp.ofSymbol? f.text = some f.counting := by
  simp only [isAggregate, Bool.and_eq_true, Bool.or_eq_true, beq_iff_eq] at h
  rcases h.2 with ht | ht <;> simp [AggregateOp.ofSymbol?, counting, ht]

/-- A function that does not count has no aggregate operation. -/
theorem ofSymbol?_of_not_isAggregate {f : Token} (hk : f.kind = .function)
    (h : f.isAggregate = false) : AggregateOp.ofSymbol? f.text = none := by
  simp only [isAggregate, hk, beq_self_eq_true, Bool.true_and, Bool.or_eq_false_iff,
    beq_eq_false_iff_ne] at h
  simp [AggregateOp.ofSymbol?, h.1, h.2]

namespace ParseTree

/-- The formula that a tree of tokens **denotes**. -/
inductive Denotes : ParseTree → Formula → Prop
  | number {t : Token} {ht : t.kind = .operand} {x : Float} (hn : isNumber t.text = true)
      (hx : Number.read? t.text = some x) : Denotes (.operand t ht) (.literal x)
  | name {t : Token} {ht : t.kind = .operand} (hn : isNumber t.text = false) :
      Denotes (.operand t ht) (.var t.text)
  | minus {t : Token} {ht : t.kind = .negation} {e : ParseTree} {f : Formula} :
      Denotes e f → Denotes (.minus t ht e) (.unary .negate f)
  | call {t : Token} {ht : t.kind = .function ∧ t.isAggregate = false} {e : ParseTree}
      {f : Formula} {op : UnaryOp} (hop : (op, t.text) ∈ functionTexts) :
      Denotes e f → Denotes (.call t ht e) (.unary op f)
  | aggregate {t i : Token} {ht : t.isAggregate = true} {hi : i.kind = .operand}
      {l b : ParseTree} {limit body : Formula} :
      Denotes l limit → Denotes b body →
      Denotes (.aggregate t ht i hi l b) (.aggregate t.counting i.text limit body)
  | binary {t : Token} {ht : t.kind.isBinary = true} {l r : ParseTree} {left right : Formula}
      {op : BinaryOp} (hop : (op, t.text) ∈ operatorTexts) :
      Denotes l left → Denotes r right → Denotes (.binary t ht l r) (.binary op left right)

/-- A tree denotes one formula. -/
theorem Denotes.unique {e : ParseTree} {f g : Formula} (h : Denotes e f) (h' : Denotes e g) :
    f = g := by
  induction h generalizing g with
  | number hn hx =>
      cases h' with
      | number _ hx' => rw [Option.some.inj (hx.symm.trans hx')]
      | name hn' => rw [hn] at hn'; cases hn'
  | name hn =>
      cases h' with
      | number hn' _ => rw [hn] at hn'; cases hn'
      | name _ => rfl
  | minus _ ih =>
      cases h' with
      | minus h' => rw [ih h']
  | call hop _ ih =>
      cases h' with
      | call hop' h' =>
          rw [← UnaryOp.ofFunction?_eq_some_iff] at hop hop'
          rw [ih h', Option.some.inj (hop.symm.trans hop')]
  | aggregate _ _ ihl ihb =>
      cases h' with
      | aggregate hl' hb' => rw [ihl hl', ihb hb']
  | binary hop _ _ ihl ihr =>
      cases h' with
      | binary hop' hl' hr' =>
          rw [← BinaryOp.ofSymbol?_eq_some_iff] at hop hop'
          rw [ihl hl', ihr hr', Option.some.inj (hop.symm.trans hop')]

/-- The leaf of an operand that is no number. -/
theorem ofOperand_name {text : String} (h : isNumber text = false) :
    Formula.ofOperand text = .var text := by
  simp [Formula.ofOperand, h]

/-- The leaf of a number. -/
theorem ofOperand_number {text : String} {x : Float} (h : isNumber text = true)
    (hx : Number.read? text = some x) : Formula.ofOperand text = .literal x := by
  simp [Formula.ofOperand, h, hx]

/-- An operand always denotes the leaf that the builder makes of it, since every number reads. -/
theorem denotes_operand {t : Token} (ht : t.kind = .operand) :
    Denotes (.operand t ht) (Formula.ofOperand t.text) := by
  cases hn : isNumber t.text with
  | false => rw [ofOperand_name hn]; exact .name hn
  | true =>
      obtain ⟨digits, exponent, hx⟩ := Number.exists_read?_of_isNumber hn
      rw [ofOperand_number hn hx]
      exact .number hn hx

/-! ### What the builder makes of a tree -/

/-- What the builder makes of a tree: the formula, or the first fault from left to right. -/
def build : ParseTree → Except Fault Formula
  | operand t _ => .ok (Formula.ofOperand t.text)
  | minus _ _ value =>
    match value.build with
    | .error fault => .error fault
    | .ok x => .ok (.unary .negate x)
  | call f _ argument =>
    match argument.build with
    | .error fault => .error fault
    | .ok x =>
      match UnaryOp.ofFunction? f.text with
      | some op => .ok (.unary op x)
      | none => .error (.inconsistency (.unknownFunction f.text))
  | aggregate f _ counter _ limit body =>
    match limit.build with
    | .error fault => .error fault
    | .ok l =>
      match body.build with
      | .error fault => .error fault
      | .ok b => Formula.ofAggregate f.counting (Formula.ofOperand counter.text) l b
  | binary op _ left right =>
    match left.build with
    | .error fault => .error fault
    | .ok l =>
      match right.build with
      | .error fault => .error fault
      | .ok r =>
        match BinaryOp.ofSymbol? op.text with
        | some o => .ok (.binary o l r)
        | none => .error (.inconsistency (.unknownOperator op.text))

end ParseTree

/-- An operand is put onto the stack. -/
theorem push_operand {t : Token} (h : t.kind = .operand) (stack : List Formula) :
    Formula.push stack t = .ok (Formula.ofOperand t.text :: stack) := by
  simp [Formula.push, h]

/-- What the stack machine does with an operator between values is what its class says. -/
theorem push_binary {op : Token} (h : op.kind.isBinary = true) (stack : List Formula) :
    Formula.push stack op =
      match BinaryOp.ofSymbol? op.text with
      | some o => Formula.applyBinary o op stack
      | none => .error (.inconsistency (.unknownOperator op.text)) := by
  rw [Formula.push]
  cases hk : op.kind with
  | comparison | additive | multiplicative | power => rfl
  | operand | negation | function | structural | finish => rw [hk] at h; cases h

/-- **The listing of a tree is one step.** It leaves what the builder makes of the tree on the
stack, whatever is on the stack below and whatever follows. -/
theorem assemble_postorder (e : ParseTree) (stack : List Formula) (rest : List Token) :
    Formula.assemble stack (e.postorder ++ rest) =
      match e.build with
      | .error fault => .error fault
      | .ok f => Formula.assemble (f :: stack) rest := by
  induction e generalizing stack rest with
  | operand t ht =>
      simp only [ParseTree.postorder, ParseTree.build, List.cons_append, List.nil_append,
        Formula.assemble, push_operand ht]
  | minus t ht value ih =>
      simp only [ParseTree.postorder, ParseTree.build, List.append_assoc, ih]
      cases value.build with
      | error fault => rfl
      | ok x => simp [Formula.assemble, Formula.push, ht, Formula.applyUnary]
  | call f hf argument ih =>
      simp only [ParseTree.postorder, ParseTree.build, List.append_assoc, ih]
      cases argument.build with
      | error fault => rfl
      | ok x =>
          simp only [List.cons_append, List.nil_append, Formula.assemble, Formula.push, hf.1,
            ofSymbol?_of_not_isAggregate hf.1 hf.2]
          cases UnaryOp.ofFunction? f.text <;> rfl
  | aggregate f hf counter hc limit body ihl ihb =>
      simp only [ParseTree.postorder, ParseTree.build, List.cons_append, List.append_assoc,
        Formula.assemble, push_operand hc, ihl]
      cases limit.build with
      | error fault => rfl
      | ok l =>
          simp only [ihb]
          cases body.build with
          | error fault => rfl
          | ok b =>
              simp only [List.nil_append, Formula.assemble, Formula.push, kind_of_isAggregate hf,
                ofSymbol?_of_isAggregate hf, Formula.applyAggregate]
              cases Formula.ofAggregate f.counting (Formula.ofOperand counter.text) l b <;> rfl
  | binary op hop left right ihl ihr =>
      simp only [ParseTree.postorder, ParseTree.build, List.append_assoc, ihl]
      cases left.build with
      | error fault => rfl
      | ok l =>
          simp only [ihr]
          cases right.build with
          | error fault => rfl
          | ok r =>
              simp only [List.cons_append, List.nil_append, Formula.assemble, push_binary hop]
              cases BinaryOp.ofSymbol? op.text <;> rfl

/-- The builder makes of a listing what it makes of the tree: the stack never runs out of operands
and holds one formula at the end. -/
theorem ofPostorder_postorder (e : ParseTree) : Formula.ofPostorder e.postorder = e.build := by
  have h := assemble_postorder e [] []
  rw [List.append_nil] at h
  rw [Formula.ofPostorder, h]
  cases e.build <;> rfl

/-! ### The two outcomes -/

/-- The aggregate of a counter that can be bound. -/
theorem ofAggregate_eq_ok {op : AggregateOp} {counter : String} {limit body : Formula}
    (hn : isNumber counter = false) (hr : isReserved counter = false)
    (hb : ¬ body.Rebinds counter) :
    Formula.ofAggregate op (Formula.ofOperand counter) limit body =
      .ok (.aggregate op counter limit body) := by
  simp [ParseTree.ofOperand_name hn, Formula.ofAggregate, hr, Formula.binds_eq_false_iff.2 hb]

/-- An operand that cannot be bound is blamed: it is a number, reserved or bound again. -/
theorem exists_ofAggregate_eq_error {counter : String} {body : Formula} (op : AggregateOp)
    (limit : Formula)
    (h : ¬ (isNumber counter = false ∧ isReserved counter = false ∧ ¬ body.Rebinds counter)) :
    ∃ name reason, Formula.ofAggregate op (Formula.ofOperand counter) limit body =
      .error (.invalidCounter name reason) := by
  cases hn : isNumber counter with
  | true =>
      obtain ⟨digits, exponent, hx⟩ := Number.exists_read?_of_isNumber hn
      rw [ParseTree.ofOperand_number hn hx]
      exact ⟨_, _, rfl⟩
  | false =>
      rw [ParseTree.ofOperand_name hn, Formula.ofAggregate]
      cases hr : isReserved counter with
      | true => exact ⟨counter, .reserved, by simp⟩
      | false =>
          cases hb : body.binds counter with
          | true => exact ⟨counter, .rebound, by simp⟩
          | false => exact absurd ⟨hn, hr, Formula.binds_eq_false_iff.1 hb⟩ h

namespace ParseTree

/-- The builder returns the formula of a tree if that is well scoped. -/
theorem Denotes.build_eq {e : ParseTree} {f : Formula} (h : Denotes e f) (hf : f.WellScoped) :
    e.build = .ok f := by
  induction h with
  | number hn hx => rw [build, ofOperand_number hn hx]
  | name hn => rw [build, ofOperand_name hn]
  | minus _ ih => simp only [build, ih hf]
  | call hop _ ih => simp only [build, ih hf, UnaryOp.ofFunction?_eq_some_iff.2 hop]
  | aggregate _ _ ihl ihb =>
      obtain ⟨hl, hb, hn, hr, hfree⟩ := hf
      simp only [build, ihl hl, ihb hb, ofAggregate_eq_ok hn hr hfree]
  | binary hop _ _ ihl ihr =>
      obtain ⟨hl, hr⟩ := hf
      simp only [build, ihl hl, ihr hr, BinaryOp.ofSymbol?_eq_some_iff.2 hop]

/-- The builder blames a counter if the formula of a tree is not well scoped. -/
theorem Denotes.exists_invalidCounter {e : ParseTree} {f : Formula} (h : Denotes e f)
    (hf : ¬ f.WellScoped) : ∃ name reason, e.build = .error (.invalidCounter name reason) := by
  induction h with
  | number => exact absurd trivial hf
  | name => exact absurd trivial hf
  | minus _ ih =>
      obtain ⟨name, reason, he⟩ := ih hf
      exact ⟨name, reason, by simp only [build, he]⟩
  | call hop _ ih =>
      obtain ⟨name, reason, he⟩ := ih hf
      exact ⟨name, reason, by simp only [build, he]⟩
  | @aggregate t i _ _ _ _ limit body hlimit hbody ihl ihb =>
      by_cases hl : limit.WellScoped
      · by_cases hb : body.WellScoped
        · simp only [build, hlimit.build_eq hl, hbody.build_eq hb]
          exact exists_ofAggregate_eq_error _ _ fun hcounter => hf ⟨hl, hb, hcounter⟩
        · obtain ⟨name, reason, he⟩ := ihb hb
          exact ⟨name, reason, by simp only [build, hlimit.build_eq hl, he]⟩
      · obtain ⟨name, reason, he⟩ := ihl hl
        exact ⟨name, reason, by simp only [build, he]⟩
  | @binary _ _ _ _ left right _ hop hleft _ ihl ihr =>
      by_cases hl : left.WellScoped
      · obtain ⟨name, reason, he⟩ := ihr fun hr => hf ⟨hl, hr⟩
        exact ⟨name, reason, by simp only [build, hleft.build_eq hl, he]⟩
      · obtain ⟨name, reason, he⟩ := ihl hl
        exact ⟨name, reason, by simp only [build, he]⟩

end ParseTree

/-! ### From tokens to formulas -/

/-- Whether the builder **knows** the text of a token: that of a function is a function or an
aggregate, and that of an operator between values is an operator. -/
def Known (t : Token) : Prop :=
  (t.kind = .function → t.isAggregate = true ∨ ∃ op, (op, t.text) ∈ functionTexts) ∧
    (t.kind.isBinary = true → ∃ op, (op, t.text) ∈ operatorTexts)

instance (t : Token) : Decidable t.Known :=
  inferInstanceAs (Decidable (_ ∧ _))

/-- The tree of a sequence whose texts are known denotes a formula. -/
theorem Expression.exists_denotes {k : ℕ} {ts vs : List Token} {e : ParseTree}
    (h : Expression k ts vs e) (hts : ∀ t ∈ ts, t.Known) : ∃ f, e.Denotes f := by
  induction h with
  | operand ht => exact ⟨_, ParseTree.denotes_operand ht⟩
  | group _ _ _ ih => exact ih fun t ht => hts t (by simp [ht])
  | minus _ _ ih =>
      obtain ⟨f, hf⟩ := ih fun t ht => hts t (by simp [ht])
      exact ⟨_, .minus hf⟩
  | @call _ t _ _ _ _ _ hf _ _ _ ih =>
      obtain ⟨f, hd⟩ := ih fun t ht => hts t (by simp [ht])
      have hknown := (hts t (by simp)).1 hf.1
      rw [hf.2] at hknown
      obtain ⟨op, hop⟩ := hknown.resolve_left (by simp)
      exact ⟨_, .call hop hd⟩
  | aggregate _ _ _ _ _ _ _ _ ihl ihb =>
      obtain ⟨limit, hl⟩ := ihl fun t ht => hts t (by simp [ht])
      obtain ⟨body, hb⟩ := ihb fun t ht => hts t (by simp [ht])
      exact ⟨_, .aggregate hl hb⟩
  | @binary _ t _ _ _ _ _ _ hop _ _ _ ihl ihr =>
      obtain ⟨left, hl⟩ := ihl fun t ht => hts t (by simp [ht])
      obtain ⟨right, hr⟩ := ihr fun t ht => hts t (by simp [ht])
      obtain ⟨op, ho⟩ := (hts t (by simp)).2 hop
      exact ⟨_, .binary ho hl hr⟩

/-- A text whose tokens have a tree, with all its operands declared, is what the builder makes of
the tree. -/
theorem Expression.ofText_eq {ts vs : List Token} {e : ParseTree} (h : Expression 1 ts vs e)
    {text : String} {declared : Option (List String)} (htext : ofText text = .ok ts)
    (hdeclared : ∀ names ∈ declared, checkVariables names vs = .ok ()) :
    Formula.ofText text declared = e.build := by
  have hbuild : Formula.ofPostorder (toPostorder vs) = e.build := by
    rw [h.toPostorder_eq, ofPostorder_postorder]
  have hvalid : validate ts = .ok vs := h.derives.1.validate_eq
  simp only [Formula.ofText, htext, hvalid, bind, Except.bind, Formula.ofValidated]
  cases declared with
  | none => exact hbuild
  | some names => simp only [hdeclared names rfl, hbuild]

/-- **Reordering and building follow the reference grammar.** An accepted sequence has one
reference tree, and reordering lists it. If the texts of its functions and operators are known,
the tree denotes a formula; the builder returns that formula if it is well scoped and otherwise
blames a counter, so that the stages never contradict each other. -/
theorem ofPostorder_toPostorder {ts vs : List Token} (hvalid : validate ts = .ok vs)
    (hend : ∀ t ∈ ts, t.kind ≠ .finish) (hknown : ∀ t ∈ ts, t.Known) :
    ∃ e f, Reference ts e ∧ (∀ e', Reference ts e' → e' = e) ∧ toPostorder vs = e.postorder ∧
      e.Denotes f ∧
      (f.WellScoped → Formula.ofPostorder (toPostorder vs) = .ok f) ∧
      (¬ f.WellScoped → ∃ name reason,
        Formula.ofPostorder (toPostorder vs) = .error (.invalidCounter name reason)) := by
  obtain ⟨e, he⟩ := exists_expression_of_derives (derives_of_validate hend hvalid)
  have href : Reference ts e := ⟨vs, he⟩
  have hlist : toPostorder vs = e.postorder := Expression.toPostorder_eq he
  obtain ⟨f, hf⟩ := he.exists_denotes hknown
  refine ⟨e, f, href, fun e' he' => he'.unique href, hlist, hf, ?_⟩
  rw [hlist, ofPostorder_postorder]
  exact ⟨hf.build_eq, hf.exists_invalidCounter⟩

/-- A power of a negated value, and an aggregate inside the body of another one that binds a
counter of its own: `-x^y-sum(i,n,mult(j,i,j))`. -/
theorem ofPostorder_toPostorder_nested :
    let ts : List Token := [⟨"-", .additive, none⟩, ⟨"x", .operand, none⟩, ⟨"^", .power, none⟩,
      ⟨"y", .operand, none⟩, ⟨"-", .additive, none⟩, ⟨"sum", .function, none⟩,
      ⟨"(", .structural, none⟩, ⟨"i", .operand, none⟩, ⟨",", .structural, none⟩,
      ⟨"n", .operand, none⟩, ⟨",", .structural, none⟩, ⟨"mult", .function, none⟩,
      ⟨"(", .structural, none⟩, ⟨"j", .operand, none⟩, ⟨",", .structural, none⟩,
      ⟨"i", .operand, none⟩, ⟨",", .structural, none⟩, ⟨"j", .operand, none⟩,
      ⟨")", .structural, none⟩, ⟨")", .structural, none⟩]
    ∃ vs e f, validate ts = .ok vs ∧ Reference ts e ∧ toPostorder vs = e.postorder ∧
      e.Denotes f ∧ f.WellScoped ∧ Formula.ofPostorder (toPostorder vs) = .ok f := by
  intro ts
  obtain ⟨e, f, href, -, hlist, hf, hscoped, hunscoped⟩ :=
    ofPostorder_toPostorder (show validate ts = .ok _ from rfl) (by decide) (by decide)
  by_cases hw : f.WellScoped
  · exact ⟨_, e, f, rfl, href, hlist, hf, hw, hscoped hw⟩
  · obtain ⟨name, reason, herror⟩ := hunscoped hw
    cases herror

end Token

end Formulary
