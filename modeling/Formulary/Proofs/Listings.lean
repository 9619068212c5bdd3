import Formulary.Proofs.Building

/-!
# The Builder Accepts Exactly the Listings

The builder is handed sequences that the checker has passed and the reordering has produced, but it
takes any sequence of tokens. This module says which ones it accepts: the postorder listings of
formulas whose counters can be bound, and nothing else, whatever the texts and the classes of the
tokens and however the operators and operands are mixed.

## Conventions

`Listing f ts` has one rule for each kind of token that the builder reads. It describes the sequence
alone: a counter is a name, but it may be reserved or bound again inside the body. `WellScoped` is
the condition on the formula.

What one token can do is said once (`Pushes`, `push_cases`). The stack of the builder stands for a
row of listings, one behind the other (`Stacked`). This is the invariant of the run on an arbitrary
sequence: a token that is accepted ends a new listing, made of the last ones of the row.

## Main results

* `push_cases`: a token is accepted for what it is, or refused.
* `Stacked.push`, `Stacked.assemble`: the invariant, for one token and for a run.
* `Listing.exists_tree`: a listing is that of a tree of tokens, so that the builder's answer is
  known.
* `ofPostorder_eq_ok_iff`: a formula is returned exactly for its listings, if it is well scoped.
-/

namespace Formulary

/-- A text that counts names no other function. -/
theorem UnaryOp.ofFunction?_of_isAggregate {t : Token} (h : t.isAggregate = true) :
    ofFunction? t.text = none := by
  simp only [Token.isAggregate, Bool.and_eq_true, Bool.or_eq_true, beq_iff_eq] at h
  rcases h.2 with ht | ht <;> rw [ht] <;> decide

/-- Only a text that counts has an aggregate operation. -/
theorem AggregateOp.isAggregate_of_ofSymbol? {t : Token} {op : AggregateOp}
    (hk : t.kind = .function) (h : ofSymbol? t.text = some op) :
    t.isAggregate = true ∧ op = t.counting := by
  cases ha : t.isAggregate with
  | true =>
      rw [Token.ofSymbol?_of_isAggregate ha] at h
      exact ⟨rfl, (Option.some.inj h).symm⟩
  | false =>
      rw [Token.ofSymbol?_of_not_isAggregate hk ha] at h
      cases h

namespace Formula

/-! ### Listings -/

/-- The **postorder listings** of a formula: an operand stands for a leaf, a number if its text is
one and a name otherwise; every other token stands behind what it is applied to, and an aggregate
behind its counter, its limit and its body. -/
inductive Listing : Formula → List Token → Prop
  | number {t : Token} {x : Float} (hk : t.kind = .operand) (hn : isNumber t.text = true)
      (hx : Number.read? t.text = some x) : Listing (.literal x) [t]
  | name {t : Token} (hk : t.kind = .operand) (hn : isNumber t.text = false) :
      Listing (.var t.text) [t]
  | minus {t : Token} {f : Formula} {ts : List Token} (hk : t.kind = .negation) :
      Listing f ts → Listing (.unary .negate f) (ts ++ [t])
  | call {t : Token} {op : UnaryOp} {f : Formula} {ts : List Token} (hk : t.kind = .function)
      (hop : (op, t.text) ∈ functionTexts) :
      Listing f ts → Listing (.unary op f) (ts ++ [t])
  | binary {t : Token} {op : BinaryOp} {left right : Formula} {ls rs : List Token}
      (hk : t.kind.isBinary = true) (hop : (op, t.text) ∈ operatorTexts) :
      Listing left ls → Listing right rs → Listing (.binary op left right) (ls ++ rs ++ [t])
  | aggregate {t i : Token} {op : AggregateOp} {limit body : Formula} {ls bs : List Token}
      (hi : i.kind = .operand) (hn : isNumber i.text = false) (hk : t.kind = .function)
      (hop : (op, t.text) ∈ aggregateTexts) :
      Listing limit ls → Listing body bs →
      Listing (.aggregate op i.text limit body) ([i] ++ ls ++ bs ++ [t])

/-- The leaf that the builder makes of an operand is listed by it. -/
theorem listing_operand {t : Token} (hk : t.kind = .operand) : Listing (ofOperand t.text) [t] := by
  cases hn : isNumber t.text with
  | false =>
      rw [Token.ParseTree.ofOperand_name hn]
      exact .name hk hn
  | true =>
      obtain ⟨digits, exponent, hx⟩ := Number.exists_read?_of_isNumber hn
      rw [Token.ParseTree.ofOperand_number hn hx]
      exact .number hk hn hx

/-- A name is listed by one token, itself. -/
theorem Listing.eq_singleton {name : String} {ts : List Token} (h : Listing (.var name) ts) :
    ∃ i, ts = [i] ∧ i.kind = .operand ∧ i.text = name ∧ isNumber i.text = false := by
  cases h with
  | name hk hn => exact ⟨_, rfl, hk, rfl, hn⟩

/-- A listing is that of a tree of tokens that denotes the formula. -/
theorem Listing.exists_tree {f : Formula} {ts : List Token} (h : Listing f ts) :
    ∃ e : Token.ParseTree, e.postorder = ts ∧ e.Denotes f := by
  induction h with
  | number hk hn hx => exact ⟨.operand _ hk, rfl, .number hn hx⟩
  | name hk hn => exact ⟨.operand _ hk, rfl, .name hn⟩
  | minus hk _ ih =>
      obtain ⟨e, rfl, he⟩ := ih
      exact ⟨.minus _ hk e, rfl, .minus he⟩
  | @call t _ _ _ hk hop _ ih =>
      obtain ⟨e, rfl, he⟩ := ih
      have ha : t.isAggregate = false := by
        rw [Bool.eq_false_iff]
        intro ha
        rw [← UnaryOp.ofFunction?_eq_some_iff, UnaryOp.ofFunction?_of_isAggregate ha] at hop
        cases hop
      exact ⟨.call t ⟨hk, ha⟩ e, rfl, .call hop he⟩
  | binary hk hop _ _ ihl ihr =>
      obtain ⟨l, rfl, hl⟩ := ihl
      obtain ⟨r, rfl, hr⟩ := ihr
      exact ⟨.binary _ hk l r, (List.append_assoc ..).symm, .binary hop hl hr⟩
  | aggregate hi hn hk hop _ _ ihl ihb =>
      obtain ⟨l, rfl, hl⟩ := ihl
      obtain ⟨b, rfl, hb⟩ := ihb
      obtain ⟨ha, rfl⟩ :=
        AggregateOp.isAggregate_of_ofSymbol? hk (AggregateOp.ofSymbol?_eq_some_iff.2 hop)
      exact ⟨.aggregate _ ha _ hi l b, by simp [Token.ParseTree.postorder], .aggregate hl hb⟩

/-! ### One token -/

/-- Whether a fault is one that the builder reports: a contradiction, or a counter that is
refused. -/
def IsRefusal (fault : Fault) : Prop :=
  (∃ cause, fault = .inconsistency cause) ∨ ∃ name reason, fault = .invalidCounter name reason

/-- What a token that is accepted **does to the stack**: a leaf is put onto it, and every other
token takes what it is applied to from it. -/
inductive Pushes (t : Token) : List Formula → List Formula → Prop
  | leaf {stack : List Formula} (hk : t.kind = .operand) :
      Pushes t stack (ofOperand t.text :: stack)
  | minus {stack : List Formula} {f : Formula} (hk : t.kind = .negation) :
      Pushes t (f :: stack) (.unary .negate f :: stack)
  | call {stack : List Formula} {op : UnaryOp} {f : Formula} (hk : t.kind = .function)
      (hop : UnaryOp.ofFunction? t.text = some op) : Pushes t (f :: stack) (.unary op f :: stack)
  | binary {stack : List Formula} {op : BinaryOp} {left right : Formula}
      (hk : t.kind.isBinary = true) (hop : BinaryOp.ofSymbol? t.text = some op) :
      Pushes t (right :: left :: stack) (.binary op left right :: stack)
  | aggregate {stack : List Formula} {op : AggregateOp} {counter limit body f : Formula}
      (hk : t.kind = .function) (hop : AggregateOp.ofSymbol? t.text = some op)
      (hmade : ofAggregate op counter limit body = .ok f) :
      Pushes t (body :: limit :: counter :: stack) (f :: stack)

/-- What is refused as an aggregate is so for its counter. -/
theorem isRefusal_of_ofAggregate {op : AggregateOp} {counter limit body : Formula} {fault : Fault}
    (h : ofAggregate op counter limit body = .error fault) : IsRefusal fault := by
  cases counter with
  | var name =>
      simp only [ofAggregate] at h
      split at h
      · cases h
        exact .inr ⟨_, _, rfl⟩
      split at h
      · cases h
        exact .inr ⟨_, _, rfl⟩
      · cases h
  | literal | unary | binary | aggregate =>
      cases h
      exact .inr ⟨_, _, rfl⟩

/-- **A token is accepted for what it is, or refused** as a contradiction or for a counter. -/
theorem push_cases (stack : List Formula) (t : Token) :
    (∃ next, push stack t = .ok next ∧ Pushes t stack next) ∨
      ∃ fault, push stack t = .error fault ∧ IsRefusal fault := by
  have refused {cause : Contradiction} (h : push stack t = .error (.inconsistency cause)) :
      ∃ fault, push stack t = .error fault ∧ IsRefusal fault :=
    ⟨_, h, .inl ⟨cause, rfl⟩⟩
  cases hk : t.kind with
  | operand => exact .inl ⟨_, Token.push_operand hk stack, .leaf hk⟩
  | negation =>
      have hpush : push stack t = applyUnary .negate t stack := by simp only [push, hk]
      cases stack with
      | nil => exact .inr (refused hpush)
      | cons f rest => exact .inl ⟨_, hpush, .minus hk⟩
  | function =>
      cases hop : AggregateOp.ofSymbol? t.text with
      | some op =>
          have hpush : push stack t = applyAggregate op t stack := by simp only [push, hk, hop]
          rcases stack with _ | ⟨body, _ | ⟨limit, _ | ⟨counter, rest⟩⟩⟩
          · exact .inr (refused hpush)
          · exact .inr (refused hpush)
          · exact .inr (refused hpush)
          rw [applyAggregate] at hpush
          cases hmade : ofAggregate op counter limit body with
          | ok f =>
              rw [hmade] at hpush
              exact .inl ⟨_, hpush, .aggregate hk hop hmade⟩
          | error fault =>
              rw [hmade] at hpush
              exact .inr ⟨_, hpush, isRefusal_of_ofAggregate hmade⟩
      | none =>
          cases hfunction : UnaryOp.ofFunction? t.text with
          | none => exact .inr (refused (by simp only [push, hk, hop, hfunction]; rfl))
          | some op =>
              have hpush : push stack t = applyUnary op t stack := by
                simp only [push, hk, hop, hfunction]
              cases stack with
              | nil => exact .inr (refused hpush)
              | cons f rest => exact .inl ⟨_, hpush, .call hk hfunction⟩
  | comparison | additive | multiplicative | power =>
      have hb : t.kind.isBinary = true := by rw [hk]; rfl
      have hpush := Token.push_binary hb stack
      cases hop : BinaryOp.ofSymbol? t.text with
      | none =>
          rw [hop] at hpush
          exact .inr (refused hpush)
      | some op =>
          rw [hop] at hpush
          rcases stack with _ | ⟨right, _ | ⟨left, rest⟩⟩
          · exact .inr (refused hpush)
          · exact .inr (refused hpush)
          · exact .inl ⟨_, hpush, .binary hb hop⟩
  | structural | finish => exact .inr (refused (by simp only [push, hk]; rfl))

/-- A token that is accepted does to the stack what it is for. -/
theorem pushes_of_push {stack next : List Formula} {t : Token} (h : push stack t = .ok next) :
    Pushes t stack next := by
  rcases push_cases stack t with ⟨next', hnext, hpushes⟩ | ⟨fault, hfault, -⟩
  · cases hnext.symm.trans h
    exact hpushes
  · rw [hfault] at h
    cases h

/-- A token is refused as a contradiction or for a counter. -/
theorem isRefusal_of_push {stack : List Formula} {t : Token} {fault : Fault}
    (h : push stack t = .error fault) : IsRefusal fault := by
  rcases push_cases stack t with ⟨next, hnext, -⟩ | ⟨fault', hfault, hrefusal⟩
  · rw [hnext] at h
    cases h
  · cases hfault.symm.trans h
    exact hrefusal

/-! ### The stack of the builder -/

/-- What a **stack** of formulas stands for: a row of listings, that of the top last, and all
formulas are well scoped. -/
inductive Stacked : List Formula → List Token → Prop
  | nil : Stacked [] []
  | cons {f : Formula} {stack : List Formula} {us ts : List Token} :
      Stacked stack us → Listing f ts → f.WellScoped → Stacked (f :: stack) (us ++ ts)

/-- An aggregate that is made is listed behind its parts, and its counter can be bound. -/
theorem listing_ofAggregate {op : AggregateOp} {counter limit body f : Formula} {t : Token}
    {cs ls bs : List Token} (hk : t.kind = .function) (hop : AggregateOp.ofSymbol? t.text = some op)
    (hc : Listing counter cs) (hl : Listing limit ls) (hb : Listing body bs)
    (hls : limit.WellScoped) (hbs : body.WellScoped)
    (h : ofAggregate op counter limit body = .ok f) :
    Listing f (cs ++ ls ++ bs ++ [t]) ∧ f.WellScoped := by
  cases counter with
  | var name =>
      obtain ⟨i, rfl, hi, rfl, hn⟩ := hc.eq_singleton
      simp only [ofAggregate] at h
      split at h
      · cases h
      split at h
      · cases h
      rename_i hreserved hbinds
      cases h
      exact ⟨.aggregate hi hn hk (AggregateOp.ofSymbol?_eq_some_iff.1 hop) hl hb,
        hls, hbs, hn, by simpa using hreserved, by simpa [← binds_iff] using hbinds⟩
  | literal | unary | binary | aggregate => cases h

/-- **One token keeps the invariant**: what is accepted ends a listing. -/
theorem Stacked.push {stack next : List Formula} {us : List Token} {t : Token}
    (h : Stacked stack us) (hpush : Pushes t stack next) : Stacked next (us ++ [t]) := by
  cases hpush with
  | leaf hk =>
      refine .cons h (listing_operand hk) ?_
      rw [ofOperand]
      split <;> trivial
  | minus hk =>
      rcases h with _ | ⟨hrest, hf, hw⟩
      rw [List.append_assoc]
      exact .cons hrest (.minus hk hf) hw
  | call hk hop =>
      rcases h with _ | ⟨hrest, hf, hw⟩
      rw [List.append_assoc]
      exact .cons hrest (.call hk (UnaryOp.ofFunction?_eq_some_iff.1 hop) hf) hw
  | binary hk hop =>
      rcases h with _ | ⟨_ | ⟨hrest, hl, hwl⟩, hr, hwr⟩
      rw [List.append_assoc, List.append_assoc, ← List.append_assoc _ _ [t]]
      exact .cons hrest (.binary hk (BinaryOp.ofSymbol?_eq_some_iff.1 hop) hl hr) ⟨hwl, hwr⟩
  | aggregate hk hop hmade =>
      rcases h with _ | ⟨_ | ⟨_ | ⟨hrest, hc, -⟩, hl, hwl⟩, hb, hwb⟩
      obtain ⟨hf, hw⟩ := listing_ofAggregate hk hop hc hl hb hwl hwb hmade
      have := Stacked.cons hrest hf hw
      simpa only [List.append_assoc] using this

/-- **A run keeps the invariant.** -/
theorem Stacked.assemble {stack final : List Formula} {us ts : List Token} (h : Stacked stack us)
    (hrun : Formula.assemble stack ts = .ok final) : Stacked final (us ++ ts) := by
  induction ts generalizing stack us with
  | nil =>
      cases hrun
      rwa [List.append_nil]
  | cons t rest ih =>
      rw [Formula.assemble] at hrun
      cases hpush : Formula.push stack t with
      | error fault =>
          rw [hpush] at hrun
          cases hrun
      | ok next =>
          rw [hpush] at hrun
          have := ih (h.push (pushes_of_push hpush)) hrun
          rwa [List.append_assoc] at this

/-- A sequence is refused as a contradiction or for a counter. -/
theorem isRefusal_of_ofPostorder {ts : List Token} {fault : Fault}
    (h : ofPostorder ts = .error fault) : IsRefusal fault := by
  have hrun (stack : List Formula) (hfault : assemble stack ts = .error fault) :
      IsRefusal fault := by
    clear h
    induction ts generalizing stack with
    | nil => cases hfault
    | cons t rest ih =>
        rw [assemble] at hfault
        cases hpush : push stack t with
        | error fault' =>
            rw [hpush] at hfault
            cases hfault
            exact isRefusal_of_push hpush
        | ok next =>
            rw [hpush] at hfault
            exact ih next hfault
  rw [ofPostorder] at h
  split at h
  · rename_i fault' hfault
    cases h
    exact hrun [] hfault
  · cases h
  · cases h
    exact .inl ⟨_, rfl⟩

/-! ### The characterisation -/

/-- A formula that is returned is listed by the sequence, and well scoped. -/
theorem listing_of_ofPostorder {ts : List Token} {f : Formula} (h : ofPostorder ts = .ok f) :
    Listing f ts ∧ f.WellScoped := by
  rw [ofPostorder] at h
  split at h
  · cases h
  · rename_i formula hrun
    cases h
    have hstacked := Stacked.nil.assemble hrun
    rw [List.nil_append] at hstacked
    cases hstacked with
    | cons hnil hf hw =>
        cases hnil
        exact ⟨hf, hw⟩
  · cases h

/-- **The builder inverts postorder listing and accepts nothing else.** It returns a formula exactly
for the listings of that formula, and only if it is well scoped. A listing of any other formula is
refused for a counter, and a sequence that is no listing at all as a contradiction or for a
counter. -/
theorem ofPostorder_eq_ok_iff (ts : List Token) :
    (∀ f, ofPostorder ts = .ok f ↔ Listing f ts ∧ f.WellScoped) ∧
      (∀ f, Listing f ts → ¬ f.WellScoped →
        ∃ name reason, ofPostorder ts = .error (.invalidCounter name reason)) ∧
      ((∃ f, ofPostorder ts = .ok f) ∨
        ∃ fault, ofPostorder ts = .error fault ∧
          ((∃ cause, fault = .inconsistency cause) ∨
            ∃ name reason, fault = .invalidCounter name reason)) := by
  refine ⟨fun f => ⟨listing_of_ofPostorder, ?_⟩, fun f hf hw => ?_, ?_⟩
  · rintro ⟨hf, hw⟩
    obtain ⟨e, rfl, he⟩ := hf.exists_tree
    rw [Token.ofPostorder_postorder, he.build_eq hw]
  · obtain ⟨e, rfl, he⟩ := hf.exists_tree
    rw [Token.ofPostorder_postorder]
    exact he.exists_invalidCounter hw
  · cases h : ofPostorder ts with
    | ok f => exact .inl ⟨f, rfl⟩
    | error fault => exact .inr ⟨fault, rfl, isRefusal_of_ofPostorder h⟩

/-- The text of an operator counts and not its class, which no pipeline would give to a plus. -/
example : ofPostorder [⟨"x", .operand, none⟩, ⟨"y", .operand, none⟩, ⟨"+", .power, none⟩] =
    .ok (.binary .add (.var "x") (.var "y")) :=
  rfl

end Formula

end Formulary
