import Formulary.Formula.Render
import Formulary.Proofs.Contradictions
import Formulary.Proofs.Dependence

/-!
# Declared Names Are Enough

The check for undeclared names looks at the tokens of a formula before they are reordered and
built. This module proves that it decides about the names of the formula that is then built: no
name is lost on the way and none is invented. And a formula whose names are declared never misses a
variable, however its aggregates bind and unbind their counters.

## Conventions

The names of a formula are its variables and counters, whether or not they are reserved. A number
is no name: it needs no declaration, and it is built into a literal.

Declared names are more than an evaluation needs. It reads the free names alone, so a store with
the references of a formula already suffices (`Formula.run_ne_unbound`).

## Main results

* `Token.Expression.names_eq`: the names of a formula are the operands of its text that are no
  numbers, in their order.
* `Token.ofText_some_iff`: the check is exact.
* `Formula.ofText_declared`: the check is exact, and it is enough.
-/

namespace Formulary

/-- The **names** of a formula: its variables and its counters, in order and with repetitions. -/
def Formula.names : Formula → List String
  | literal _ => []
  | var name => [name]
  | unary _ operand => operand.names
  | binary _ left right => left.names ++ right.names
  | aggregate _ counter limit body => counter :: (limit.names ++ body.names)

namespace Token

/-! ### The names of a sequence -/

/-- The **names** of a sequence: the texts of the operands that are no numbers. -/
def namesOf (ts : List Token) : List String :=
  (ts.filter fun t => t.kind == .operand && !isNumber t.text).map (·.text)

/-- The names of two sequences, one after the other. -/
theorem namesOf_append (ts us : List Token) :
    namesOf (ts ++ us) = namesOf ts ++ namesOf us := by
  simp [namesOf]

/-- A token that is no operand holds no name. -/
theorem namesOf_cons {t : Token} (h : t.kind ≠ .operand) (ts : List Token) :
    namesOf (t :: ts) = namesOf ts := by
  simp [namesOf, h]

/-- An operand that is no number is a name. -/
theorem namesOf_cons_name {t : Token} (h : t.kind = .operand) (hn : isNumber t.text = false)
    (ts : List Token) : namesOf (t :: ts) = t.text :: namesOf ts := by
  simp [namesOf, h, hn]

/-- A closing parenthesis holds no name. -/
theorem namesOf_append_closing {c : Token} (hc : c.isClosing = true) (ts : List Token) :
    namesOf (ts ++ [c]) = namesOf ts := by
  rw [namesOf_append, namesOf_cons (by simp [kind_of_isClosing hc])]
  exact List.append_nil _

/-- **The names of a formula are those of its text**, in their order. -/
theorem Expression.names_eq {k : ℕ} {ts vs : List Token} {e : ParseTree}
    (h : Expression k ts vs e) {f : Formula} (hf : e.Denotes f) (hscoped : f.WellScoped) :
    f.names = namesOf vs := by
  induction h generalizing f with
  | operand ht =>
      cases hf with
      | number hn _ => simp [Formula.names, namesOf, hn]
      | name hn => rw [namesOf_cons_name ht hn]; rfl
  | group ho hc _ ih =>
      rw [namesOf_cons (by simp [kind_of_isOpening ho]), namesOf_append_closing hc, ih hf hscoped]
  | minus _ _ ih =>
      cases hf with
      | minus hf => exact (ih hf hscoped).trans (namesOf_cons (by simp [negated]) _).symm
  | call hfun ho hc _ ih =>
      cases hf with
      | call _ hf =>
          rw [Formula.names, ih hf hscoped, namesOf_cons (by simp [hfun.1]),
            namesOf_cons (by simp [kind_of_isOpening ho]), namesOf_append_closing hc]
  | aggregate hfun ho hi h₁ h₂ hc _ _ ihl ihb =>
      cases hf with
      | aggregate hl hb =>
          obtain ⟨hlscoped, hbscoped, hn, -⟩ := hscoped
          rw [Formula.names, ihl hl hlscoped, ihb hb hbscoped,
            namesOf_cons (by simp [kind_of_isAggregate hfun]),
            namesOf_cons (by simp [kind_of_isOpening ho]), namesOf_cons_name hi hn,
            namesOf_cons (by simp [kind_of_isComma h₁]), namesOf_append,
            namesOf_cons (by simp [kind_of_isComma h₂]), namesOf_append_closing hc]
  | @binary _ op _ _ _ _ _ _ hop _ _ _ ihl ihr =>
      cases hf with
      | binary _ hl hr =>
          have hk : op.kind ≠ .operand := fun hk => by rw [hk] at hop; cases hop
          rw [Formula.names, ihl hl hscoped.1, ihr hr hscoped.2, namesOf_append, namesOf_cons hk]

/-- **The check is about the names of a sequence**: each of them has to be declared or reserved. -/
theorem checkVariables_eq_ok_iff {declared : List String} {ts : List Token} :
    checkVariables declared ts = .ok () ↔
      ∀ name ∈ namesOf ts, name ∈ declared ∨ isReserved name = true := by
  have hfind : checkVariables declared ts = .ok () ↔
      ∀ t ∈ ts, ¬ (t.kind == .operand && !isKnown declared t.text) = true := by
    rw [checkVariables, ← List.find?_eq_none]
    cases ts.find? fun t => t.kind == .operand && !isKnown declared t.text <;> simp
  rw [hfind, namesOf, List.forall_mem_map]
  refine forall_congr' fun t => ?_
  rw [List.mem_filter]
  cases hk : t.kind == .operand <;> cases hn : isNumber t.text <;>
    simp [isKnown, hn, or_iff_not_imp_left]

/-- **The check is exact.** With declared names a text reads as a formula exactly when it does so
without them and all names of the formula are declared or reserved. -/
theorem ofText_some_iff {text : String} {declared : List String} {f : Formula} :
    Formula.ofText text (some declared) = .ok f ↔
      Formula.ofText text none = .ok f ∧
        ∀ name ∈ f.names, name ∈ declared ∨ isReserved name = true := by
  constructor
  · intro h
    obtain ⟨ts, vs, e, htext, he, hdeclared, hf, hscoped⟩ := exists_denotes_of_ofText h
    refine ⟨?_, ?_⟩
    · rw [he.ofText_eq htext (by simp), hf.build_eq hscoped]
    · rw [he.names_eq hf hscoped]
      exact checkVariables_eq_ok_iff.1 (hdeclared declared rfl)
  · rintro ⟨h, hnames⟩
    obtain ⟨ts, vs, e, htext, he, -, hf, hscoped⟩ := exists_denotes_of_ofText h
    rw [he.names_eq hf hscoped] at hnames
    rw [he.ofText_eq htext (by simpa using checkVariables_eq_ok_iff.2 hnames),
      hf.build_eq hscoped]

end Token

/-! ### Formulas with declared names -/

/-- The free names of a formula are among its names. -/
theorem Formula.mem_names_of_free {name : String} {f : Formula} (h : f.Free name) :
    name ∈ f.names := by
  induction f with
  | literal value => exact h.elim
  | var other => exact List.mem_singleton.2 h.symm
  | unary op operand ih => exact ih h
  | binary op left right ihl ihr => exact List.mem_append.2 (h.imp ihl ihr)
  | aggregate op counter limit body ihl ihb =>
      exact List.mem_cons_of_mem _ (List.mem_append.2 (h.imp ihl fun hbody => ihb hbody.2))

/-- **The check is exact, and it is enough.** With declared names a text reads as a formula exactly
when it does so without them and all names of the formula are declared or reserved. No evaluation
of such a formula misses a variable in a store that has the declared names. -/
theorem Formula.ofText_declared (text : String) (declared : List String) (f : Formula) :
    (ofText text (some declared) = .ok f ↔
      ofText text none = .ok f ∧ ∀ name ∈ f.names, name ∈ declared ∨ isReserved name = true) ∧
    (ofText text (some declared) = .ok f →
      ∀ store : Store, (∀ name ∈ declared, store.has name = true) →
        ∀ mode samples missing available,
          (f.evaluate store mode samples).1 ≠ .error (.unbound missing available)) := by
  refine ⟨Token.ofText_some_iff, fun h store hstore mode samples missing available => ?_⟩
  obtain ⟨-, hnames⟩ := Token.ofText_some_iff.1 h
  refine run_ne_unbound (fun name hname => ?_) mode samples missing available
  obtain ⟨hfree, hr⟩ := mem_references.1 hname
  refine hstore name ((hnames name (mem_names_of_free hfree)).resolve_right ?_)
  simp [hr]

/-- A sum whose counter is a declared variable, over a reserved name. -/
theorem Formula.ofText_declared_sum :
    let f : Formula := .aggregate .sum "i" (.var "n") (.binary .mul (.var "i") (.var "PI"))
    ofText "sum(i,n,i*PI)" (some ["n", "i"]) = .ok f ∧
      ∀ mode samples missing available,
        (f.evaluate (Store.ofList [("i", 7.0), ("n", 2.0)]) mode samples).1 ≠
          .error (.unbound missing available) := by
  intro f
  have htokens : Token.ofText "sum(i,n,i*PI)" = .ok [⟨"sum", .function, some 1⟩,
      ⟨"(", .structural, some 4⟩, ⟨"i", .operand, some 5⟩, ⟨",", .structural, some 6⟩,
      ⟨"n", .operand, some 7⟩, ⟨",", .structural, some 8⟩, ⟨"i", .operand, some 9⟩,
      ⟨"*", .multiplicative, some 10⟩, ⟨"PI", .operand, some 11⟩,
      ⟨")", .structural, some 13⟩] := by
    decide +kernel
  have hread : ofText "sum(i,n,i*PI)" none = .ok f := by
    simp only [ofText, htokens]
    rfl
  obtain ⟨hiff, hsafe⟩ := ofText_declared "sum(i,n,i*PI)" ["n", "i"] f
  have hdeclared := hiff.2 ⟨hread, by decide⟩
  exact ⟨hdeclared, hsafe hdeclared _ (by decide)⟩

end Formulary
