import Formulary.Proofs.Grammar

/-!
# The Precedence Grammar

The documented grammar says which sequences are formulas, but not how a row of operators groups.
This module adds the reference grammar that does: comparisons bind least, then additive,
multiplicative and power operators, each of them grouping from the left, and a prefix minus binds
tighter than all of them. A derivation of the reference grammar ends in a tree, and the tree has
a postorder listing.

## Conventions

Operators between values have four levels, which are listed here (`TokenClass.level`).
`Expression k ts vs e` has the least level `k` of an operator that stands loose in the expression,
that is, outside all parentheses: `1` for a whole formula and `valueLevel` for a single value. As
in `Derives`, `ts` is the sequence and `vs` the same with its prefix minuses marked. A tree carries
its tokens with the proof of their class, so that a node of the wrong class cannot be built; its
parentheses and commas are dropped.

## Main results

* `ParseTree.postorder_injective`: a listing has one tree.
* `Expression.exists_chain`: one more operator and value are added at the right edge of a tree.
* `exists_expression_of_derives`, `Expression.derives`: the reference grammar derives the same
  sequences as the documented one.
-/

namespace Formulary

/-! ### Levels -/

namespace TokenClass

/-- The **level** of the operators between values: comparisons bind least, then sums, then products,
and powers bind tightest. Everything else binds tighter than all of them. -/
def level : TokenClass → ℕ
  | comparison => 1
  | additive => 2
  | multiplicative => 3
  | power => 4
  | _ => 5

/-- An operator between values has its rank as its level. -/
theorem level_eq_rank {c : TokenClass} (h : c.isBinary = true) : c.level = c.rank := by
  revert h
  cases c <;> decide

end TokenClass

namespace Token

/-! ### Trees of tokens -/

/-- A **parse tree**: the tokens of a formula without its parentheses and commas, grouped. -/
inductive ParseTree where
  | operand (t : Token) (ht : t.kind = .operand)
  | minus (t : Token) (ht : t.kind = .negation) (value : ParseTree)
  | call (f : Token) (hf : f.kind = .function ∧ f.isAggregate = false) (argument : ParseTree)
  | aggregate (f : Token) (hf : f.isAggregate = true) (counter : Token)
      (hc : counter.kind = .operand) (limit body : ParseTree)
  | binary (op : Token) (hop : op.kind.isBinary = true) (left right : ParseTree)

namespace ParseTree

/-- The **postorder listing** of a tree: every token behind what it is applied to. -/
def postorder : ParseTree → List Token
  | operand t _ => [t]
  | minus t _ value => value.postorder ++ [t]
  | call f _ argument => argument.postorder ++ [f]
  | aggregate f _ counter _ limit body =>
    counter :: (limit.postorder ++ (body.postorder ++ [f]))
  | binary op _ left right => left.postorder ++ (right.postorder ++ [op])

/-- The last token of a listing, the **root** of the tree. -/
def root : ParseTree → Token
  | operand t _ => t
  | minus t _ _ => t
  | call f _ _ => f
  | aggregate f _ _ _ _ _ => f
  | binary op _ _ _ => op

/-- A listing ends with the root. -/
theorem exists_postorder_eq (e : ParseTree) : ∃ front, e.postorder = front ++ [e.root] := by
  cases e with
  | operand t _ => exact ⟨[], rfl⟩
  | minus t _ value => exact ⟨value.postorder, rfl⟩
  | call f _ argument => exact ⟨argument.postorder, rfl⟩
  | aggregate f _ counter _ limit body =>
      exact ⟨counter :: (limit.postorder ++ body.postorder), by simp [postorder, root]⟩
  | binary op _ left right =>
      exact ⟨left.postorder ++ right.postorder, by simp [postorder, root]⟩

/-- Listings with equal ends have equal roots. -/
theorem root_eq_of_append_eq {e e' : ParseTree} {us us' : List Token}
    (h : us ++ e.postorder = us' ++ e'.postorder) : e.root = e'.root := by
  obtain ⟨front, he⟩ := e.exists_postorder_eq
  obtain ⟨front', he'⟩ := e'.exists_postorder_eq
  rw [he, he', ← List.append_assoc, ← List.append_assoc] at h
  exact List.singleton_inj.1 (List.append_inj' h rfl).2

/-- The **shapes** of a node. -/
inductive Shape where
  | operand
  | minus
  | call
  | aggregate
  | binary

/-- The shape of the root. -/
def shape : ParseTree → Shape
  | operand .. => .operand
  | minus .. => .minus
  | call .. => .call
  | aggregate .. => .aggregate
  | binary .. => .binary

/-- The shape of a node with the given root: its class decides. -/
def Shape.ofRoot (t : Token) : Shape :=
  if t.isAggregate then .aggregate
  else
    match t.kind with
    | .operand => .operand
    | .negation => .minus
    | .function => .call
    | _ => .binary

/-- The root tells the shape of its node. -/
theorem ofRoot_root (e : ParseTree) : Shape.ofRoot e.root = e.shape := by
  cases e with
  | operand t ht => simp [Shape.ofRoot, root, shape, isAggregate, ht]
  | minus t ht => simp [Shape.ofRoot, root, shape, isAggregate, ht]
  | call f hf => simp [Shape.ofRoot, root, shape, hf.1, hf.2]
  | aggregate f hf => simp [Shape.ofRoot, root, shape, hf]
  | binary op hop =>
      cases hk : op.kind <;> rw [hk] at hop <;> cases hop <;>
        simp [Shape.ofRoot, root, shape, isAggregate, hk]

/-- Listings with equal ends have roots of one shape. -/
theorem shape_eq_of_append_eq {e e' : ParseTree} {us us' : List Token}
    (h : us ++ e.postorder = us' ++ e'.postorder) : e.shape = e'.shape := by
  rw [← ofRoot_root, root_eq_of_append_eq h, ofRoot_root]

/-- A listing can be taken off the end of a sequence in one way only: the root tells the shape of
the node, and the parts of the node are taken off from the right. -/
theorem append_postorder_inj {e e' : ParseTree} {us us' : List Token}
    (h : us ++ e.postorder = us' ++ e'.postorder) : us = us' ∧ e = e' := by
  induction e generalizing e' us us' with
  | operand t ht =>
      have hroot := root_eq_of_append_eq h
      have hshape := shape_eq_of_append_eq h
      cases e' with
      | operand t' _ =>
          obtain rfl : t = t' := hroot
          exact ⟨(List.append_inj' h rfl).1, rfl⟩
      | _ => cases hshape
  | minus t ht value ih =>
      have hroot := root_eq_of_append_eq h
      have hshape := shape_eq_of_append_eq h
      cases e' with
      | minus t' _ value' =>
          obtain rfl : t = t' := hroot
          rw [postorder, postorder, ← List.append_assoc, ← List.append_assoc] at h
          obtain ⟨rfl, rfl⟩ := ih (List.append_inj' h rfl).1
          exact ⟨rfl, rfl⟩
      | _ => cases hshape
  | call f hf argument ih =>
      have hroot := root_eq_of_append_eq h
      have hshape := shape_eq_of_append_eq h
      cases e' with
      | call f' _ argument' =>
          obtain rfl : f = f' := hroot
          rw [postorder, postorder, ← List.append_assoc, ← List.append_assoc] at h
          obtain ⟨rfl, rfl⟩ := ih (List.append_inj' h rfl).1
          exact ⟨rfl, rfl⟩
      | _ => cases hshape
  | aggregate f hf counter hc limit body ihl ihb =>
      have hroot := root_eq_of_append_eq h
      have hshape := shape_eq_of_append_eq h
      cases e' with
      | aggregate f' _ counter' _ limit' body' =>
          obtain rfl : f = f' := hroot
          rw [postorder, postorder, List.append_cons, List.append_cons us'] at h
          simp only [← List.append_assoc] at h
          obtain ⟨hl, rfl⟩ := ihb (List.append_inj' h rfl).1
          obtain ⟨hi, rfl⟩ := ihl hl
          obtain ⟨rfl, hcounter⟩ := List.append_inj' hi rfl
          obtain rfl := List.singleton_inj.1 hcounter
          exact ⟨rfl, rfl⟩
      | _ => cases hshape
  | binary op hop left right ihl ihr =>
      have hroot := root_eq_of_append_eq h
      have hshape := shape_eq_of_append_eq h
      cases e' with
      | binary op' _ left' right' =>
          obtain rfl : op = op' := hroot
          rw [postorder, postorder] at h
          simp only [← List.append_assoc] at h
          obtain ⟨hl, rfl⟩ := ihr (List.append_inj' h rfl).1
          obtain ⟨rfl, rfl⟩ := ihl hl
          exact ⟨rfl, rfl⟩
      | _ => cases hshape

/-- A listing has one tree. -/
theorem postorder_injective : Function.Injective postorder := by
  intro e e' h
  have h' : [] ++ e.postorder = [] ++ e'.postorder := by rw [h]
  exact (append_postorder_inj h').2

end ParseTree

/-! ### The reference grammar -/

/-- The level of a value, above that of all operators between values. -/
def valueLevel : ℕ := 5

/-- The **reference grammar**. `Expression k ts vs e` says that `ts` is an expression whose loose
operators have at least the level `k`, that `vs` is `ts` with each prefix minus marked, and that
`e` is its tree. An operator has operands of its own level on the left and of a higher level on the
right, so operators of one level group from the left. -/
inductive Expression : ℕ → List Token → List Token → ParseTree → Prop
  | operand {k : ℕ} {t : Token} (ht : t.kind = .operand) :
      Expression k [t] [t] (.operand t ht)
  | group {k : ℕ} {o c : Token} {ts vs : List Token} {e : ParseTree} (ho : o.isOpening = true)
      (hc : c.isClosing = true) :
      Expression 1 ts vs e →
      Expression k (o :: (ts ++ [c])) (o :: (vs ++ [c])) e
  | minus {k : ℕ} {t : Token} {ts vs : List Token} {e : ParseTree} (ht : t.isMinus = true) :
      Expression valueLevel ts vs e →
      Expression k (t :: ts) (t.negated :: vs) (.minus t.negated rfl e)
  | call {k : ℕ} {f o c : Token} {ts vs : List Token} {e : ParseTree}
      (hf : f.kind = .function ∧ f.isAggregate = false) (ho : o.isOpening = true)
      (hc : c.isClosing = true) :
      Expression 1 ts vs e →
      Expression k (f :: o :: (ts ++ [c])) (f :: o :: (vs ++ [c])) (.call f hf e)
  | aggregate {k : ℕ} {f o i s₁ s₂ c : Token} {ls lv bs bv : List Token} {l b : ParseTree}
      (hf : f.isAggregate = true) (ho : o.isOpening = true) (hi : i.kind = .operand)
      (h₁ : s₁.isComma = true) (h₂ : s₂.isComma = true) (hc : c.isClosing = true) :
      Expression 1 ls lv l →
      Expression 1 bs bv b →
      Expression k (f :: o :: i :: s₁ :: (ls ++ s₂ :: (bs ++ [c])))
        (f :: o :: i :: s₁ :: (lv ++ s₂ :: (bv ++ [c]))) (.aggregate f hf i hi l b)
  | binary {k : ℕ} {op : Token} {ls lv rs rv : List Token} {l r : ParseTree}
      (hop : op.kind.isBinary = true) (hk : k ≤ op.kind.level) :
      Expression op.kind.level ls lv l →
      Expression (op.kind.level + 1) rs rv r →
      Expression k (ls ++ op :: rs) (lv ++ op :: rv) (.binary op hop l r)

/-- The **reference tree** of a sequence: `e` groups `ts` by the reference grammar. -/
def Reference (ts : List Token) (e : ParseTree) : Prop :=
  ∃ vs, Expression 1 ts vs e

/-- The level of an operator between values lies below that of a value. -/
theorem level_lt_of_isBinary {c : TokenClass} (h : c.isBinary = true) : c.level < valueLevel := by
  revert h
  cases c <;> decide

/-- An operator between values has a positive level. -/
theorem level_pos_of_isBinary {c : TokenClass} (h : c.isBinary = true) : 1 ≤ c.level := by
  revert h
  cases c <;> decide

/-- An expression of some level is one of every lower level. -/
theorem Expression.mono {j k : ℕ} {ts vs : List Token} {e : ParseTree} (h : Expression k ts vs e)
    (hjk : j ≤ k) : Expression j ts vs e := by
  cases h with
  | operand ht => exact .operand ht
  | group ho hc h => exact .group ho hc h
  | minus ht h => exact .minus ht h
  | call hf ho hc h => exact .call hf ho hc h
  | aggregate hf ho hi h₁ h₂ hc hl hb => exact .aggregate hf ho hi h₁ h₂ hc hl hb
  | binary hop hk hl hr => exact .binary hop (Nat.le_trans hjk hk) hl hr

/-- A value is a formula. -/
theorem Expression.formula {ts vs : List Token} {e : ParseTree}
    (h : Expression valueLevel ts vs e) : Expression 1 ts vs e :=
  h.mono (by decide)

/-- A value behind an operator is added at the right edge: below all operators that bind less
tightly, above all that bind as tightly or tighter. -/
theorem Expression.exists_chain {k : ℕ} {ls lv : List Token} {l : ParseTree}
    (hl : Expression k ls lv l) {op : Token} {rs rv : List Token} {r : ParseTree}
    (hop : op.kind.isBinary = true) (hk : k ≤ op.kind.level) (hr : Expression valueLevel rs rv r) :
    ∃ e, Expression k (ls ++ op :: rs) (lv ++ op :: rv) e := by
  have hright : Expression (op.kind.level + 1) rs rv r := hr.mono (level_lt_of_isBinary hop)
  induction hl with
  | operand ht => exact ⟨_, .binary hop hk (.operand ht) hright⟩
  | group ho hc h => exact ⟨_, .binary hop hk (.group ho hc h) hright⟩
  | minus ht h => exact ⟨_, .binary hop hk (.minus ht h) hright⟩
  | call hf ho hc h => exact ⟨_, .binary hop hk (.call hf ho hc h) hright⟩
  | aggregate hf ho hi h₁ h₂ hc hl hb =>
      exact ⟨_, .binary hop hk (.aggregate hf ho hi h₁ h₂ hc hl hb) hright⟩
  | @binary k op' ls lv ms mv l m hop' hk' hl hm _ ihm =>
      by_cases hle : op.kind.level ≤ op'.kind.level
      · exact ⟨_, .binary hop hk (.binary hop' hle hl hm) hright⟩
      · obtain ⟨e, he⟩ := ihm (by omega)
        refine ⟨.binary op' hop' l e, ?_⟩
        simpa only [List.append_assoc, List.cons_append] using Expression.binary hop' hk' hl he

/-- The level at which a category stands in the reference grammar. -/
def Category.level : Category → ℕ
  | formula => 1
  | value => valueLevel

/-- What the documented grammar derives has a tree. -/
theorem exists_expression_of_derives {c : Category} {ts vs : List Token} (h : Derives c ts vs) :
    ∃ e, Expression c.level ts vs e := by
  induction h with
  | operand ht => exact ⟨_, .operand ht⟩
  | group ho hc _ ih =>
      obtain ⟨e, he⟩ := ih
      exact ⟨_, .group ho hc he⟩
  | minus ht _ ih =>
      obtain ⟨e, he⟩ := ih
      exact ⟨_, .minus ht he⟩
  | call hf ha ho hc _ ih =>
      obtain ⟨e, he⟩ := ih
      exact ⟨_, .call ⟨hf, ha⟩ ho hc he⟩
  | aggregate hf ho hi h₁ h₂ hc _ _ ihl ihb =>
      obtain ⟨l, hl⟩ := ihl
      obtain ⟨b, hb⟩ := ihb
      exact ⟨_, .aggregate hf ho hi h₁ h₂ hc hl hb⟩
  | single _ ih =>
      obtain ⟨e, he⟩ := ih
      exact ⟨e, he.formula⟩
  | chain hop _ _ ihl ihr =>
      obtain ⟨l, hl⟩ := ihl
      obtain ⟨r, hr⟩ := ihr
      exact hl.exists_chain hop (level_pos_of_isBinary hop) hr

/-- What has a tree is derived by the documented grammar, as a value if no operator stands
loose. -/
theorem Expression.derives {k : ℕ} {ts vs : List Token} {e : ParseTree}
    (h : Expression k ts vs e) :
    Derives .formula ts vs ∧ (valueLevel ≤ k → Derives .value ts vs) := by
  have value {ts vs : List Token} (h : Derives .value ts vs) {p : Prop} :
      Derives .formula ts vs ∧ (p → Derives .value ts vs) := ⟨.single h, fun _ => h⟩
  induction h with
  | operand ht => exact value (.operand ht)
  | group ho hc _ ih => exact value (.group ho hc ih.1)
  | minus ht _ ih => exact value (.minus ht (ih.2 (Nat.le_refl _)))
  | call hf ho hc _ ih => exact value (.call hf.1 hf.2 ho hc ih.1)
  | aggregate hf ho hi h₁ h₂ hc _ _ ihl ihb =>
      exact value (.aggregate hf ho hi h₁ h₂ hc ihl.1 ihb.1)
  | binary hop hk _ _ ihl ihr =>
      refine ⟨.append hop ihl.1 ihr.1, fun hv => ?_⟩
      have := level_lt_of_isBinary hop
      omega

end Token

end Formulary
