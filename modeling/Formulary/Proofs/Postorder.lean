import Formulary.Proofs.Precedence
import Formulary.Text.Split
import Formulary.Token.Postorder

/-!
# Reordering Lists the Reference Tree

The stack machine that brings a checked sequence into postorder never sees a tree. Prefix minuses
and functions wait on its stack until the next operator, comma or closing parenthesis, so at any
moment one part of the listing is written and the rest of it waits.

The invariant is `Expression.exists_reorder`: after an expression is read, what was written and
what waits on top of the former stack make up the listing of its tree, and what waits binds at
least as tightly as the expression. The former stack has to hold still meanwhile (`Holds`): its
top must not go out before an operator of the expression.

## Main results

* `reorder_operator`, `reorder_closing`, `reorder_comma`: what the three kinds of tokens that
  clear the stack do when tokens wait on top of it.
* `Expression.exists_reorder`: the invariant.
* `Expression.toPostorder_eq`: a checked sequence is brought into the listing of its tree.
* `Reference.unique`: a sequence has one reference tree.
-/

namespace Formulary.Token

/-! ### One token -/

/-- A prefix minus or a function waits. -/
theorem reorder_leading {t : Token} (h : t.kind.isLeading = true) (stack rest : List Token) :
    reorder stack (t :: rest) = reorder (t :: stack) rest := by
  have hk : t.kind = .negation ∨ t.kind = .function := by
    simpa [TokenClass.isLeading] using h
  rw [reorder, if_neg, if_neg, if_neg, if_pos (by simp [h])]
  all_goals rcases hk with hk | hk <;> simp [isComma, isClosing, hk]

/-- An opening parenthesis waits. -/
theorem reorder_opening {o : Token} (h : o.isOpening = true) (stack rest : List Token) :
    reorder stack (o :: rest) = reorder (o :: stack) rest := by
  have hk := kind_of_isOpening h
  have ht : o.text = "(" := by
    simp only [isOpening, Bool.and_eq_true, beq_iff_eq] at h
    exact h.2
  rw [reorder, if_neg (by simp [hk]), if_neg (by simp [isClosing, ht]),
    if_neg (by simp [isComma, ht]), if_pos (by simp [h])]

/-- Whether tokens **wait** for an operator of rank `k` or less: they are no parentheses and bind
at least as tightly. -/
def Waiting (k : ℕ) (ws : List Token) : Prop :=
  ∀ w ∈ ws, w.kind ≠ .structural ∧ k ≤ w.kind.rank

/-- Whether a stack **holds** still while an expression of rank `k` is read: its top stays under
every operator of at least that rank. -/
def Holds (k : ℕ) (stack : List Token) : Prop :=
  ∀ w ∈ stack.head?, ∀ c : TokenClass, c.isBinary = true → k ≤ c.rank → yieldsTo c w = false

/-- Tokens that wait yield to an operator of their rank. -/
theorem Waiting.yieldsTo {c : TokenClass} {ws : List Token} (h : Waiting c.rank ws) :
    ∀ w ∈ ws, Token.yieldsTo c w = true := by
  intro w hw
  obtain ⟨hs, hk⟩ := h w hw
  simp [Token.yieldsTo, hs, hk]

/-- Tokens that wait are no opening parentheses. -/
theorem Waiting.not_isOpening {k : ℕ} {ws : List Token} (h : Waiting k ws) :
    ∀ w ∈ ws, (!w.isOpening) = true := by
  intro w hw
  simp [isOpening, (h w hw).1]

/-- Tokens that wait for a rank wait for every lower one. -/
theorem Waiting.mono {j k : ℕ} {ws : List Token} (h : Waiting k ws) (hjk : j ≤ k) :
    Waiting j ws :=
  fun w hw => ⟨(h w hw).1, Nat.le_trans hjk (h w hw).2⟩

/-- A stack that holds for a rank holds for every higher one. -/
theorem Holds.mono {j k : ℕ} {stack : List Token} (h : Holds j stack) (hjk : j ≤ k) :
    Holds k stack :=
  fun w hw c hc hk => h w hw c hc (Nat.le_trans hjk hk)

/-- Every stack holds while a value is read, since no operator stands loose in it. -/
theorem holds_valueLevel (stack : List Token) : Holds valueLevel stack := by
  intro w _ c hc hk
  rw [← TokenClass.level_eq_rank hc] at hk
  exact absurd hk (Nat.not_le.2 (level_lt_of_isBinary hc))

/-- A stack with an opening parenthesis on top holds. -/
theorem holds_opening {o : Token} (h : o.isOpening = true) (k : ℕ) (stack : List Token) :
    Holds k (o :: stack) := by
  intro w hw c _ _
  obtain rfl : o = w := by simpa using hw
  simp [yieldsTo, kind_of_isOpening h]

/-- A stack with an operator on top holds while its right operand is read. -/
theorem holds_operator (op : Token) (stack : List Token) :
    Holds (op.kind.rank + 1) (op :: stack) := by
  intro w hw c _ hk
  obtain rfl : op = w := by simpa using hw
  have : ¬ c.rank ≤ op.kind.rank := by omega
  simp [yieldsTo, this]

/-- An operator between values sends out what waits on top of a stack that holds. -/
theorem reorder_operator {op : Token} (hop : op.kind.isBinary = true) {ws stack : List Token}
    (hws : Waiting op.kind.rank ws) (hstack : Holds op.kind.rank stack) (rest : List Token) :
    reorder (ws ++ stack) (op :: rest) = ws ++ reorder (op :: stack) rest := by
  obtain ⟨htake, hdrop⟩ := Text.takeWhile_append_of_head hws.yieldsTo
    fun w hw => hstack w hw op.kind hop (Nat.le_refl _)
  have hk : op.kind ≠ .operand ∧ op.kind ≠ .structural ∧ op.kind.isLeading = false := by
    revert hop
    cases op.kind <;> decide
  obtain ⟨hoperand, hstructural, hleading⟩ := hk
  rw [reorder, if_neg hoperand, if_neg (by simp [isClosing, hstructural]),
    if_neg (by simp [isComma, hstructural]), if_neg (by simp [hleading, isOpening, hstructural]),
    htake, hdrop]

/-- A closing parenthesis sends out what waits above the opening one, and removes that. -/
theorem reorder_closing {o c : Token} (ho : o.isOpening = true) (hc : c.isClosing = true) {k : ℕ}
    {ws : List Token} (hws : Waiting k ws) (stack rest : List Token) :
    reorder (ws ++ o :: stack) (c :: rest) = ws ++ reorder stack rest := by
  have hstack : ∀ w ∈ (o :: stack).head?, (!w.isOpening) = false := by simp [ho]
  obtain ⟨htake, hdrop⟩ := Text.takeWhile_append_of_head hws.not_isOpening hstack
  rw [reorder, if_neg (by simp [kind_of_isClosing hc]), if_pos hc, htake, hdrop, List.drop_one,
    List.tail_cons]

/-- A comma sends out what waits above the opening parenthesis, and leaves that. -/
theorem reorder_comma {o s : Token} (ho : o.isOpening = true) (hs : s.isComma = true) {k : ℕ}
    {ws : List Token} (hws : Waiting k ws) (stack rest : List Token) :
    reorder (ws ++ o :: stack) (s :: rest) = ws ++ reorder (o :: stack) rest := by
  have hstack : ∀ w ∈ (o :: stack).head?, (!w.isOpening) = false := by simp [ho]
  obtain ⟨htake, hdrop⟩ := Text.takeWhile_append_of_head hws.not_isOpening hstack
  have ht : s.text = "," := by
    simp only [isComma, Bool.and_eq_true, beq_iff_eq] at hs
    exact hs.2
  rw [reorder, if_neg (by simp [kind_of_isComma hs]), if_neg (by simp [isClosing, ht]), if_pos hs,
    htake, hdrop]

/-! ### One expression -/

/-- **The invariant.** When an expression was read above a stack that holds, a part of its listing
is written and the rest waits on top of the stack, to go out before the next operator of its rank
or less. -/
theorem Expression.exists_reorder {k : ℕ} {ts vs : List Token} {e : ParseTree}
    (h : Expression k ts vs e) (hk : k ≤ valueLevel) :
    ∃ out ws, e.postorder = out ++ ws ∧ Waiting k ws ∧
      ∀ stack rest, Holds k stack →
        reorder stack (vs ++ rest) = out ++ reorder (ws ++ stack) rest := by
  induction h with
  | @operand k t ht =>
      refine ⟨[t], [], rfl, by simp [Waiting], fun stack rest _ => ?_⟩
      exact reorder_operand ht
  | @group k o c ts vs e ho hc _ ih =>
      obtain ⟨out, ws, he, hws, hread⟩ := ih (by decide)
      refine ⟨out ++ ws, [], by simp [he], by simp [Waiting], fun stack rest _ => ?_⟩
      simp only [List.cons_append, List.append_assoc, List.nil_append]
      rw [reorder_opening ho, hread _ _ (holds_opening ho 1 stack), reorder_closing ho hc hws]
  | @minus k t ts vs e ht _ ih =>
      obtain ⟨out, ws, he, hws, hread⟩ := ih (Nat.le_refl _)
      refine ⟨out, ws ++ [t.negated], by simp [ParseTree.postorder, he], ?_,
        fun stack rest _ => ?_⟩
      · intro w hw
        rcases List.mem_append.1 hw with hw | hw
        · exact hws.mono hk w hw
        · obtain rfl := List.mem_singleton.1 hw
          exact ⟨by simp [negated], hk⟩
      · rw [List.cons_append, reorder_leading rfl, hread _ _ (holds_valueLevel _)]
        simp
  | @call k f o c ts vs e hf ho hc _ ih =>
      obtain ⟨out, ws, he, hws, hread⟩ := ih (by decide)
      refine ⟨out ++ ws, [f], by simp [ParseTree.postorder, he], ?_, fun stack rest _ => ?_⟩
      · intro w hw
        obtain rfl := List.mem_singleton.1 hw
        exact ⟨by simp [hf.1], Nat.le_trans hk (by simp [hf.1, valueLevel, TokenClass.rank])⟩
      · simp only [List.cons_append, List.append_assoc, List.nil_append]
        rw [reorder_leading (by simp [TokenClass.isLeading, hf.1]), reorder_opening ho,
          hread _ _ (holds_opening ho 1 _), reorder_closing ho hc hws]
  | @aggregate k f o i s₁ s₂ c ls lv bs bv l b hf ho hi h₁ h₂ hc _ _ ihl ihb =>
      obtain ⟨lout, lws, hle, hlws, hlread⟩ := ihl (by decide)
      obtain ⟨bout, bws, hbe, hbws, hbread⟩ := ihb (by decide)
      have hkind := kind_of_isAggregate hf
      refine ⟨i :: (lout ++ (lws ++ (bout ++ bws))), [f],
        by simp [ParseTree.postorder, hle, hbe], ?_, fun stack rest _ => ?_⟩
      · intro w hw
        obtain rfl := List.mem_singleton.1 hw
        exact ⟨by simp [hkind], Nat.le_trans hk (by simp [hkind, valueLevel, TokenClass.rank])⟩
      · have hheld := holds_opening ho 1 (f :: stack)
        have hnone : Waiting 1 [] := by simp [Waiting]
        have hcomma := reorder_comma ho h₁ hnone (f :: stack)
        simp only [List.cons_append, List.append_assoc, List.nil_append] at hcomma ⊢
        rw [reorder_leading (by simp [TokenClass.isLeading, hkind]), reorder_opening ho,
          reorder_operand hi, hcomma, hlread _ _ hheld, reorder_comma ho h₂ hlws,
          hbread _ _ hheld, reorder_closing ho hc hbws]
  | @binary k op ls lv rs rv l r hop hkop _ _ ihl ihr =>
      have hlt := level_lt_of_isBinary hop
      rw [TokenClass.level_eq_rank hop] at hkop hlt ihl ihr
      obtain ⟨lout, lws, hle, hlws, hlread⟩ := ihl (by omega)
      obtain ⟨rout, rws, hre, hrws, hrread⟩ := ihr (by omega)
      refine ⟨lout ++ (lws ++ rout), rws ++ [op], by simp [ParseTree.postorder, hle, hre], ?_,
        fun stack rest hstack => ?_⟩
      · intro w hw
        rcases List.mem_append.1 hw with hw | hw
        · exact hrws.mono (by omega) w hw
        · obtain rfl := List.mem_singleton.1 hw
          refine ⟨fun hs => ?_, hkop⟩
          rw [hs] at hop
          cases hop
      · have hheld := hstack.mono hkop
        simp only [List.cons_append, List.append_assoc]
        rw [hlread _ _ hheld, reorder_operator hop hlws hheld, hrread _ _ (holds_operator op stack)]
        simp

/-- **Reordering lists the tree.** A checked sequence is brought into the postorder listing of its
reference tree. -/
theorem Expression.toPostorder_eq {ts vs : List Token} {e : ParseTree}
    (h : Expression 1 ts vs e) : toPostorder vs = e.postorder := by
  obtain ⟨out, ws, he, -, hread⟩ := h.exists_reorder (by decide)
  have := hread [] [] (by simp [Holds])
  simpa [toPostorder, reorder, he] using this

/-- A sequence has one reference tree, since it has one marking and the marking one listing. -/
theorem Reference.unique {ts : List Token} {e e' : ParseTree} (h : Reference ts e)
    (h' : Reference ts e') : e = e' := by
  obtain ⟨vs, h⟩ := h
  obtain ⟨vs', h'⟩ := h'
  have hvs := h.derives.1.validate_eq
  rw [h'.derives.1.validate_eq] at hvs
  obtain rfl : vs' = vs := Except.ok.inj hvs
  exact ParseTree.postorder_injective (h.toPostorder_eq.symm.trans h'.toPostorder_eq)

end Formulary.Token
