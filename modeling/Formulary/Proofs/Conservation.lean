import Formulary.Proofs.Postorder
import Mathlib.Data.List.Infix
import Mathlib.Data.List.TakeWhile

/-!
# Reordering Loses No Token

The stack machine that reorders tokens is meant for checked sequences, but it runs on every
sequence: on parentheses that do not match, on stray commas and on marks of the end. This module
says what it keeps on all of them. Apart from parentheses and commas it loses no token and makes
none up, operands stay in their order, and what it lets through of the parentheses are the opening
ones that are never closed.

## Conventions

The **delimiters** are the parentheses and the comma. They are told by their class and text, so an
operand whose text is a parenthesis is no delimiter.

The **depth** is the number of parentheses that are open. A closing parenthesis leaves a depth of
zero as it is.

## Main results

* `exists_moves`: what one token does, with its guards.
* `conserves_reorder`: what the run of the machine keeps on every stack that can arise.
* `toPostorder_conserves`: what reordering keeps on every sequence.
-/

namespace Formulary.Token

/-- Whether the token is a **delimiter**: a parenthesis or a comma. -/
def isDelimiter (t : Token) : Bool :=
  t.isOpening || t.isClosing || t.isComma

/-- The **content** of a sequence: its tokens that are no delimiters. -/
def content (ts : List Token) : List Token :=
  ts.filter (!·.isDelimiter)

/-- The **operands** of a sequence, in their order. -/
def operands (ts : List Token) : List Token :=
  ts.filter (·.kind == .operand)

/-- The content of a sequence in two parts. -/
theorem content_append (ts us : List Token) : content (ts ++ us) = content ts ++ content us :=
  List.filter_append _ _

/-- The operands of a sequence in two parts. -/
theorem operands_append (ts us : List Token) :
    operands (ts ++ us) = operands ts ++ operands us :=
  List.filter_append _ _

/-- The depth behind a token, if it is `depth` in front of it. -/
def depthAfter (depth : ℕ) (t : Token) : ℕ :=
  if t.isOpening then depth + 1 else if t.isClosing then depth - 1 else depth

/-- Whether the parentheses **balance**: no beginning closes more than it opens, and all that are
opened are closed. -/
structure Balanced (ts : List Token) : Prop where
  closed_le {front : List Token} (h : front <+: ts) :
    front.countP isClosing ≤ front.countP isOpening
  closed_eq : ts.countP isClosing = ts.countP isOpening

/-- An opening parenthesis is no closing one. -/
theorem not_isClosing_of_isOpening {t : Token} (h : t.isOpening = true) : t.isClosing = false := by
  simp only [isOpening, Bool.and_eq_true, beq_iff_eq] at h
  simp [isClosing, h.2]

/-- What one token adds to the depth, unless it closes what is not open. -/
theorem depthAfter_add {t : Token} {depth : ℕ}
    (h : [t].countP isClosing ≤ depth + [t].countP isOpening) :
    depthAfter depth t + [t].countP isClosing = depth + [t].countP isOpening := by
  rw [List.countP_singleton, List.countP_singleton] at h ⊢
  rw [depthAfter]
  cases hopening : t.isOpening with
  | true => simp [not_isClosing_of_isOpening hopening]
  | false =>
      cases hclosing : t.isClosing with
      | false => simp
      | true =>
          have hpos : 1 ≤ depth := by simpa [hopening, hclosing] using h
          simpa using Nat.sub_add_cancel hpos

/-- The depth counts what is open, if no beginning closes more than is open. -/
theorem foldl_depthAfter {ts : List Token} (depth : ℕ)
    (h : ∀ front, front <+: ts → front.countP isClosing ≤ depth + front.countP isOpening) :
    ts.foldl depthAfter depth + ts.countP isClosing = depth + ts.countP isOpening := by
  induction ts generalizing depth with
  | nil => rfl
  | cons t rest ih =>
      have hcons (p : Token → Bool) (front : List Token) :
          (t :: front).countP p = [t].countP p + front.countP p := by
        rw [← List.countP_append, List.singleton_append]
      have hfirst := depthAfter_add (h [t] (List.prefix_append [t] rest))
      have hrest := ih (depthAfter depth t) fun front hfront => by
        have hwhole := h (t :: front) (List.cons_prefix_cons.2 ⟨rfl, hfront⟩)
        rw [hcons isClosing front, hcons isOpening front] at hwhole
        omega
      rw [List.foldl_cons, hcons isClosing rest, hcons isOpening rest]
      omega

/-- Behind balanced parentheses none is open. -/
theorem Balanced.depth_eq {ts : List Token} (h : Balanced ts) : ts.foldl depthAfter 0 = 0 := by
  have hcount := foldl_depthAfter 0 fun front hfront => by
    rw [Nat.zero_add]
    exact h.closed_le hfront
  have heq := h.closed_eq
  omega

/-! ### One token -/

/-- Whether tokens **can wait**: none of them is an operand, a closing parenthesis or a comma. -/
def CanWait (stack : List Token) : Prop :=
  ∀ w ∈ stack, w.kind ≠ .operand ∧ w.isClosing = false ∧ w.isComma = false

/-- What a token **does** to a stack: which tokens are sent out, and which wait afterwards. What is
sent out from the stack is its top, and no opening parenthesis is among it. -/
inductive Moves (stack : List Token) (t : Token) : List Token → List Token → Prop
  | passes (h : t.kind = .operand) : Moves stack t [t] stack
  | closes {sent below : List Token} (h : t.isClosing = true) (hstack : stack = sent ++ below)
      (hsent : ∀ w ∈ sent, w.isOpening = false) (hbelow : ∀ w ∈ below.head?, w.isOpening = true) :
      Moves stack t sent below.tail
  | separates {sent below : List Token} (h : t.isComma = true) (hstack : stack = sent ++ below)
      (hsent : ∀ w ∈ sent, w.isOpening = false) : Moves stack t sent below
  | waits {sent below : List Token} (hkind : t.kind ≠ .operand) (hclosing : t.isClosing = false)
      (hcomma : t.isComma = false) (hstack : stack = sent ++ below)
      (hsent : ∀ w ∈ sent, w.isOpening = false) : Moves stack t sent (t :: below)

/-- **Every token makes one move**, whatever stands in front of it and behind it. -/
theorem exists_moves (stack : List Token) (t : Token) :
    ∃ sent next, Moves stack t sent next ∧
      ∀ rest, reorder stack (t :: rest) = sent ++ reorder next rest := by
  have hsplit (p : Token → Bool) : stack = stack.takeWhile p ++ stack.dropWhile p :=
    List.takeWhile_append_dropWhile.symm
  have hsent : ∀ w ∈ stack.takeWhile (!·.isOpening), w.isOpening = false := fun w hw => by
    simpa using List.mem_takeWhile_imp hw
  by_cases hkind : t.kind = .operand
  · exact ⟨_, _, .passes hkind, fun rest => reorder_operand hkind⟩
  cases hclosing : t.isClosing with
  | true =>
      refine ⟨_, _, .closes hclosing (hsplit _) hsent fun w hw => ?_, fun rest => ?_⟩
      · have hhead := List.head?_dropWhile_not (!·.isOpening) stack
        rw [Option.mem_def.1 hw] at hhead
        simpa using hhead
      · rw [reorder, if_neg hkind, if_pos hclosing, List.drop_one]
  | false =>
      cases hcomma : t.isComma with
      | true =>
          refine ⟨_, _, .separates hcomma (hsplit _) hsent, fun rest => ?_⟩
          rw [reorder, if_neg hkind, if_neg (by simp [hclosing]), if_pos hcomma]
      | false =>
          by_cases hwaits : (t.kind.isLeading || t.isOpening) = true
          · refine ⟨[], _, .waits hkind hclosing hcomma rfl (List.forall_mem_nil _), fun rest => ?_⟩
            rw [reorder, if_neg hkind, if_neg (by simp [hclosing]), if_neg (by simp [hcomma]),
              if_pos hwaits, List.nil_append]
          · refine ⟨_, _, .waits hkind hclosing hcomma (hsplit (yieldsTo t.kind)) fun w hw => ?_,
              fun rest => ?_⟩
            · have hyields := List.mem_takeWhile_imp hw
              rw [yieldsTo, Bool.and_eq_true, bne_iff_ne] at hyields
              exact Bool.eq_false_iff.2 fun hopening => hyields.2 (kind_of_isOpening hopening)
            · rw [reorder, if_neg hkind, if_neg (by simp [hclosing]), if_neg (by simp [hcomma]),
                if_neg hwaits]

namespace Moves

variable {stack sent next : List Token} {t : Token}

/-- What waits after a move can wait. -/
theorem canWait (h : Moves stack t sent next) (hstack : CanWait stack) : CanWait next := by
  cases h with
  | passes => exact hstack
  | closes _ heq =>
      subst heq
      exact fun w hw => hstack w (List.mem_append_right _ (List.mem_of_mem_tail hw))
  | separates _ heq =>
      subst heq
      exact fun w hw => hstack w (List.mem_append_right _ hw)
  | waits hkind hclosing hcomma heq =>
      subst heq
      refine List.forall_mem_cons.2 ⟨⟨hkind, hclosing, hcomma⟩, fun w hw => ?_⟩
      exact hstack w (List.mem_append_right _ hw)

/-- A move keeps every token that is no delimiter. -/
theorem perm (h : Moves stack t sent next) :
    (content (sent ++ next)).Perm (content (t :: stack)) := by
  cases h with
  | passes => exact .refl _
  | @closes sent below hclosing heq _ hbelow =>
      have hdelimiter : t.isDelimiter = true := by simp [isDelimiter, hclosing]
      subst heq
      cases below with
      | nil => simp [content, hdelimiter]
      | cons o below =>
          have hopening : o.isDelimiter = true := by simp [isDelimiter, hbelow o rfl]
          simp [content, hdelimiter, hopening]
  | separates hcomma heq =>
      have hdelimiter : t.isDelimiter = true := by simp [isDelimiter, hcomma]
      subst heq
      simp [content, hdelimiter]
  | waits _ _ _ heq =>
      subst heq
      exact List.perm_middle.filter _

/-- A move sends out the token itself if it is an operand, and no other operand. -/
theorem operands_eq (h : Moves stack t sent next) (hstack : CanWait stack) :
    operands sent = operands [t] := by
  have hnone {below : List Token} (heq : stack = sent ++ below) (hkind : t.kind ≠ .operand) :
      operands sent = operands [t] := by
    subst heq
    have hsent : operands sent = [] := List.filter_eq_nil_iff.2 fun w hw => by
      simpa using (hstack w (List.mem_append_left _ hw)).1
    have hother : operands [t] = [] := by simp [operands, hkind]
    rw [hsent, hother]
  cases h with
  | passes => rfl
  | closes hclosing heq => exact hnone heq (by simp [kind_of_isClosing hclosing])
  | separates hcomma heq => exact hnone heq (by simp [kind_of_isComma hcomma])
  | waits hkind _ _ heq => exact hnone heq hkind

/-- A move sends out no closing parenthesis and no comma. -/
theorem not_closing (h : Moves stack t sent next) (hstack : CanWait stack) :
    ∀ w ∈ sent, w.isClosing = false ∧ w.isComma = false := by
  cases h with
  | passes hkind =>
      refine List.forall_mem_singleton.2 ⟨?_, ?_⟩ <;> simp [isClosing, isComma, hkind]
  | closes _ heq | separates _ heq | waits _ _ _ heq =>
      subst heq
      exact fun w hw => (hstack w (List.mem_append_left _ hw)).2

/-- A move sends out no opening parenthesis, and as many wait afterwards as are open. -/
theorem openings (h : Moves stack t sent next) :
    sent.countP isOpening = 0 ∧
      next.countP isOpening = depthAfter (stack.countP isOpening) t := by
  have hnone {sent : List Token} (hsent : ∀ w ∈ sent, w.isOpening = false) :
      sent.countP isOpening = 0 := List.countP_eq_zero.2 fun w hw => by simp [hsent w hw]
  cases h with
  | passes hkind => simp [depthAfter, isOpening, isClosing, hkind]
  | @closes sent below hclosing heq hsent hbelow =>
      have hopening : t.isOpening = false := Bool.eq_false_iff.2 fun hopening => by
        rw [not_isClosing_of_isOpening hopening] at hclosing
        cases hclosing
      subst heq
      -- the parenthesis that is closed is the first one below what is sent out
      cases below with
      | nil => simp [hnone hsent, depthAfter, hopening, hclosing]
      | cons o below => simp [hnone hsent, depthAfter, hopening, hclosing, hbelow o rfl]
  | separates hcomma heq hsent =>
      have htext : t.text = "," := by
        simp only [isComma, Bool.and_eq_true, beq_iff_eq] at hcomma
        exact hcomma.2
      subst heq
      simp [hnone hsent, depthAfter, isOpening, isClosing, htext]
  | waits _ hclosing _ heq hsent =>
      subst heq
      cases hopening : t.isOpening <;> simp [hnone hsent, depthAfter, hopening, hclosing]

end Moves

/-! ### The whole run -/

/-- What the output of a run **conserves** of the stack at its start and the tokens that it read. -/
structure Conserves (stack ts out : List Token) : Prop where
  /-- The tokens that are no delimiters are the same, each as often. -/
  perm : (content out).Perm (content (ts ++ stack))
  /-- The operands are the same, in the same order. -/
  operands_eq : operands out = operands ts
  /-- No closing parenthesis and no comma comes out. -/
  not_closing : ∀ t ∈ out, t.isClosing = false ∧ t.isComma = false
  /-- As many opening parentheses come out as are open in the end. -/
  openings : out.countP isOpening = ts.foldl depthAfter (stack.countP isOpening)

/-- **What the run conserves**, by induction on the tokens: one move for each of them. -/
theorem conserves_reorder {stack : List Token} (hstack : CanWait stack) (ts : List Token) :
    Conserves stack ts (reorder stack ts) := by
  induction ts generalizing stack with
  | nil =>
      refine ⟨.refl _, List.filter_eq_nil_iff.2 fun w hw => ?_, fun w hw => (hstack w hw).2, rfl⟩
      simpa using (hstack w hw).1
  | cons t rest ih =>
      obtain ⟨sent, next, hmove, heq⟩ := exists_moves stack t
      have hrest := ih (hmove.canWait hstack)
      obtain ⟨hzero, hdepth⟩ := hmove.openings
      rw [heq]
      refine ⟨?_, ?_, fun w hw => ?_, ?_⟩
      · have hout :
            (content (sent ++ reorder next rest)).Perm (content (sent ++ (rest ++ next))) := by
          rw [content_append, content_append sent]
          exact hrest.perm.append_left _
        have hswapped :
            (content (sent ++ (rest ++ next))).Perm (content (rest ++ (sent ++ next))) :=
          (List.perm_append_comm_assoc sent rest next).filter _
        have hmoved : (content (rest ++ (sent ++ next))).Perm (content (rest ++ t :: stack)) := by
          rw [content_append, content_append rest]
          exact hmove.perm.append_left _
        exact hout.trans (hswapped.trans (hmoved.trans (List.perm_middle.filter _)))
      · rw [operands_append, hmove.operands_eq hstack, hrest.operands_eq, ← operands_append,
          List.singleton_append]
      · rcases List.mem_append.1 hw with hw | hw
        · exact hmove.not_closing hstack w hw
        · exact hrest.not_closing w hw
      · rw [List.countP_append, hzero, Nat.zero_add, hrest.openings, hdepth, List.foldl_cons]

/-- **Reordering conserves tokens** on every sequence. Apart from parentheses and commas the tokens
are the same, each as often, and the operands come in the same order. No closing parenthesis and no
comma comes out, and as many opening parentheses as are open in the end; if the parentheses balance,
this is none. -/
theorem toPostorder_conserves (ts : List Token) :
    (content (toPostorder ts)).Perm (content ts) ∧
      operands (toPostorder ts) = operands ts ∧
      (∀ t ∈ toPostorder ts, t.isClosing = false ∧ t.isComma = false) ∧
      (toPostorder ts).countP isOpening = ts.foldl depthAfter 0 ∧
      (Balanced ts → ∀ t ∈ toPostorder ts, t.isOpening = false) := by
  have hrun : Conserves [] ts (toPostorder ts) := conserves_reorder (List.forall_mem_nil _) ts
  have hperm := hrun.perm
  rw [List.append_nil] at hperm
  refine ⟨hperm, hrun.operands_eq, hrun.not_closing, hrun.openings, fun hbalanced t ht => ?_⟩
  have hnone : (toPostorder ts).countP isOpening = 0 := hrun.openings.trans hbalanced.depth_eq
  simpa using List.countP_eq_zero.1 hnone t ht

/-- A sequence that no formula has, with balanced parentheses: a comma and an operator stand loose,
and a mark of the end stands between them. -/
theorem toPostorder_conserves_ungrammatical :
    let ts : List Token := [⟨"(", .structural, none⟩, ⟨",", .structural, none⟩,
      ⟨"x", .operand, none⟩, ⟨"", .finish, none⟩, ⟨"*", .multiplicative, none⟩,
      ⟨")", .structural, none⟩, ⟨"(", .operand, none⟩]
    Balanced ts ∧ ∀ t ∈ toPostorder ts, t.isOpening = false := by
  intro ts
  have hbalanced : Balanced ts := by
    refine ⟨fun {front} hfront => ?_, by decide⟩
    have hall : ∀ front ∈ ts.inits, front.countP isClosing ≤ front.countP isOpening := by decide
    exact hall front ((List.mem_inits _ _).2 hfront)
  exact ⟨hbalanced, (toPostorder_conserves ts).2.2.2.2 hbalanced⟩

end Formulary.Token
