import Formulary.Proofs.Counting
import Formulary.Proofs.Frame

/-!
# Formulas Have a Lexically Scoped Meaning

The evaluation of a formula binds a counter by writing it into the store and unbinds it by undoing
the write. The meaning of a formula knows no store: names are read from an environment, and an
aggregate gives its body an extended one. This module proves that both agree, also where counters
shadow each other, where a body is never run, and where a name is missing in the middle of a round.

## Conventions

A meaning is a computation that draws samples, which it counts, and may fail with the name that is
unbound. An outcome **agrees** with it if it has the same value or the same unbound name, has drawn
as many samples, and leaves the store as it was.

The limit of an aggregate has to be passable, since no other loop ends. The condition is put on the
limits that the evaluation reaches, and not on the others.

## Main results

* `runRounds_agrees`: the rounds of an aggregate compute the fold over its counters.
* `Formula.run_agrees`, `Formula.evaluate_agrees`: an evaluation computes the meaning.
-/

namespace Formulary

open Number (Passable wholeCount one_eq_ofNat ofNat_add_one)

/-- An **environment**: the values of the names that are bound. -/
abbrev Environment := String → Option Float

/-- The environment with a name bound to a value, whatever it was before. -/
def Environment.bind (env : Environment) (name : String) (value : Float) : Environment :=
  Function.update env name (some value)

/-- A **meaning**: a computation that counts the samples it draws and fails with an unbound name. -/
abbrev Meaning := ExceptT String (StateM ℕ)

/-- The **meaning of a formula** in an environment. A sum adds its terms to `0.0` and a product
multiplies `1.0` by them, from the first to the last. -/
def Formula.meaning (mode : Mode) (samples : Samples) : Formula → Environment → Meaning Float
  | literal value, _ => return value
  | var name, env => do
    if name = sampleName then
      return samples (← getModify (· + 1))
    else if lowercase name = "pi" then
      return piValue
    else if lowercase name = "e" then
      return eValue
    else
      match env name with
      | some value => return value
      | none => throw name
  | unary op operand, env => return op.value mode (← operand.meaning mode samples env)
  | binary op left right, env => do
    let a ← left.meaning mode samples env
    let b ← right.meaning mode samples env
    return op.value mode a b
  | aggregate .sum counter limit body, env => do
    let bound ← limit.meaning mode samples env
    (List.range' 1 (wholeCount bound)).foldlM (fun total k => do
      return total + (← body.meaning mode samples (env.bind counter (Float.ofNat k)))) 0.0
  | aggregate .mult counter limit body, env => do
    let bound ← limit.meaning mode samples env
    (List.range' 1 (wholeCount bound)).foldlM (fun total k => do
      return total * (← body.meaning mode samples (env.bind counter (Float.ofNat k)))) 1.0

/-- Sums and products differ only in how a term is added and in the total without terms. -/
theorem Formula.meaning_aggregate (mode : Mode) (samples : Samples) (op : AggregateOp)
    (counter : String) (limit body : Formula) (env : Environment) :
    (aggregate op counter limit body).meaning mode samples env = (do
      let bound ← limit.meaning mode samples env
      (List.range' 1 (wholeCount bound)).foldlM (fun total k => do
        let term ← body.meaning mode samples (env.bind counter (Float.ofNat k))
        return op.combine total term) op.unit) := by
  cases op <;> rfl

/-- Runs a meaning after so many samples were drawn. -/
def Meaning.runFrom {α : Type} (meaning : Meaning α) (drawn : ℕ) : Except String α × ℕ :=
  (meaning.run.run drawn).run

namespace Meaning

variable {α β : Type} {meaning : Meaning α} {drawn next : ℕ}

/-- A meaning goes on with the value that it got. -/
theorem runFrom_bind_ok {x : α} (h : meaning.runFrom drawn = (.ok x, next))
    (f : α → Meaning β) : Meaning.runFrom (meaning >>= f) drawn = (f x).runFrom next := by
  simp only [runFrom] at h
  simp [runFrom, h]

/-- A meaning that meets an unbound name does not go on. -/
theorem runFrom_bind_error {name : String} (h : meaning.runFrom drawn = (.error name, next))
    (f : α → Meaning β) : Meaning.runFrom (meaning >>= f) drawn = (.error name, next) := by
  simp only [runFrom] at h
  simp [runFrom, h]

end Meaning

/-- An outcome **agrees** with what a meaning gives. -/
inductive Agrees (store : Store) : Except String Float × ℕ → Outcome → Prop
  | value (x : Float) (drawn : ℕ) : Agrees store (.ok x, drawn) (.ok x, ⟨store, drawn⟩)
  | unbound (name : String) (available : List String) (drawn : ℕ) :
      Agrees store (.error name, drawn) (.error (.unbound name available), ⟨store, drawn⟩)

/-- The two ways to agree: in a value and in an unbound name. -/
theorem agrees_cases {store : Store} {r : Except String Float × ℕ} {outcome : Outcome}
    (h : Agrees store r outcome) :
    (∃ x drawn, r = (.ok x, drawn) ∧ outcome = (.ok x, ⟨store, drawn⟩)) ∨
      ∃ name available drawn, r = (.error name, drawn) ∧
        outcome = (.error (.unbound name available), ⟨store, drawn⟩) := by
  cases h with
  | value x drawn => exact .inl ⟨x, drawn, rfl, rfl⟩
  | unbound name available drawn => exact .inr ⟨name, available, drawn, rfl, rfl⟩

/-! ### Agreement -/

/-- A name is looked up as its meaning says. -/
theorem lookUp_agrees (mode : Mode) (samples : Samples) (name : String) (w : Workspace) :
    Agrees w.store (((Formula.var name).meaning mode samples w.store.get?).runFrom w.drawn)
      (lookUp samples name w) := by
  rw [Formula.meaning, lookUp, constant?]
  by_cases hr : name = sampleName
  · rw [if_pos hr, if_pos hr]
    exact .value ..
  · rw [if_neg hr, if_neg hr]
    by_cases hpi : lowercase name = "pi"
    · rw [if_pos hpi, if_pos hpi]
      exact .value ..
    · rw [if_neg hpi, if_neg hpi]
      by_cases he : lowercase name = "e"
      · rw [if_pos he, if_pos he]
        exact .value ..
      · rw [if_neg he, if_neg he]
        cases w.store.get? name with
        | some value => exact .value ..
        | none => exact .unbound ..

/-- The store with a counter set is the environment with the counter bound. -/
theorem get?_put_eq_bind (s : Store) (counter : String) (value : Float) :
    (s.put counter value).get? = Environment.bind s.get? counter value := by
  funext name
  rw [Store.get?_put, Environment.bind, Function.update_apply]

/-- **The rounds agree.** Each one finds the store as it was but for the counter, which it sets and
which is given back at the end. -/
theorem runRounds_agrees {mode : Mode} {samples : Samples} {op : AggregateOp} {counter : String}
    {bound : Float} (hbound : Passable bound) {body : Formula} {u : Workspace}
    (hbody : ∀ {value total : Float} {w : Workspace},
      Enters op bound (withCounter counter (body.run mode samples)) u value total w →
      Agrees (w.store.put counter value)
        ((body.meaning mode samples (w.store.put counter value).get?).runFrom w.drawn)
        (withCounter counter (body.run mode samples) value w)) {m : ℕ} :
    ∀ {k : ℕ} {total : Float} {w : Workspace}, 0 < k → k + m = wholeCount bound + 1 →
      (0 < m → Enters op bound (withCounter counter (body.run mode samples)) u
        (Float.ofNat k) total w) →
      w.store.restore counter (u.store.get? counter) = u.store →
      Agrees u.store
        (Meaning.runFrom ((List.range' k m).foldlM (fun total k => do
          let term ← body.meaning mode samples
            (Environment.bind u.store.get? counter (Float.ofNat k))
          return op.combine total term) total) w.drawn)
        (restoring counter (u.store.get? counter)
          (runRounds op (fun k => withCounter counter (body.run mode samples) (Float.ofNat k))
            (List.range' k m) total w)) := by
  -- on the rounds that are left; that they are entered is what gives the store of each of them
  induction m with
  | zero =>
      intro k total w _ _ _ hrestore
      show Agrees u.store (.ok total, w.drawn) (.ok total, ⟨w.store.restore counter _, w.drawn⟩)
      rw [hrestore]
      exact .value ..
  | succ m ih =>
      intro k total w hk hm hentered hrestore
      have hput := (hentered m.succ_pos).put_eq (Float.ofNat k)
      have hround := hbody (hentered m.succ_pos)
      rw [hput, get?_put_eq_bind] at hround
      rw [List.range'_succ, List.foldlM_cons, runRounds]
      obtain ⟨term, drawn, hterm, hrun⟩ | ⟨name, available, drawn, hterm, hrun⟩ :=
        agrees_cases hround
      · rw [Meaning.runFrom_bind_ok (Meaning.runFrom_bind_ok hterm _), hrun]
        refine @ih _ _ ⟨u.store.put counter (Float.ofNat k), drawn⟩ k.succ_pos (by omega)
          (fun hm' => ?_) ?_
        · have hpass := hbound.wholeCount_lt
          rw [← ofNat_add_one hk (by omega)]
          refine (hentered m.succ_pos).next (hput ▸ hrun) ?_
          rw [ofNat_add_one hk (by omega), hbound.ofNat_le_iff k.succ_pos (by omega)]
          omega
        · rw [Store.restore_put, Store.restore_get?]
      · rw [Meaning.runFrom_bind_error (Meaning.runFrom_bind_error hterm _), hrun]
        show Agrees _ _ (_, ⟨Store.restore _ counter _, drawn⟩)
        rw [Store.restore_put, Store.restore_get?]
        exact .unbound ..

/-- **An evaluation computes the meaning**, if the limits that it reaches are passable. -/
theorem Formula.run_agrees {mode : Mode} {samples : Samples} {f : Formula} {w : Workspace}
    (h : ∀ op counter limit body v bound v',
      Visits mode samples f w (.aggregate op counter limit body) v →
      limit.run mode samples v = (.ok bound, v') → Passable bound) :
    Agrees w.store ((f.meaning mode samples w.store.get?).runFrom w.drawn)
      (f.run mode samples w) := by
  induction f generalizing w with
  | literal value => exact .value value w.drawn
  | var name => exact lookUp_agrees mode samples name w
  | unary op operand ih =>
      have hoperand := ih fun o c l b v x v' hv => h o c l b v x v' hv.operand
      rw [meaning, run]
      obtain ⟨x, drawn, hm, hrun⟩ | ⟨name, available, drawn, hm, hrun⟩ := agrees_cases hoperand
      · rw [Meaning.runFrom_bind_ok hm, hrun]
        exact .value ..
      · rw [Meaning.runFrom_bind_error hm, hrun]
        exact .unbound ..
  | binary op left right ihl ihr =>
      have hleft := ihl fun o c l b v x v' hv => h o c l b v x v' hv.left
      rw [meaning, run]
      obtain ⟨a, drawn, hm, hrun⟩ | ⟨name, available, drawn, hm, hrun⟩ := agrees_cases hleft
      · rw [Meaning.runFrom_bind_ok hm, hrun]
        have hright := @ihr ⟨w.store, drawn⟩ fun o c l b v x v' hv =>
          h o c l b v x v' (hv.right hrun)
        obtain ⟨b, drawn', hm', hrun'⟩ | ⟨name, available, drawn', hm', hrun'⟩ :=
          agrees_cases hright
        · rw [Meaning.runFrom_bind_ok hm']
          simp only [hrun']
          exact .value ..
        · rw [Meaning.runFrom_bind_error hm']
          simp only [hrun']
          exact .unbound ..
      · rw [Meaning.runFrom_bind_error hm, hrun]
        exact .unbound ..
  | aggregate op counter limit body ihl ihb =>
      have hlimit := ihl fun o c l b v x v' hv => h o c l b v x v' hv.limit
      rw [meaning_aggregate, run]
      obtain ⟨bound, drawn, hm, hrun⟩ | ⟨name, available, drawn, hm, hrun⟩ := agrees_cases hlimit
      · have hbound : Passable bound := h op counter limit body w bound _ (.self ..) hrun
        rw [Meaning.runFrom_bind_ok hm, hrun]
        simp only [rounds_eq op hbound]
        refine runRounds_agrees (u := ⟨w.store, drawn⟩) hbound ?_ one_pos (by omega)
          (fun hcount => ?_) (Store.restore_get? ..)
        · intro value total x hentered
          exact ihb fun o c l b v x v' hv => h o c l b v x v' (.body hrun hentered hv)
        · rw [← one_eq_ofNat]
          refine .first ?_
          rw [one_eq_ofNat, hbound.ofNat_le_iff one_pos (by decide)]
          exact hcount
      · rw [Meaning.runFrom_bind_error hm, hrun]
        exact .unbound ..

/-- **An evaluation computes the lexically scoped meaning**: the same value or the same unbound
name, after as many samples. The limits that it reaches are no number or lie below `2^53`. -/
theorem Formula.evaluate_agrees (f : Formula) (store : Store) (mode : Mode) (samples : Samples)
    (h : ∀ op counter limit body v bound v',
      Visits mode samples f { store := store } (.aggregate op counter limit body) v →
      limit.run mode samples v = (.ok bound, v') →
      bound.isNaN = true ∨ bound < Float.ofNat (2 ^ 53)) :
    Agrees store ((f.meaning mode samples store.get?).runFrom 0) (f.evaluate store mode samples) :=
  f.run_agrees h

/-- Two aggregates with one counter, which also is a variable and the limit of the outer one. -/
theorem Formula.evaluate_agrees_shadowing :
    let f : Formula := .aggregate .sum "i" (.var "i")
      (.binary .mul (.var "i") (.aggregate .sum "i" (.literal 2.0) (.var "i")))
    let store := Store.ofList [("i", 2.0)]
    Agrees store ((f.meaning .safe (fun _ => 0.5) store.get?).runFrom 0)
      (f.evaluate store .safe fun _ => 0.5) := by
  refine evaluate_agrees _ _ _ _ fun op counter limit body v bound v' hvisits hlimit => ?_
  have htwo : (2.0 : Float) < Float.ofNat (2 ^ 53) := by decide +kernel
  cases hvisits with
  | self =>
      cases hlimit
      exact .inr htwo
  | limit hvisits => cases hvisits
  | body _ _ hvisits =>
      cases hvisits with
      | left hvisits => cases hvisits
      | right _ hvisits =>
          cases hvisits with
          | self =>
              cases hlimit
              exact .inr htwo
          | limit hvisits => cases hvisits
          | body _ _ hvisits => cases hvisits

end Formulary
