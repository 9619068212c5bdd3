import Formulary.Proofs.Declarations

/-!
# Counters Can Be Renamed

The counter of an aggregate is a variable of the caller's store while the aggregate runs, under the
very name that the formula gives it. This module proves that the name is of no consequence. With
another one in its place, in the aggregate and wherever its body means it, the formula evaluates to
the same value or misses the same name, whether or not the store has variables of either name.

## Conventions

Renaming replaces the **free** occurrences of a name. Where an inner aggregate counts with the same
name, its body means the inner counter and keeps it, while its limit means the outer one.

The new name is **fresh**: the body has it neither as a variable nor as a counter. Both names are
unreserved, since a reserved name is never looked up, whatever an aggregate binds it to.

The evaluation of the body is followed on two stores at once. One has the counter under its old
name, the other under the new one, and the variables that had these names before the aggregate are
still there, each in the store that does not use its name.

## Main results

* `Formula.rename_rename`: renaming back to a fresh name restores the formula.
* `Formula.run_rename`: a formula and the renamed one show the same where the counter is set.
* `Formula.evaluate_rename`: an aggregate may count with any fresh name.
-/

namespace Formulary

/-! ### Renaming -/

/-- The formula with the free occurrences of a name **renamed**. -/
def Formula.rename (old new : String) : Formula → Formula
  | literal value => literal value
  | var name => if name = old then var new else var name
  | unary op operand => unary op (operand.rename old new)
  | binary op left right => binary op (left.rename old new) (right.rename old new)
  | aggregate op counter limit body =>
    aggregate op counter (limit.rename old new)
      (if counter = old then body else body.rename old new)

/-- Nothing is renamed if the name does not occur. -/
theorem Formula.rename_of_not_mem {old new : String} {f : Formula} (h : old ∉ f.names) :
    f.rename old new = f := by
  induction f with
  | literal value => rfl
  | var name => exact if_neg fun heq : name = old => h (heq ▸ List.mem_singleton_self name)
  | unary op operand ih => rw [rename, ih h]
  | binary op left right ihl ihr =>
      rw [names, List.mem_append, not_or] at h
      rw [rename, ihl h.1, ihr h.2]
  | aggregate op counter limit body ihl ihb =>
      rw [names, List.mem_cons, List.mem_append, not_or, not_or] at h
      rw [rename, ihl h.2.1, ihb h.2.2, ite_self]

/-- **Renaming to a fresh name can be undone**: no occurrence is lost, and none is caught by a
counter of the formula. -/
theorem Formula.rename_rename {old new : String} {f : Formula} (h : new ∉ f.names) :
    (f.rename old new).rename new old = f := by
  induction f with
  | literal value => rfl
  | var name =>
      have hname : name ≠ new := fun heq => h (heq ▸ List.mem_singleton_self name)
      by_cases hold : name = old
      · rw [rename, if_pos hold, rename, if_pos rfl, hold]
      · rw [rename, if_neg hold, rename, if_neg hname]
  | unary op operand ih => rw [rename, rename, ih h]
  | binary op left right ihl ihr =>
      rw [names, List.mem_append, not_or] at h
      rw [rename, rename, ihl h.1, ihr h.2]
  | aggregate op counter limit body ihl ihb =>
      rw [names, List.mem_cons, List.mem_append, not_or, not_or] at h
      obtain ⟨hcounter, hlimit, hbody⟩ := h
      rw [rename, rename, ihl hlimit, if_neg (Ne.symm hcounter)]
      by_cases hold : counter = old
      · rw [if_pos hold, rename_of_not_mem hbody]
      · rw [if_neg hold, ihb hbody]

/-! ### Stores with a renamed variable -/

/-- Whether a variable has been **renamed** between two stores: what the one has under the old name
the other has under the new one, and they agree on all other names. What the one has under the new
name and the other under the old one is not restricted. -/
structure Store.Renamed (old new : String) (s t : Store) : Prop where
  moved : ∃ value, s.get? old = some value ∧ t.get? new = some value
  agree : AgreeOn (fun name => name ≠ old ∧ name ≠ new) s t

/-- Stores that agree but for two names have a variable renamed once it is set, in each of them
under its name there. -/
theorem Store.AgreeOn.renamed {old new : String} {s t : Store}
    (h : AgreeOn (fun name => name ≠ old ∧ name ≠ new) s t) (value : Float) :
    Renamed old new (s.put old value) (t.put new value) where
  moved := ⟨value, by rw [get?_put, if_pos rfl], by rw [get?_put, if_pos rfl]⟩
  agree name hname := by
    rw [get?_put, get?_put, if_neg hname.1, if_neg hname.2]
    exact h name hname

/-- A variable stays renamed when another one is set. -/
theorem Store.Renamed.put {old new counter : String} {s t : Store} (h : Renamed old new s t)
    (hold : counter ≠ old) (hnew : counter ≠ new) (value : Float) :
    Renamed old new (s.put counter value) (t.put counter value) where
  moved := by
    obtain ⟨moved, hs, ht⟩ := h.moved
    refine ⟨moved, ?_, ?_⟩
    · rw [get?_put, if_neg (Ne.symm hold), hs]
    · rw [get?_put, if_neg (Ne.symm hnew), ht]
  agree := AgreeOn.put (fun name hname => h.agree name hname.1) value

/-! ### Two runs under two names -/

section

variable {mode : Mode} {samples : Samples} {old new : String} {w w' : Workspace}

/-- A variable shows the same under its new name, and so does every name but the two. -/
theorem lookUp_rename (hold : isReserved old = false) (hnew : isReserved new = false)
    {name : String} (hname : name ≠ new) (hdrawn : w.drawn = w'.drawn)
    (h : w.store.Renamed old new w'.store) :
    (lookUp samples name w).shown =
      (lookUp samples (if name = old then new else name) w').shown := by
  by_cases heq : name = old
  · subst heq
    obtain ⟨value, hs, ht⟩ := h.moved
    have isSet {name : String} {v : Workspace} (hreserved : isReserved name = false)
        (hget : v.store.get? name = some value) : lookUp samples name v = (.ok value, v) := by
      rw [isReserved, Bool.or_eq_false_iff, ← constant?_isSome] at hreserved
      rw [lookUp, if_neg (by simpa using hreserved.1),
        Option.not_isSome_iff_eq_none.1 (Bool.eq_false_iff.1 hreserved.2), hget]
    rw [if_pos rfl, isSet hold hs, isSet hnew ht]
    exact congrArg (Prod.mk _) hdrawn
  · rw [if_neg heq]
    exact lookUp_shown hdrawn fun _ => h.agree name ⟨heq, hname⟩

/-- **A formula and the renamed one show the same** on stores between which the variable has been
renamed. -/
theorem Formula.run_rename (hold : isReserved old = false) (hnew : isReserved new = false)
    {f : Formula} (hfresh : new ∉ f.names) (hdrawn : w.drawn = w'.drawn)
    (h : w.store.Renamed old new w'.store) :
    (f.run mode samples w).shown = ((f.rename old new).run mode samples w').shown := by
  induction f generalizing w w' with
  | literal value => exact congrArg (Prod.mk _) hdrawn
  | var name =>
      have hname : name ≠ new := fun heq => hfresh (heq ▸ List.mem_singleton_self name)
      have hrename : (var name).rename old new = var (if name = old then new else name) := by
        rw [rename, apply_ite var]
      rw [hrename]
      exact lookUp_rename hold hnew hname hdrawn h
  | unary op operand ih => exact unary_shown (ih hfresh hdrawn h)
  | binary op left right ihl ihr =>
      rw [names, List.mem_append, not_or] at hfresh
      refine binary_shown (ihl hfresh.1 hdrawn h) fun v v' hv hstore hstore' => ?_
      exact ihr hfresh.2 hv (by rwa [hstore, hstore'])
  | aggregate op counter limit body ihl ihb =>
      rw [names, List.mem_cons, List.mem_append, not_or, not_or] at hfresh
      obtain ⟨hcounter, hlimit, hbody⟩ := hfresh
      rw [rename]
      by_cases heq : counter = old
      · -- the body means the inner counter; without the new name it cannot tell the stores apart
        subst heq
        rw [if_pos rfl]
        refine aggregate_shown (Store.AgreeOn fun name => name ≠ counter ∧ name ≠ new)
          (ihl hlimit hdrawn h) h.agree fun value v v' hv hagree => ?_
        have hnext : Store.AgreeOn (· ≠ new) (v.store.put counter value)
            (v'.store.put counter value) :=
          Store.AgreeOn.put (fun name hname => hagree name ⟨Ne.symm hname.2, hname.1⟩) value
        refine ⟨run_shown hv fun name hname => hnext name ?_, fun name hname => hnext name hname.2⟩
        rintro rfl
        exact hbody (mem_names_of_free hname.1)
      · rw [if_neg heq]
        refine aggregate_shown (Store.Renamed old new) (ihl hlimit hdrawn h) h
          fun value v v' hv hrenamed => ?_
        have hnext := hrenamed.put heq (Ne.symm hcounter) value
        exact ⟨ihb hbody hv hnext, hnext⟩

end

/-- **An aggregate may count with any fresh name.** With a new name for the counter, in the
aggregate and for its free occurrences in the body, the aggregate evaluates on every store to the
same value or misses the same name, after as many samples, and both leave the store as it was. -/
theorem Formula.evaluate_rename {i j : String} (hi : isReserved i = false)
    (hj : isReserved j = false) {body : Formula} (hfresh : j ∉ body.names) (op : AggregateOp)
    (limit : Formula) (store : Store) (mode : Mode) (samples : Samples) :
    ((aggregate op j limit (body.rename i j)).evaluate store mode samples).shown =
        ((aggregate op i limit body).evaluate store mode samples).shown ∧
      ((aggregate op j limit (body.rename i j)).evaluate store mode samples).2.store = store ∧
      ((aggregate op i limit body).evaluate store mode samples).2.store = store := by
  refine ⟨Eq.symm ?_, run_store .., run_store ..⟩
  refine aggregate_shown (Store.AgreeOn fun name => name ≠ i ∧ name ≠ j) rfl (fun _ _ => rfl)
    fun value v v' hv hagree => ?_
  have hnext := hagree.renamed value
  exact ⟨run_rename hi hj hfresh hv hnext, hnext.agree⟩

/-- A sum whose body counts with the same name again inside, over a limit that means the outer
counter. The store has a variable of the new name, and none of the old one. -/
theorem Formula.evaluate_rename_nested :
    let body : Formula := .binary .add (.var "i")
      (.aggregate .mult "i" (.binary .mul (.var "i") (.var "x")) (.var "i"))
    let renamed : Formula := .binary .add (.var "k")
      (.aggregate .mult "i" (.binary .mul (.var "k") (.var "x")) (.var "i"))
    let store := Store.ofList [("k", 7.0), ("x", 2.0)]
    "k" ∉ body.names ∧ body.rename "i" "k" = renamed ∧
      ((aggregate .sum "k" (.var "k") renamed).evaluate store .safe fun _ => 0.5).shown =
        ((aggregate .sum "i" (.var "k") body).evaluate store .safe fun _ => 0.5).shown := by
  intro body renamed store
  have hfresh : "k" ∉ body.names := by decide
  have hrename : body.rename "i" "k" = renamed := rfl
  have hshown := (evaluate_rename (i := "i") (by decide) (by decide) hfresh .sum (.var "k") store
    .safe fun _ => 0.5).1
  rw [hrename] at hshown
  exact ⟨hfresh, hrename, hshown⟩

end Formulary
