import Formulary.Formula.Render
import Formulary.Proofs.Frame

/-!
# Evaluations Depend on the References Alone

The references of a formula are found without evaluating it: they are the names outside the bodies
that count with them. The evaluation reads a store in which counters come and go under the same
names. This module proves that the references are all that it reads there. Two stores that agree on
them cannot be told apart by the formula, whatever else they hold, and a name that is found missing
is a reference that the caller has not set.

## Conventions

An outcome **shows** its value or the name that is missing, and how many samples were drawn. The
store is not shown, since it is the one before (`Formula.run_store`), and neither are the names that
a stop reports as available, which are all that the store has at that moment.

Statements about two runs compare the outcomes of any two workspaces that have drawn equally many
samples, and not only of two that begin.

## Main results

* `rounds_shown`: two aggregates show the same if each of their rounds does.
* `Formula.unary_shown`, `Formula.binary_shown`, `Formula.aggregate_shown`: two formulas show the
  same if their parts do.
* `Formula.run_shown`, `Formula.evaluate_shown`: so do two evaluations of a formula on stores that
  agree on its references.
* `exists_enters_of_rounds_error`: what stops an aggregate is a round that it enters.
* `Formula.unbound_of_run`, `Formula.run_ne_unbound`: a missing name is a reference that is not set,
  so no name is missing where all references are set.
-/

namespace Formulary

/-! ### What an outcome shows -/

/-- The name that is **missing**, if that is why an evaluation stops. -/
def Stop.missing? : Stop → Option String
  | unbound name _ => some name
  | endless => none

/-- What an outcome **shows**: the value or the missing name, and how many samples were drawn. -/
def Outcome.shown (outcome : Outcome) : Except (Option String) Float × ℕ :=
  (outcome.1.mapError Stop.missing?, outcome.2.drawn)

/-- Two outcomes that show the same have the same value, or both have stopped. -/
theorem Outcome.shown_eq_cases {o o' : Outcome} (h : o.shown = o'.shown) :
    (∃ x v v', o = (.ok x, v) ∧ o' = (.ok x, v') ∧ v.drawn = v'.drawn) ∨
      ∃ stop v stop' v', o = (.error stop, v) ∧ o' = (.error stop', v') := by
  obtain ⟨hresult, hdrawn⟩ := Prod.mk.inj h
  rcases o with ⟨stop | x, v⟩ <;> rcases o' with ⟨stop' | x', v'⟩
  · exact .inr ⟨stop, v, stop', v', rfl, rfl⟩
  · cases hresult
  · cases hresult
  · obtain rfl := Except.ok.inj hresult
    exact .inl ⟨x, v, v', rfl, rfl, hdrawn⟩

/-- Whether two stores **agree on** some names: each of them has one value in both or is missing in
both. -/
def Store.AgreeOn (names : String → Prop) (s t : Store) : Prop :=
  ∀ name, names name → s.get? name = t.get? name

/-- Stores that agree go on to agree when a variable is set to one value in both, now also on that
variable. -/
theorem Store.AgreeOn.put {names : String → Prop} {s t : Store} {counter : String}
    (h : AgreeOn (fun name => names name ∧ counter ≠ name) s t) (value : Float) :
    AgreeOn names (s.put counter value) (t.put counter value) := by
  intro name hname
  rw [get?_put, get?_put]
  by_cases hcounter : name = counter
  · rw [if_pos hcounter, if_pos hcounter]
  · rw [if_neg hcounter, if_neg hcounter]
    exact h name ⟨hname, Ne.symm hcounter⟩

/-! ### Two runs -/

/-- **Two aggregates show the same** if their rounds do, on stores that are and stay related. -/
theorem rounds_shown (related : Store → Store → Prop) {op : AggregateOp} {limit : Float}
    {body body' : Float → Workspace → Outcome}
    (hbody : ∀ value w w', w.drawn = w'.drawn → related w.store w'.store →
      (body value w).shown = (body' value w').shown ∧
        related (body value w).2.store (body' value w').2.store)
    {remaining : ℕ} {counter total : Float} {w w' : Workspace} (hdrawn : w.drawn = w'.drawn)
    (hrelated : related w.store w'.store) :
    (rounds op limit body remaining counter total w).shown =
      (rounds op limit body' remaining counter total w').shown := by
  induction remaining generalizing counter total w w' with
  | zero => exact congrArg (Prod.mk _) hdrawn
  | succ remaining ih =>
      by_cases hle : counter ≤ limit
      · obtain ⟨hshown, hnext⟩ := hbody counter w w' hdrawn hrelated
        obtain ⟨term, v, v', hrun, hrun', hdrawn'⟩ | ⟨stop, v, stop', v', hrun, hrun'⟩ :=
          Outcome.shown_eq_cases hshown
        · rw [hrun, hrun'] at hnext
          rw [rounds_succ hle hrun, rounds_succ hle hrun']
          exact ih hdrawn' hnext
        · rw [hrun, hrun'] at hshown
          rw [rounds_stop hle hrun, rounds_stop hle hrun']
          exact hshown
      · rw [rounds_of_not_le hle, rounds_of_not_le hle]
        exact congrArg (Prod.mk _) hdrawn

/-- A name shows the same in two stores that agree on it, and any two do on a reserved name. -/
theorem lookUp_shown {samples : Samples} {name : String} {w w' : Workspace}
    (hdrawn : w.drawn = w'.drawn)
    (h : isReserved name = false → w.store.get? name = w'.store.get? name) :
    (lookUp samples name w).shown = (lookUp samples name w').shown := by
  rw [lookUp, lookUp]
  by_cases hsample : name = sampleName
  · rw [if_pos hsample, if_pos hsample, hdrawn]
    rfl
  rw [if_neg hsample, if_neg hsample]
  cases hconstant : constant? name with
  | some value => exact congrArg (Prod.mk _) hdrawn
  | none =>
      rw [h (isReserved_eq_false hsample hconstant)]
      cases w'.store.get? name with
      | some value => exact congrArg (Prod.mk _) hdrawn
      | none => exact congrArg (Prod.mk _) hdrawn

section

variable {mode : Mode} {samples : Samples} {w w' : Workspace}

/-- Two unary operations show the same if their operands do. -/
theorem Formula.unary_shown {op : UnaryOp} {f f' : Formula}
    (h : (f.run mode samples w).shown = (f'.run mode samples w').shown) :
    ((unary op f).run mode samples w).shown = ((unary op f').run mode samples w').shown := by
  rw [run, run]
  obtain ⟨x, v, v', hrun, hrun', hdrawn⟩ | ⟨stop, v, stop', v', hrun, hrun'⟩ :=
    Outcome.shown_eq_cases h
  · rw [hrun, hrun']
    exact congrArg (Prod.mk _) hdrawn
  · rw [hrun, hrun'] at h ⊢
    exact h

/-- Two binary operations show the same if their left operands do, and if their right operands do
on the same two stores whenever equally many samples were drawn. -/
theorem Formula.binary_shown {op : BinaryOp} {l r l' r' : Formula}
    (hl : (l.run mode samples w).shown = (l'.run mode samples w').shown)
    (hr : ∀ v v', v.drawn = v'.drawn → v.store = w.store → v'.store = w'.store →
      (r.run mode samples v).shown = (r'.run mode samples v').shown) :
    ((binary op l r).run mode samples w).shown = ((binary op l' r').run mode samples w').shown := by
  have hstore := l.run_store mode samples w
  have hstore' := l'.run_store mode samples w'
  rw [run, run]
  obtain ⟨a, v, v', hrun, hrun', hdrawn⟩ | ⟨stop, v, stop', v', hrun, hrun'⟩ :=
    Outcome.shown_eq_cases hl
  · rw [hrun] at hstore ⊢
    rw [hrun'] at hstore' ⊢
    have hright := hr v v' hdrawn hstore hstore'
    obtain ⟨b, u, u', hrun, hrun', hdrawn⟩ | ⟨stop, u, stop', u', hrun, hrun'⟩ :=
      Outcome.shown_eq_cases hright
    · simp only [hrun, hrun']
      exact congrArg (Prod.mk _) hdrawn
    · rw [hrun, hrun'] at hright
      simp only [hrun, hrun']
      exact hright
  · rw [hrun, hrun'] at hl ⊢
    exact hl

/-- Two aggregates show the same if their limits do, and if their bodies do in every round, on
stores that are and stay related. The counters may have different names. -/
theorem Formula.aggregate_shown (related : Store → Store → Prop) {op : AggregateOp}
    {i i' : String} {l b l' b' : Formula}
    (hlimit : (l.run mode samples w).shown = (l'.run mode samples w').shown)
    (hrelated : related w.store w'.store)
    (hround : ∀ value v v', v.drawn = v'.drawn → related v.store v'.store →
      (withCounter i (b.run mode samples) value v).shown =
          (withCounter i' (b'.run mode samples) value v').shown ∧
        related (v.store.put i value) (v'.store.put i' value)) :
    ((aggregate op i l b).run mode samples w).shown =
      ((aggregate op i' l' b').run mode samples w').shown := by
  have hstore := l.run_store mode samples w
  have hstore' := l'.run_store mode samples w'
  rw [run, run]
  obtain ⟨bound, v, v', hrun, hrun', hdrawn⟩ | ⟨stop, v, stop', v', hrun, hrun'⟩ :=
    Outcome.shown_eq_cases hlimit
  · rw [hrun] at hstore ⊢
    rw [hrun'] at hstore' ⊢
    refine rounds_shown related (fun value u u' hu hagree => ?_) hdrawn
      (by rwa [hstore, hstore'])
    obtain ⟨hshown, hnext⟩ := hround value u u' hu hagree
    refine ⟨hshown, ?_⟩
    rwa [withCounter, withCounter, run_store, run_store]
  · rw [hrun, hrun'] at hlimit ⊢
    exact hlimit

end

/-- **Two evaluations show the same** on stores that agree on the references. -/
theorem Formula.run_shown {mode : Mode} {samples : Samples} {f : Formula} {w w' : Workspace}
    (hdrawn : w.drawn = w'.drawn)
    (h : Store.AgreeOn (fun name => f.Free name ∧ isReserved name = false) w.store w'.store) :
    (f.run mode samples w).shown = (f.run mode samples w').shown := by
  induction f generalizing w w' with
  | literal value => exact congrArg (Prod.mk _) hdrawn
  | var name => exact lookUp_shown hdrawn fun hreserved => h name ⟨rfl, hreserved⟩
  | unary op operand ih => exact unary_shown (ih hdrawn h)
  | binary op left right ihl ihr =>
      have hleft := ihl hdrawn fun name hname => h name ⟨.inl hname.1, hname.2⟩
      refine binary_shown hleft fun v v' hv hstore hstore' => ihr hv fun name hname => ?_
      rw [hstore, hstore']
      exact h name ⟨.inr hname.1, hname.2⟩
  | aggregate op counter limit body ihl ihb =>
      have hlimit := ihl hdrawn fun name hname => h name ⟨.inl hname.1, hname.2⟩
      -- the stores agree on what is free in the body, but for the counter, which each round sets
      refine aggregate_shown (Store.AgreeOn fun name =>
        (body.Free name ∧ isReserved name = false) ∧ counter ≠ name) hlimit ?_ ?_
      · exact fun name hname => h name ⟨.inr ⟨hname.2, hname.1.1⟩, hname.1.2⟩
      · intro value v v' hv hagree
        exact ⟨ihb hv (hagree.put value), fun name hname => hagree.put value name hname.1⟩

/-- **Evaluations depend on the references alone.** On two stores that have the same values for the
references of a formula, or lack them both, it evaluates to the same value or misses the same name,
after as many samples. -/
theorem Formula.evaluate_shown {f : Formula} {s t : Store}
    (h : ∀ name ∈ f.references, s.get? name = t.get? name) (mode : Mode) (samples : Samples) :
    (f.evaluate s mode samples).shown = (f.evaluate t mode samples).shown :=
  f.run_shown rfl fun name hname => h name (mem_references.2 hname)

/-- A sum over a limit, where the counter is a variable of the one store and not of the other. -/
theorem Formula.evaluate_shown_counter :
    let f : Formula := .aggregate .sum "i" (.var "n") (.binary .mul (.var "i") (.var "x"))
    let s := Store.ofList [("i", 7.0), ("n", 2.0), ("x", 3.0)]
    let t := Store.ofList [("x", 3.0), ("n", 2.0)]
    s.get? "i" ≠ t.get? "i" ∧
      (f.evaluate s .safe fun _ => 0.5).shown = (f.evaluate t .safe fun _ => 0.5).shown := by
  intro f s t
  refine ⟨by decide, evaluate_shown (fun name hname => ?_) .safe fun _ => 0.5⟩
  obtain ⟨rfl | ⟨hne, rfl | rfl⟩, -⟩ := mem_references.1 hname
  · rfl
  · exact absurd rfl hne
  · rfl

/-! ### Missing names -/

/-- **What stops an aggregate** is a round that it enters, unless the aggregate is endless. -/
theorem exists_enters_of_rounds_error {op : AggregateOp} {limit : Float}
    {body : Float → Workspace → Outcome} {u : Workspace} {stop : Stop} {remaining : ℕ}
    {counter total : Float} {w : Workspace}
    (h : (rounds op limit body remaining counter total w).1 = .error stop)
    (hentered : counter ≤ limit → Enters op limit body u counter total w) :
    stop = .endless ∨ ∃ value total v, Enters op limit body u value total v ∧
      (body value v).1 = .error stop := by
  fun_induction rounds op limit body remaining counter total w with
  | case1 =>
      cases h
      exact .inl rfl
  | case2 _ counter total w hle term next hrun ih =>
      exact ih h fun hle' => (hentered hle).next hrun hle'
  | case3 _ counter total w hle stop' next hrun =>
      cases h
      exact .inr ⟨counter, total, w, hentered hle, congrArg Prod.fst hrun⟩
  | case4 => cases h

/-- **A missing name is a reference that is not set**, however deep in the formula it is missed. -/
theorem Formula.unbound_of_run {mode : Mode} {samples : Samples} {f : Formula} {w : Workspace}
    {name : String} {available : List String}
    (h : (f.run mode samples w).1 = .error (.unbound name available)) :
    name ∈ f.references ∧ w.store.get? name = none := by
  simp only [mem_references]
  induction f generalizing w with
  | literal value => cases h
  | var other =>
      obtain ⟨-, hrun⟩ | ⟨_, -, hrun⟩ | ⟨-, _, -, hrun⟩ | ⟨hreserved, hget, hrun⟩ :=
        lookUp_cases samples other w <;> rw [run, hrun] at h <;> cases h
      exact ⟨⟨rfl, hreserved⟩, hget⟩
  | unary op operand ih =>
      rw [run] at h
      rcases hrun : operand.run mode samples w with ⟨stop | x, v⟩ <;> rw [hrun] at h <;> cases h
      exact ih (congrArg Prod.fst hrun)
  | binary op left right ihl ihr =>
      have hstore := left.run_store mode samples w
      rw [run] at h
      rcases hrun : left.run mode samples w with ⟨stop | a, v⟩ <;> rw [hrun] at h hstore
      · cases h
        obtain ⟨hname, hget⟩ := ihl (congrArg Prod.fst hrun)
        exact ⟨⟨.inl hname.1, hname.2⟩, hget⟩
      · rcases hrun' : right.run mode samples v with ⟨stop | b, u⟩ <;> simp only [hrun'] at h <;>
          cases h
        obtain ⟨hname, hget⟩ := ihr (congrArg Prod.fst hrun')
        exact ⟨⟨.inr hname.1, hname.2⟩, hstore ▸ hget⟩
  | aggregate op counter limit body ihl ihb =>
      have hstore := limit.run_store mode samples w
      rw [run] at h
      rcases hrun : limit.run mode samples w with ⟨stop | bound, v⟩ <;> rw [hrun] at h hstore
      · cases h
        obtain ⟨hname, hget⟩ := ihl (congrArg Prod.fst hrun)
        exact ⟨⟨.inl hname.1, hname.2⟩, hget⟩
      · obtain hendless | ⟨value, total, u, hentered, hbody⟩ :=
          exists_enters_of_rounds_error h .first
        · cases hendless
        · obtain ⟨hname, hget⟩ := ihb hbody
          rw [hentered.put_eq, Store.get?_put] at hget
          split at hget
          · cases hget
          · rename_i hne
            exact ⟨⟨.inr ⟨Ne.symm hne, hname.1⟩, hname.2⟩, hstore ▸ hget⟩

/-- **An evaluation misses no variable** if the store has the references of the formula. -/
theorem Formula.run_ne_unbound {f : Formula} {w : Workspace}
    (h : ∀ name ∈ f.references, w.store.has name = true) (mode : Mode) (samples : Samples)
    (missing : String) (available : List String) :
    (f.run mode samples w).1 ≠ .error (.unbound missing available) := by
  intro hrun
  obtain ⟨hname, hget⟩ := unbound_of_run hrun
  have hhas := h missing hname
  rw [Store.has, hget] at hhas
  cases hhas

end Formulary
