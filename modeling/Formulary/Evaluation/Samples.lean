import Formulary.Evaluation

/-!
# Streams of samples

The name `r` stands for a sample between zero and one. Samples come from a list that starts over
at its end, or from a seeded generator. An evaluation takes any stream, and a command any generator;
the ones here are those that the program is run with.

## Main results

* `cycle_add_length`: a list of samples starts over at its end.
-/

namespace Formulary.Samples

/-- Mixes the bits of a word so that neighbouring words have unrelated results. -/
def mix (z : UInt64) : UInt64 :=
  let z := (z ^^^ (z >>> 30)) * 0xBF58476D1CE4E5B9
  let z := (z ^^^ (z >>> 27)) * 0x94D049BB133111EB
  z ^^^ (z >>> 31)

/-- The stream of a **seed**: each sample is a multiple of `2^-53` in the half-open unit
interval. -/
def seeded (seed : UInt64) : Samples := fun n =>
  let word := mix (seed + UInt64.ofNat (n + 1) * 0x9E3779B97F4A7C15)
  Number.ofMagnitude false (word >>> 11).toNat (-53)

/-- The **generator** that numbers the streams by their seeds; the one without a seed has the number
given. -/
def generator (unseeded : UInt64) : Generator
  | some n => seeded (UInt64.ofNat n.natAbs)
  | none => seeded unseeded

/-- The stream that repeats a list; zeros if the list is empty. -/
def cycle (samples : List Float) : Samples := fun n =>
  samples[n % samples.length]?.getD 0.0

/-- A list of samples starts over at its end. -/
theorem cycle_add_length (samples : List Float) (n : Nat) :
    cycle samples (n + samples.length) = cycle samples n := by
  simp [cycle]

end Formulary.Samples
