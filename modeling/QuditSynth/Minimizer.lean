import QuditSynth.Scalar

namespace QuditSynth

/-! # Minimizers

A minimizer asks an objective for values at points of its choice and reports the
best point it has seen. The objective runs in a monad, so that a caller may count
or record the questions.
-/

/-- The outcome of a minimization. -/
structure Minimum (R : Type) where
  point : List R
  /-- The objective at `point`; not finite if the run broke down. -/
  value : R
  /-- How many values of the objective were asked for. -/
  evaluations : Nat
  iterations : Nat
  /-- Whether the target value was reached. -/
  converged : Bool
deriving Repr

end QuditSynth
