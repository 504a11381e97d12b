import QuditSynth.Proofs.Exact.Matrix
import Mathlib.LinearAlgebra.Matrix.ConjTranspose

namespace QuditSynth

/-! # Exact unitarity

The test of unitarity allows for rounding errors. Over exact scalars there are
none: an operator with a unitary matrix has no error at all.
-/

open scoped Matrix

namespace Amplitude

@[simp]
theorem value_sub (a b : Amplitude ℝ) : (a - b).value = a.value - b.value := rfl

theorem norm_zero : (0 : Amplitude ℝ).norm = 0 := by
  change Real.sqrt ((0 : ℝ) ^ 2 + (0 : ℝ) ^ 2) = 0
  simp

end Amplitude

namespace Operator

variable {size : Nat} {u : Operator ℝ}

theorem toMatrix_dagger (dim : u.dim = size) : u.dagger.toMatrix size = (u.toMatrix size)ᴴ := by
  subst dim
  rw [dagger, toMatrix_ofFn]
  rfl

theorem dagger_mul_eq_identity (unitary : (u.toMatrix u.dim)ᴴ * u.toMatrix u.dim = 1) :
    u.dagger * u = identity u.dim := by
  have daggerDim : u.dagger.dim = u.dim := rfl
  refine eq_of_toMatrix daggerDim (dim_identity u.dim) ?_
  rw [toMatrix_mul daggerDim, toMatrix_dagger rfl, unitary, toMatrix_identity]

theorem unitarityError_eq_zero (unitary : (u.toMatrix u.dim)ᴴ * u.toMatrix u.dim = 1) :
    u.unitarityError = 0 := by
  have deviation : (ofFn u.dim fun row col =>
      (u.dagger * u).entry row col - if row = col then 1 else 0) = zero u.dim := by
    refine eq_of_entries rfl fun row rowBound col colBound => ?_
    rw [dim_ofFn] at rowBound colBound
    rw [entry_ofFn _ rowBound colBound, dagger_mul_eq_identity unitary, identity,
      entry_ofFn _ rowBound colBound, entry_zero]
    exact Amplitude.value_injective ((Amplitude.value_sub _ _).trans (sub_self _))
  have still : Scalar.larger (0 : ℝ) (0 : Amplitude ℝ).norm = 0 := by
    rw [Amplitude.norm_zero, Scalar.larger]
    split <;> rfl
  have largest : ∀ count, (List.replicate count (0 : Amplitude ℝ)).foldl
      (fun largest cell => Scalar.larger largest cell.norm) 0 = 0 := by
    intro count
    induction count with
    | zero => rfl
    | succ count ih => rw [List.replicate_succ, List.foldl_cons, still, ih]
  rw [unitarityError, deviation, zero, ← Array.foldl_toList, Array.toList_replicate, largest]

/-- Over exact scalars every unitary operator passes for unitary. -/
theorem isUnitary_of_unitary (unitary : (u.toMatrix u.dim)ᴴ * u.toMatrix u.dim = 1)
    {tolerance : ℝ} (positive : 0 < tolerance) : u.isUnitary tolerance = true := by
  rw [isUnitary, unitarityError_eq_zero unitary]
  exact decide_eq_true positive

/-- The tolerance of decompositions. -/
theorem tolerance_positive : (0 : ℝ) < unitarityTolerance * 1e3 := by
  change (0 : ℝ) < 1e-9 * 1e3
  norm_num

end Operator
end QuditSynth
