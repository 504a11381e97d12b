import Mathlib.LinearAlgebra.Matrix.Trace
import QuditSynth.Proofs.Exact.Unitary

namespace QuditSynth

/-! # Exact distances

Over exact scalars the overlap of two operators is the trace of the one's
adjoint times the other. Their distance depends on its length alone and is cut
off at zero, so that overlaps longer than the dimension all count as perfect.
-/

open scoped Matrix

namespace Scalar

theorem larger_exact (x y : ℝ) : larger x y = max x y := by
  unfold larger
  by_cases below : x < y
  · simp [below, max_eq_right below.le]
  · simp [below, max_eq_left (not_lt.mp below)]

end Scalar

namespace Amplitude

theorem norm_value (a : Amplitude ℝ) : a.norm = ‖a.value‖ := by
  rw [Complex.norm_eq_sqrt_sq_add_sq]
  rfl

theorem sumFrom_value (term : Nat → Amplitude ℝ) (count index : Nat) (re im : ℝ) :
    (sumFrom term count index re im).value =
      ⟨re, im⟩ + ∑ i ∈ Finset.range count, (term (index + i)).value := by
  induction count generalizing index re im with
  | zero => simp [sumFrom, value]
  | succ count ih =>
      rw [sumFrom, ih, Finset.sum_range_succ', Nat.add_zero, add_comm (Finset.sum _ _), ← add_assoc]
      congr 1
      refine Finset.sum_congr rfl fun i _ => ?_
      rw [Nat.add_right_comm, Nat.add_assoc]

theorem sum_value (count : Nat) (term : Nat → Amplitude ℝ) :
    (sum count term).value = ∑ i : Fin count, (term i).value := by
  have zero : (⟨0, 0⟩ : ℂ) = 0 := rfl
  rw [sum, sumFrom_value, Finset.sum_range, zero]
  simp

end Amplitude

namespace Operator

variable {size : Nat} {u v : Operator ℝ}

theorem traceOverlap_exact (uDim : u.dim = size) (vDim : v.dim = size) :
    ∃ overlap, u.traceOverlap v = .ok overlap ∧
      overlap.value = ((u.toMatrix size)ᴴ * v.toMatrix size).trace := by
  subst uDim
  refine ⟨_, traceOverlap_eq vDim.symm, ?_⟩
  let term (row col : Fin u.dim) : ℂ :=
    star (u.toMatrix u.dim row col) * v.toMatrix u.dim row col
  calc (Amplitude.sum (u.dim * u.dim) _).value
      = ∑ index : Fin (u.dim * u.dim), term (finProdFinEquiv.symm index).1
          (finProdFinEquiv.symm index).2 := Amplitude.sum_value _ _
    _ = ∑ pair : Fin u.dim × Fin u.dim, term pair.1 pair.2 :=
        finProdFinEquiv.symm.sum_comp fun pair => term pair.1 pair.2
    _ = ∑ col, ∑ row, term row col := Fintype.sum_prod_type_right _
    _ = ((u.toMatrix u.dim)ᴴ * v.toMatrix u.dim).trace := rfl

theorem fidelity_exact (uDim : u.dim = size) (vDim : v.dim = size) :
    u.fidelity v = .ok (‖((u.toMatrix size)ᴴ * v.toMatrix size).trace‖ / size) := by
  obtain ⟨overlap, traced, value⟩ := traceOverlap_exact uDim vDim
  rw [fidelity, traced, ← value, ← Amplitude.norm_value, ← uDim]
  rfl

theorem distance_exact (uDim : u.dim = size) (vDim : v.dim = size) :
    u.distance v =
      .ok (max (1 - ‖((u.toMatrix size)ᴴ * v.toMatrix size).trace‖ / size) 0) := by
  rw [distance, fidelity_exact uDim vDim]
  exact congrArg Except.ok (Scalar.larger_exact _ _)

end Operator
end QuditSynth
