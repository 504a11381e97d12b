import Mathlib.LinearAlgebra.Matrix.PosDef
import QuditSynth.Proofs.Circuit.Operator
import QuditSynth.Proofs.Exact.Adjoint
import QuditSynth.Proofs.Exact.Distance
import QuditSynth.Proofs.Exact.Exponential
import QuditSynth.Proofs.Exact.Levels

namespace QuditSynth

/-! # Distances of unitary operators

The overlap of two unitary matrices is at most their dimension, and reaches it
only if the matrices are equal up to a phase. What is left of the one matrix
after its share of the other one is taken away shows both: the square of its
length is the difference between the two numbers, up to a factor.
-/

open scoped Matrix ComplexOrder

section Overlap

variable {size : Nat} {u v : Matrix (Fin size) (Fin size) ℂ}

theorem star_overlap (u v : Matrix (Fin size) (Fin size) ℂ) :
    star (uᴴ * v).trace = (vᴴ * u).trace := by
  rw [← Matrix.trace_conjTranspose, Matrix.conjTranspose_mul, Matrix.conjTranspose_conjTranspose]

/-- The square of the length of what is left of `v` without its share of `u`, times the square of
the dimension. -/
theorem trace_remainder (uUnitary : uᴴ * u = 1) (vUnitary : vᴴ * v = 1) :
    (((size : ℂ) • v - (uᴴ * v).trace • u)ᴴ * ((size : ℂ) • v - (uᴴ * v).trace • u)).trace =
      (size * (size ^ 2 - ‖(uᴴ * v).trace‖ ^ 2) : ℝ) := by
  have share : (vᴴ * u).trace = star (uᴴ * v).trace := (star_overlap u v).symm
  have length : star (uᴴ * v).trace * (uᴴ * v).trace = (‖(uᴴ * v).trace‖ ^ 2 : ℝ) := by
    rw [Complex.star_def, Complex.conj_mul']
    push_cast
    rfl
  have whole : (1 : Matrix (Fin size) (Fin size) ℂ).trace = size := by
    rw [Matrix.trace_one, Fintype.card_fin]
  simp only [Matrix.conjTranspose_sub, Matrix.conjTranspose_smul, Matrix.sub_mul, Matrix.mul_sub,
    Matrix.smul_mul, Matrix.mul_smul, uUnitary, vUnitary, Matrix.trace_sub, Matrix.trace_smul,
    whole, share, smul_eq_mul, star_natCast]
  push_cast at length ⊢
  linear_combination (-size : ℂ) * length

theorem norm_overlap_le (uUnitary : uᴴ * u = 1) (vUnitary : vᴴ * v = 1) :
    ‖(uᴴ * v).trace‖ ≤ size := by
  have nonneg := (Matrix.posSemidef_conjTranspose_mul_self
    ((size : ℂ) • v - (uᴴ * v).trace • u)).trace_nonneg
  rw [trace_remainder uUnitary vUnitary, Complex.zero_le_real] at nonneg
  rcases Nat.eq_zero_or_pos size with rfl | some
  · simp [Matrix.trace]
  · have squares : ‖(uᴴ * v).trace‖ ^ 2 ≤ (size : ℝ) ^ 2 :=
      sub_nonneg.mp (nonneg_of_mul_nonneg_right nonneg (Nat.cast_pos.mpr some))
    exact (sq_le_sq₀ (norm_nonneg _) (Nat.cast_nonneg size)).mp squares

/-- The overlap is as large as it can be only if nothing is left over. -/
theorem norm_overlap_eq_iff (some : 0 < size) (uUnitary : uᴴ * u = 1) (vUnitary : vᴴ * v = 1) :
    ‖(uᴴ * v).trace‖ = size ↔ ∃ phase : ℂ, ‖phase‖ = 1 ∧ v = phase • u := by
  have positive : (0 : ℝ) < size := Nat.cast_pos.mpr some
  have nonzero : (size : ℂ) ≠ 0 := Nat.cast_ne_zero.mpr some.ne'
  constructor
  · intro full
    have nothing : (((size : ℂ) • v - (uᴴ * v).trace • u)ᴴ *
        ((size : ℂ) • v - (uᴴ * v).trace • u)).trace = 0 := by
      rw [trace_remainder uUnitary vUnitary, full, sub_self, mul_zero, Complex.ofReal_zero]
    have share : (size : ℂ) • v = (uᴴ * v).trace • u :=
      sub_eq_zero.mp (Matrix.trace_conjTranspose_mul_self_eq_zero_iff.mp nothing)
    refine ⟨(size : ℂ)⁻¹ * (uᴴ * v).trace, ?_, ?_⟩
    · rw [norm_mul, norm_inv, full, Complex.norm_natCast, inv_mul_cancel₀ positive.ne']
    · rw [mul_smul, ← share, smul_smul, inv_mul_cancel₀ nonzero, one_smul]
  · intro same
    obtain ⟨phase, unit, rfl⟩ := same
    rw [Matrix.mul_smul, uUnitary, Matrix.trace_smul, Matrix.trace_one, Fintype.card_fin,
      smul_eq_mul, norm_mul, unit, one_mul, Complex.norm_natCast]

end Overlap

namespace Operator

variable {size : Nat} {u v : Operator ℝ}

/-- The sum of the diagonal entries. -/
def trace {R : Type} [Scalar R] (u : Operator R) : Amplitude R :=
  Amplitude.sum u.dim fun index => u.entry index index

theorem trace_value (dim : u.dim = size) : u.trace.value = (u.toMatrix size).trace := by
  subst dim
  exact Amplitude.sum_value u.dim _

theorem traceOverlap_eq_trace (same : u.dim = v.dim) :
    u.traceOverlap v = .ok (u.dagger * v).trace := by
  obtain ⟨overlap, traced, value⟩ := traceOverlap_exact rfl same.symm
  have daggerDim : u.dagger.dim = u.dim := dim_dagger u
  have summed : (u.dagger * v).trace.value = overlap.value := by
    rw [trace_value ((dim_mul u.dagger v).trans daggerDim), toMatrix_mul daggerDim,
      toMatrix_dagger rfl, value]
  rw [traced, Amplitude.value_injective summed]

theorem eq_scale_iff (uDim : u.dim = size) (vDim : v.dim = size) :
    (∃ phase : Amplitude ℝ, phase.norm = 1 ∧ u = v.scale phase) ↔
      ∃ phase : ℂ, ‖phase‖ = 1 ∧ u.toMatrix size = phase • v.toMatrix size := by
  constructor
  · intro same
    obtain ⟨phase, unit, rfl⟩ := same
    exact ⟨phase.value, Amplitude.norm_value phase ▸ unit, toMatrix_scale vDim phase⟩
  · intro same
    obtain ⟨phase, unit, matrix⟩ := same
    have value : (Amplitude.mk phase.re phase.im).value = phase := Complex.eta phase
    refine ⟨⟨phase.re, phase.im⟩, ?_, eq_of_toMatrix uDim ((dim_scale v _).trans vDim) ?_⟩
    · rw [Amplitude.norm_value, value, unit]
    · rw [matrix, toMatrix_scale vDim, value]

/-- The overlap of two operators is the trace of the one's adjoint times the other. The distance of
unitary operators lies between zero and one without being cut off, does not depend on their order,
and is zero only for operators that are equal up to a phase. -/
theorem distance_phase_blind (u v : Operator ℝ) (some : 1 ≤ u.dim) (same : u.dim = v.dim) :
    (∃ product, u.dagger.compose v = .ok product ∧ u.traceOverlap v = .ok product.trace) ∧
    (u.Unitary → v.Unitary → ∃ fidelity distance : ℝ,
      u.fidelity v = .ok fidelity ∧ u.distance v = .ok distance ∧ distance = 1 - fidelity ∧
      0 ≤ distance ∧ distance ≤ 1 ∧ v.distance u = .ok distance ∧
      (distance = 0 ↔ ∃ phase : Amplitude ℝ, phase.norm = 1 ∧ u = v.scale phase)) := by
  refine ⟨⟨u.dagger * v, compose_eq_ok same, traceOverlap_eq_trace same⟩, ?_⟩
  intro uUnitary vUnitary
  have uMatrix := (unitary_iff rfl).mp uUnitary
  have vMatrix := (unitary_iff same.symm).mp vUnitary
  have positive : (0 : ℝ) < u.dim := Nat.cast_pos.mpr some
  have swapped : ‖((v.toMatrix u.dim)ᴴ * u.toMatrix u.dim).trace‖ =
      ‖((u.toMatrix u.dim)ᴴ * v.toMatrix u.dim).trace‖ := by
    rw [← star_overlap, norm_star]
  have atLeast : 0 ≤ ‖((u.toMatrix u.dim)ᴴ * v.toMatrix u.dim).trace‖ / u.dim :=
    div_nonneg (norm_nonneg _) positive.le
  have atMost : ‖((u.toMatrix u.dim)ᴴ * v.toMatrix u.dim).trace‖ / u.dim ≤ 1 :=
    (div_le_one positive).mpr (norm_overlap_le uMatrix vMatrix)
  refine ⟨_, _, fidelity_exact rfl same.symm, ?_, rfl, sub_nonneg.mpr atMost,
    sub_le_self 1 atLeast, ?_, ?_⟩
  · rw [distance_exact rfl same.symm, max_eq_left (sub_nonneg.mpr atMost)]
  · rw [distance_exact same.symm rfl, swapped, max_eq_left (sub_nonneg.mpr atMost)]
  · rw [eq_scale_iff rfl same.symm, ← norm_overlap_eq_iff some vMatrix uMatrix, swapped,
      sub_eq_zero, eq_comm, div_eq_one_iff_eq positive.ne']

theorem Unitary.scale (unitary : u.Unitary) {phase : Amplitude ℝ} (unit : phase.norm = 1) :
    (u.scale phase).Unitary := by
  have square : phase.value * star phase.value = 1 := by
    rw [Complex.star_def, Complex.mul_conj', ← Amplitude.norm_value, unit]
    norm_num
  rw [unitary_iff (dim_scale u phase), toMatrix_scale rfl, Matrix.conjTranspose_smul,
    Matrix.smul_mul, Matrix.mul_smul, (unitary_iff rfl).mp unitary, smul_smul, mul_comm, square,
    one_smul]

/-- A shift of a qutrit and the same shift with a quarter turn of the phase. -/
theorem distance_phase_blind_quarter :
    let shift : Operator ℝ := cyclicShift 3
    let turned : Operator ℝ := shift.scale ⟨0, 1⟩
    1 ≤ turned.dim ∧ turned.dim = shift.dim ∧ turned.Unitary ∧ shift.Unitary ∧
      turned.traceOverlap shift = .ok (turned.dagger * shift).trace ∧
      turned.distance shift = .ok 0 := by
  intro shift turned
  have unit : (⟨0, 1⟩ : Amplitude ℝ).norm = 1 := by
    rw [Amplitude.norm_value]
    exact Complex.norm_I
  have some : 1 ≤ turned.dim := by decide
  have unitary : shift.Unitary := (unitary_iff rfl).mpr shift_unitary
  have turnedUnitary : turned.Unitary := unitary.scale unit
  obtain ⟨⟨product, composed, overlap⟩, comparison⟩ := distance_phase_blind turned shift some rfl
  obtain ⟨_, distance, _, measured, _, _, _, _, zero_iff⟩ := comparison turnedUnitary unitary
  obtain rfl := (compose_eq_ok_iff.mp composed).2
  rw [zero_iff.mpr ⟨_, unit, rfl⟩] at measured
  exact ⟨some, rfl, turnedUnitary, unitary, overlap, measured⟩

end Operator
end QuditSynth
