import Mathlib.Analysis.CStarAlgebra.Classes
import Mathlib.Analysis.Normed.Algebra.MatrixExponential
import Mathlib.Analysis.SpecialFunctions.Exponential
import Mathlib.LinearAlgebra.Matrix.Kronecker
import QuditSynth.Gate.Action
import QuditSynth.Proofs.Exact.Unitary

namespace QuditSynth

/-! # The exact exponential

An exponential is exact if it is that of matrices. The simultaneous flip of two
qudits, which generates an interaction, is its own cube: its eigenvalues are the
whole numbers -1, 0 and 1. A full turn of the interaction is therefore the
identity, and angles may be reduced.
-/

open scoped Matrix Kronecker

/-- The exponential of operators is the exponential of their matrices. -/
def Exponential.IsExact [Exponential ℝ] : Prop :=
  ∀ u : Operator ℝ, (exp u).toMatrix u.dim = NormedSpace.exp (u.toMatrix u.dim)

namespace Exponential

/-- An exact exponential. -/
@[reducible]
noncomputable def exact : Exponential ℝ where
  exp u := .ofFn u.dim fun row col =>
    if bounds : row < u.dim ∧ col < u.dim then
      let value := NormedSpace.exp (u.toMatrix u.dim) ⟨row, bounds.1⟩ ⟨col, bounds.2⟩
      ⟨value.re, value.im⟩
    else 0
  dim_exp _ := rfl

theorem isExact_exact : @IsExact exact := by
  intro u
  change (Operator.ofFn u.dim _).toMatrix u.dim = _
  rw [Operator.toMatrix_ofFn]
  ext row col
  rw [dif_pos ⟨row.isLt, col.isLt⟩]
  rfl

end Exponential

section Exponent

variable {size : Nat} {m : Matrix (Fin size) (Fin size) ℂ}

/-- On the image of a projection the exponential is that of a number. -/
theorem exp_idempotent (idempotent : m * m = m) (c : ℂ) :
    NormedSpace.exp (c • m) = Complex.exp c • m + (1 - m) := by
  have power : ∀ n : ℕ, (n.factorial : ℂ)⁻¹ • (c • m) ^ n =
      (c ^ n / n.factorial) • m + if n = 0 then 1 - m else 0 := by
    intro n
    cases n with
    | zero => simp
    | succ n =>
        rw [smul_pow, IsIdempotentElem.pow_succ_eq n idempotent, smul_smul, inv_mul_eq_div]
        simp
  have number : HasSum (fun n : ℕ => c ^ n / n.factorial) (Complex.exp c) := by
    rw [Complex.exp_eq_exp_ℂ]
    exact NormedSpace.expSeries_div_hasSum_exp c
  rw [NormedSpace.exp_eq_tsum ℂ]
  simp only [power]
  exact ((number.smul_const m).add (hasSum_ite_eq 0 (1 - m))).tsum_eq

/-- A full turn of a matrix that is its own cube is the identity. -/
theorem exp_whole (cube : m * m * m = m) (turns : ℤ) :
    NormedSpace.exp ((turns * (2 * Real.pi * Complex.I)) • m) = 1 := by
  -- The matrix is the difference of the projections on its eigenspaces for 1 and -1.
  let above : Matrix (Fin size) (Fin size) ℂ := (2⁻¹ : ℂ) • (m * m + m)
  let below : Matrix (Fin size) (Fin size) ℂ := (2⁻¹ : ℂ) • (m * m - m)
  have fourth : m * m * (m * m) = m * m := by rw [← Matrix.mul_assoc, cube]
  have cube' : m * (m * m) = m := by rw [← Matrix.mul_assoc, cube]
  have aboveIdempotent : above * above = above := by
    simp only [above, Matrix.smul_mul, Matrix.mul_smul, Matrix.add_mul, Matrix.mul_add,
      fourth, cube, cube']
    module
  have belowIdempotent : below * below = below := by
    simp only [below, Matrix.smul_mul, Matrix.mul_smul, Matrix.sub_mul, Matrix.mul_sub,
      fourth, cube, cube']
    module
  have commute : above * below = below * above := by
    simp only [above, below, Matrix.smul_mul, Matrix.mul_smul, Matrix.sub_mul, Matrix.mul_sub,
      Matrix.add_mul, Matrix.mul_add, fourth, cube, cube']
    module
  set c : ℂ := turns * (2 * Real.pi * Complex.I)
  have split : c • m = c • above + -c • below := by
    simp only [above, below]
    module
  have one : Complex.exp c = 1 := Complex.exp_int_mul_two_pi_mul_I turns
  have back : Complex.exp (-c) = 1 := by rw [Complex.exp_neg, one, inv_one]
  have apart : Commute (c • above) (-c • below) := by
    rw [Commute, SemiconjBy]
    simp only [Matrix.smul_mul, Matrix.mul_smul, commute, smul_comm c (-c)]
  rw [split, Matrix.exp_add_of_commute _ _ apart, exp_idempotent aboveIdempotent,
    exp_idempotent belowIdempotent, one, back, one_smul, one_smul, add_sub_cancel, add_sub_cancel,
    Matrix.one_mul]

end Exponent

namespace Operator

section Flip

variable {dim : Nat}

/-- The exchange of the lowest two levels, as a matrix that is zero elsewhere. -/
noncomputable def flip (dim : Nat) : Matrix (Fin dim) (Fin dim) ℂ :=
  fun row col => if row.val = 0 ∧ col.val = 1 ∨ row.val = 1 ∧ col.val = 0 then 1 else 0

theorem flip_mulVec (levels : 2 ≤ dim) (vector : Fin dim → ℂ) (row : Fin dim) :
    (flip dim *ᵥ vector) row =
      if row.val = 0 then vector ⟨1, levels⟩
      else if row.val = 1 then vector ⟨0, by omega⟩ else 0 := by
  simp only [Matrix.mulVec, dotProduct, flip]
  by_cases lowest : row.val = 0
  · rw [if_pos lowest, Finset.sum_eq_single ⟨1, levels⟩]
    · simp [lowest]
    · intro col _ elsewhere
      simp [lowest, Fin.ext_iff.not.mp elsewhere]
    · simp
  · rw [if_neg lowest]
    by_cases next : row.val = 1
    · rw [if_pos next, Finset.sum_eq_single ⟨0, by omega⟩]
      · simp [next]
      · intro col _ elsewhere
        simp [next, Fin.ext_iff.not.mp elsewhere]
      · simp
    · simp [lowest, next]

/-- A single level has nothing to exchange. -/
theorem flip_eq_zero (short : dim < 2) : flip dim = 0 := by
  ext row col
  rw [flip, if_neg (by omega)]
  rfl

variable (dim) in
theorem flip_cube : flip dim * flip dim * flip dim = flip dim := by
  by_cases levels : 2 ≤ dim
  · rw [Matrix.ext_iff_mulVec]
    intro vector
    funext row
    simp only [← Matrix.mulVec_mulVec, flip_mulVec levels]
    simp
  · rw [flip_eq_zero (Nat.lt_of_not_le levels), Matrix.mul_zero]

theorem flip_conjTranspose : (flip dim)ᴴ = flip dim := by
  ext row col
  have symmetric : (col.val = 0 ∧ row.val = 1 ∨ col.val = 1 ∧ row.val = 0) ↔
      (row.val = 0 ∧ col.val = 1 ∨ row.val = 1 ∧ col.val = 0) := by omega
  simp only [Matrix.conjTranspose_apply, flip, symmetric]
  split <;> simp

theorem toMatrix_lowestFlip {u : Operator ℝ} (made : lowestFlip dim = .ok u) :
    2 ≤ dim ∧ u.dim = dim ∧ u.toMatrix dim = flip dim := by
  obtain ⟨_, made⟩ := Outcome.check_bind_eq_ok_iff.mp made
  by_cases levels : 2 ≤ dim
  · rw [if_pos levels] at made
    cases made
    refine ⟨levels, rfl, ?_⟩
    rw [toMatrix_ofFn]
    ext row col
    rw [flip]
    split <;> rfl
  · rw [if_neg levels] at made
    cases made

end Flip

/-- The simultaneous flip of the lowest two levels of two qudits. -/
noncomputable def flips (first second : Nat) :
    Matrix (Fin (first * second)) (Fin (first * second)) ℂ :=
  (flip first ⊗ₖ flip second).submatrix finProdFinEquiv.symm finProdFinEquiv.symm

theorem kronecker_eq_submatrix (u v : Operator ℝ) :
    (u.kronecker v).toMatrix (u.dim * v.dim) =
      (u.toMatrix u.dim ⊗ₖ v.toMatrix v.dim).submatrix finProdFinEquiv.symm
        finProdFinEquiv.symm := by
  rw [kronecker, toMatrix_ofFn]
  rfl

theorem flips_cube (first second : Nat) :
    flips first second * flips first second * flips first second = flips first second := by
  simp only [flips, Matrix.submatrix_mul_equiv, ← Matrix.mul_kronecker_mul, flip_cube first,
    flip_cube second]

theorem flips_conjTranspose (first second : Nat) :
    (flips first second)ᴴ = flips first second := by
  rw [flips, Matrix.conjTranspose_submatrix, Matrix.conjTranspose_kronecker, flip_conjTranspose,
    flip_conjTranspose]

/-- The interaction of two qudits by an angle. -/
noncomputable def interaction (first second : Nat) (theta : ℝ) :
    Matrix (Fin (first * second)) (Fin (first * second)) ℂ :=
  NormedSpace.exp ((-(Scalar.half theta : ℝ) * Complex.I : ℂ) • flips first second)

section Interaction

variable (first second : Nat)

theorem interaction_eq (theta : ℝ) : interaction first second theta =
    NormedSpace.exp ((-(theta / 2) * Complex.I : ℂ) • flips first second) := by
  rw [interaction, Scalar.half_exact, Complex.ofReal_div, Complex.ofReal_ofNat]

theorem interaction_conjTranspose (theta : ℝ) :
    (interaction first second theta)ᴴ = interaction first second (-theta) := by
  have angle : star (-(theta / 2) * Complex.I : ℂ) = -((-theta : ℝ) / 2) * Complex.I := by
    simp
    ring
  rw [interaction_eq, ← Matrix.exp_conjTranspose, Matrix.conjTranspose_smul, flips_conjTranspose,
    angle, interaction_eq]

theorem interaction_zero : interaction first second 0 = 1 := by
  rw [interaction_eq, Complex.ofReal_zero, zero_div, neg_zero, zero_mul, zero_smul,
    NormedSpace.exp_zero]

theorem interaction_add (alpha beta : ℝ) :
    interaction first second alpha * interaction first second beta =
      interaction first second (alpha + beta) := by
  have angle : (-((alpha + beta : ℝ) / 2) * Complex.I : ℂ) =
      -(alpha / 2) * Complex.I + -(beta / 2) * Complex.I := by
    push_cast
    ring
  rw [interaction_eq, interaction_eq, interaction_eq, angle, add_smul, Matrix.exp_add_of_commute]
  exact ((Commute.refl (flips first second)).smul_left _).smul_right _

theorem interaction_conjTranspose_mul (theta : ℝ) :
    (interaction first second theta)ᴴ * interaction first second theta = 1 := by
  rw [interaction_conjTranspose, interaction_add, neg_add_cancel, interaction_zero]

/-- Reducing its angle does not change an interaction. -/
theorem interaction_wrap (theta : ℝ) :
    interaction first second (Angle.wrap theta Angle.rotationPeriod) =
      interaction first second theta := by
  obtain ⟨turns, reduced⟩ := Angle.half_wrap theta
  have wrapped : Angle.wrap theta Angle.rotationPeriod = theta + -turns * (4 * Real.pi) := by
    linarith
  have whole : interaction first second (-turns * (4 * Real.pi)) = 1 := by
    have angle : (-((-turns * (4 * Real.pi) : ℝ) / 2) * Complex.I : ℂ) =
        turns * (2 * Real.pi * Complex.I) := by
      push_cast
      ring
    rw [interaction_eq, angle]
    exact exp_whole (flips_cube first second) turns
  rw [wrapped, ← interaction_add, whole, Matrix.mul_one]

end Interaction

theorem toMatrix_scale {size : Nat} {u : Operator ℝ} (dim : u.dim = size)
    (factor : Amplitude ℝ) : (u.scale factor).toMatrix size = factor.value • u.toMatrix size := by
  subst dim
  ext row col
  rw [toMatrix_apply, scale, entry_map _ row.isLt col.isLt, Amplitude.value_mul, mul_comm]
  rfl

end Operator
end QuditSynth
