import Mathlib.LinearAlgebra.UnitaryGroup
import QuditSynth.Proofs.Exact.Placement
import QuditSynth.Proofs.Exact.Rotation
import QuditSynth.Proofs.Exact.Unitary

namespace QuditSynth

/-! # Adjoints

The conjugate transpose passes through everything that gates are built from: a
rotation turns back, a block on a plane stays on its plane, and an embedding,
controls included, takes adjoints to adjoints. Embeddings of unitary operators
are therefore unitary.
-/

open scoped Matrix

namespace Placement

variable {State Part : Type} (placement : Placement State Part)

theorem write_symm {row col : State} (reached : placement.write col (placement.read row) = row) :
    placement.write row (placement.read col) = col := by
  rw [← reached, placement.write_write, placement.write_read]

theorem spread_conjTranspose [DecidableEq State] {block : State → Matrix Part Part ℂ}
    (blind : placement.Blind block) :
    (placement.spread block)ᴴ = placement.spread fun state => (block state)ᴴ := by
  ext row col
  rw [Matrix.conjTranspose_apply, spread, spread]
  by_cases reached : placement.write col (placement.read row) = row
  · have same : block row = block col := by rw [← reached, blind]
    rw [if_pos reached, if_pos (placement.write_symm reached), same, Matrix.conjTranspose_apply]
  · have unreached : ¬ placement.write row (placement.read col) = col :=
      fun back => reached (placement.write_symm back)
    rw [if_neg reached, if_neg unreached, star_zero]

end Placement

theorem plane_conjTranspose {size : Nat} {a b : Fin size} (distinct : a ≠ b)
    (block : Matrix (Fin 2) (Fin 2) ℂ) : (plane a b block)ᴴ = plane a b blockᴴ := by
  ext row col
  simp only [Matrix.conjTranspose_apply, plane]
  by_cases rowA : row = a
  · by_cases colA : col = a
    · simp [rowA, colA, distinct]
    · by_cases colB : col = b
      · simp [rowA, colB, distinct]
      · simp [rowA, colA, colB, Ne.symm colA]
  · by_cases rowB : row = b
    · by_cases colA : col = a
      · simp [rowB, colA, distinct.symm]
      · by_cases colB : col = b
        · simp [rowB, colB, distinct.symm]
        · simp [rowB, colA, colB, Ne.symm colB]
    · by_cases same : row = col
      · simp [← same, rowA, rowB]
      · simp [rowA, rowB, same, Ne.symm same]

section Turn

variable (theta phi : ℝ)

theorem conjTranspose_two_by_two (aa ab ba bb : ℂ) :
    !![aa, ab; ba, bb]ᴴ = !![star aa, star ba; star ab, star bb] := by
  ext row col
  fin_cases row <;> fin_cases col <;> rfl

theorem star_cos_half : star (Complex.cos (theta / 2)) = Complex.cos (theta / 2) := by
  rw [Complex.star_def, ← Complex.cos_conj, map_div₀, Complex.conj_ofReal, Complex.conj_ofNat]

theorem star_sin_half : star (Complex.sin (theta / 2)) = Complex.sin (theta / 2) := by
  rw [Complex.star_def, ← Complex.sin_conj, map_div₀, Complex.conj_ofReal, Complex.conj_ofNat]

theorem star_exp_mul_I : star (Complex.exp (phi * Complex.I)) = Complex.exp (-phi * Complex.I) := by
  rw [Complex.star_def, ← Complex.exp_conj, map_mul, Complex.conj_ofReal, Complex.conj_I, mul_neg,
    neg_mul]

theorem neg_half : ((-theta : ℝ) : ℂ) / 2 = -(theta / 2) := by
  push_cast
  ring

/-- The adjoint of a rotation turns back. -/
theorem turn_conjTranspose : (turn theta phi)ᴴ = turn (-theta) phi := by
  have back : star (Complex.exp (-phi * Complex.I)) = Complex.exp (phi * Complex.I) := by
    rw [← star_exp_mul_I, star_star]
  have turned : star (-Complex.I) = Complex.I := by simp
  rw [turn_eq, turn_eq, conjTranspose_two_by_two, neg_half, Complex.cos_neg, Complex.sin_neg]
  refine two_by_two (star_cos_half theta) ?_ ?_ (star_cos_half theta)
  · rw [star_mul', star_mul', turned, star_sin_half, star_exp_mul_I]
    ring
  · rw [star_mul', star_mul', turned, star_sin_half, back]
    ring

/-- The opposite axis turns back, too. -/
theorem turn_opposite : turn theta (phi + Real.pi) = turn (-theta) phi := by
  have upper : -((phi + Real.pi : ℝ) : ℂ) * Complex.I =
      -phi * Complex.I - Real.pi * Complex.I := by
    push_cast
    ring
  have lower : ((phi + Real.pi : ℝ) : ℂ) * Complex.I = phi * Complex.I + Real.pi * Complex.I := by
    push_cast
    ring
  rw [turn_eq, turn_eq, neg_half, Complex.cos_neg, Complex.sin_neg, upper, lower, Complex.exp_sub,
    Complex.exp_add, Complex.exp_pi_mul_I]
  exact two_by_two rfl (by ring) (by ring) rfl

theorem turn_conjTranspose_mul : (turn theta phi)ᴴ * turn theta phi = 1 := by
  rw [turn_conjTranspose, turn_add, neg_add_cancel, turn_zero]

end Turn

/-- A matrix that moves every state to a state of its own. -/
theorem conjTranspose_mul_of_injective {size : Nat} {m : Matrix (Fin size) (Fin size) ℂ}
    {move : Fin size → Fin size} (injective : Function.Injective move)
    (entries : ∀ row col, m row col = if row = move col then 1 else 0) : mᴴ * m = 1 := by
  ext row col
  rw [Matrix.mul_apply, Matrix.one_apply]
  simp [entries, injective.eq_iff, eq_comm]

namespace Operator

variable {size : Nat} {u v : Operator ℝ}

/-- The matrix of the operator is unitary. -/
def Unitary (u : Operator ℝ) : Prop := u.toMatrix u.dim ∈ Matrix.unitaryGroup (Fin u.dim) ℂ

theorem unitary_iff (dim : u.dim = size) :
    u.Unitary ↔ (u.toMatrix size)ᴴ * u.toMatrix size = 1 := by
  subst dim
  exact Matrix.mem_unitaryGroup_iff'

@[simp] theorem dim_dagger (u : Operator ℝ) : u.dagger.dim = u.dim := rfl

theorem eq_dagger (uDim : u.dim = size) (vDim : v.dim = size)
    (adjoint : v.toMatrix size = (u.toMatrix size)ᴴ) : v = u.dagger :=
  eq_of_toMatrix vDim uDim (adjoint.trans (toMatrix_dagger uDim).symm)

/-- The adjoint of a unitary operator undoes it, before and after. -/
theorem Unitary.dagger_mul (unitary : u.Unitary) :
    u.dagger * u = identity u.dim ∧ u * u.dagger = identity u.dim := by
  have undone := (unitary_iff rfl).mp unitary
  refine ⟨dagger_mul_eq_identity undone, eq_of_toMatrix (dim_mul u _) (dim_identity u.dim) ?_⟩
  rw [toMatrix_mul rfl, toMatrix_dagger rfl, toMatrix_identity]
  exact mul_eq_one_comm.mp undone

section Embedding

variable {dims targets : List Nat} {controls : List (Nat × Nat)} {full : Operator ℝ}
  (addressable : Addressable dims) (positions : Positions dims targets)
  (controlled : ControlsFit dims targets controls)
  (dim : u.dim = product (Axis.targetDims dims targets))
  (run : u.embed dims targets controls = .ok full)

theorem guarded_conjTranspose (block : Matrix (Fin size) (Fin size) ℂ)
    (state : Fin (product dims)) :
    (guarded dims controls block state)ᴴ = guarded dims controls blockᴴ state := by
  by_cases admits : Admits dims controls state
  · simp [guarded, admits]
  · simp [guarded, admits]

include addressable positions controlled dim run

/-- The embedding of an adjoint is the adjoint of the embedding. -/
theorem embed_dagger : u.dagger.embed dims targets controls = .ok full.dagger := by
  obtain ⟨fullDim, fullMatrix⟩ := toMatrix_of_embed addressable positions controlled dim run
  obtain ⟨other, otherRun, otherDim, otherMatrix⟩ :=
    embed_toMatrix (u := u.dagger) addressable positions controlled dim
  have blind := blind_guarded addressable positions controlled
    (u.toMatrix (product (Axis.targetDims dims targets)))
  rw [otherRun, eq_dagger fullDim otherDim]
  rw [otherMatrix, fullMatrix, Placement.spread_conjTranspose _ blind, toMatrix_dagger dim]
  simp only [guarded_conjTranspose]

/-- The embedding of a unitary operator is unitary. -/
theorem Unitary.embed (unitary : u.Unitary) : full.Unitary := by
  obtain ⟨fullDim, fullMatrix⟩ := toMatrix_of_embed addressable positions controlled dim run
  have blind := blind_guarded addressable positions controlled
    (u.toMatrix (product (Axis.targetDims dims targets)))ᴴ
  rw [unitary_iff fullDim, fullMatrix, Placement.spread_conjTranspose _
    (blind_guarded addressable positions controlled _)]
  simp only [guarded_conjTranspose]
  rw [Placement.spread_mul _ blind]
  simp only [guarded_mul, (unitary_iff dim).mp unitary, guarded_one, Placement.spread_one]

end Embedding

end Operator
end QuditSynth
