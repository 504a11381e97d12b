import QuditSynth.Proofs.Gate.Inverse
import QuditSynth.Proofs.Synthesis.LayerMatrix

namespace QuditSynth

/-! # Unitarity of the ansatz

Over exact scalars a layered ansatz is unitary at all angles, being a product of
local layers and of entanglers that are unitary themselves.
-/

open scoped Matrix Kronecker

namespace Operator

variable {size : Nat} {u v : Operator ℝ}

theorem Unitary.mul (same : v.dim = u.dim) (uUnitary : u.Unitary) (vUnitary : v.Unitary) :
    (u * v).Unitary := by
  have uGroup := Matrix.mem_unitaryGroup_iff'.mpr ((unitary_iff rfl).mp uUnitary)
  have vGroup := Matrix.mem_unitaryGroup_iff'.mpr ((unitary_iff same).mp vUnitary)
  rw [unitary_iff (dim_mul u v), toMatrix_mul rfl]
  exact Matrix.mem_unitaryGroup_iff'.mp (mul_mem uGroup vGroup)

theorem Unitary.kronecker (uUnitary : u.Unitary) (vUnitary : v.Unitary) :
    (u.kronecker v).Unitary := by
  have product := Matrix.mem_unitaryGroup_iff'.mp (Matrix.kronecker_mem_unitary uUnitary vUnitary)
  rw [unitary_iff (dim_kronecker u v), kronecker_eq_submatrix, Matrix.conjTranspose_submatrix,
    Matrix.submatrix_mul_equiv, ← Matrix.star_eq_conjTranspose, product,
    Matrix.submatrix_one_equiv]

end Operator

theorem shift_conjTranspose_mul (theta : ℝ) : (shift theta)ᴴ * shift theta = 1 := by
  have zero : star (0 : Amplitude ℝ).value * (0 : Amplitude ℝ).value = 0 := by simp
  rw [← Crot.phaseBlock_matrix, Operator.Block.matrix, conjTranspose_two_by_two, Matrix.mul_fin_two,
    Matrix.one_fin_two]
  refine two_by_two ?_ ?_ ?_ ?_
  · rw [Crot.phaseBlock, Gate.star_polar_mul, zero, add_zero]
  · simp [Crot.phaseBlock]
  · simp [Crot.phaseBlock]
  · rw [Crot.phaseBlock, Gate.star_polar_mul, zero, zero_add]

namespace Gate

variable {size : Nat}

theorem mixing_unitary {gate : Gate ℝ} (suits : gate.Suits [size]) :
    (gate.mixing size)ᴴ * gate.mixing size = 1 := by
  cases gate with
  | r theta phi a b =>
      obtain ⟨_, same, distinct, aBound, bBound⟩ := suits
      cases same
      refine (Operator.unitary_iff rfl).mp (Operator.unitary_ofBlock distinct aBound bBound ?_)
      rw [Operator.rotationBlock_matrix, turn_conjTranspose_mul]
  | rz theta a b =>
      obtain ⟨_, same, distinct, aBound, bBound⟩ := suits
      cases same
      refine (Operator.unitary_iff rfl).mp (Operator.unitary_ofBlock distinct aBound bBound ?_)
      rw [Crot.phaseBlock_matrix, shift_conjTranspose_mul]
  | virtRz theta level =>
      rw [mixing, Matrix.diagonal_conjTranspose, Matrix.diagonal_mul_diagonal,
        Matrix.diagonal_eq_one]
      funext row
      by_cases isLevel : row.val = level
      · simp only [Pi.star_apply, if_pos isLevel, star_polar_mul, Pi.one_apply]
      · simp [isLevel]
  | h | x | cex | ms | csum | unitary => simp [mixing]

theorem mixings_unitary {gates : List (Gate ℝ)} (suits : ∀ gate ∈ gates, gate.Suits [size]) :
    (mixings size gates)ᴴ * mixings size gates = 1 := by
  induction gates with
  | nil => simp [mixings]
  | cons gate gates ih =>
      obtain ⟨gateSuits, othersSuit⟩ := List.forall_mem_cons.mp suits
      have first := Matrix.mem_unitaryGroup_iff'.mpr (mixing_unitary gateSuits)
      have others := Matrix.mem_unitaryGroup_iff'.mpr (ih othersSuit)
      exact Matrix.mem_unitaryGroup_iff'.mp (mul_mem others first)

end Gate

theorem LocalLayer.unitary_operator {layer : LocalLayer} {params : List ℝ}
    (count : params.length = layer.paramCount) (positive : 0 < layer.dim) :
    ∃ u, layer.operator params = .ok u ∧ u.dim = layer.dim ∧ u.Unitary := by
  obtain ⟨u, built, dim⟩ := operator_exists count positive
  obtain ⟨gates, made⟩ := gates_exists count positive
  obtain ⟨_, toMatrix⟩ := toMatrix_operator rfl made built
  refine ⟨u, built, dim, (Operator.unitary_iff dim).mpr ?_⟩
  rw [toMatrix, Gate.mixings_unitary (suits_gates made)]

namespace Ansatz

variable {ansatz : Ansatz ℝ} {params : List ℝ}
  (levels : 0 < ansatz.generator.dims.1 ∧ 0 < ansatz.generator.dims.2)
  (room : Operator.checkDim (ansatz.generator.dims.1 * ansatz.generator.dims.2) = .ok ())

include levels room

theorem unitary_localOperator (count : params.length = ansatz.localParams) :
    ∃ u, ansatz.localOperator params = .ok u ∧
      u.dim = ansatz.generator.dims.1 * ansatz.generator.dims.2 ∧ u.Unitary := by
  obtain ⟨p, q, split, first, second⟩ := split_local_exists count
  obtain ⟨u, uBuilt, uDim, uUnitary⟩ := LocalLayer.unitary_operator first levels.1
  obtain ⟨v, vBuilt, vDim, vUnitary⟩ := LocalLayer.unitary_operator second levels.2
  have dim : u.dim * v.dim = ansatz.generator.dims.1 * ansatz.generator.dims.2 := by
    rw [uDim, vDim]
    rfl
  have nonempty : v.dim ≠ 0 := vDim ▸ levels.2.ne'
  have placed := Operator.tensor_eq_ok (u := u) nonempty (dim ▸ room)
  exact ⟨u.kronecker v, by simp [localOperator, split, uBuilt, vBuilt, placed], dim,
    uUnitary.kronecker vUnitary⟩

/-- An ansatz whose entanglers are unitary is unitary at all angles. -/
theorem unitary_operator (count : params.length = ansatz.paramCount)
    (entanglers : ∀ angle phase, ∃ u, ansatz.generator.operator angle phase = .ok u ∧
      u.dim = ansatz.generator.dims.1 * ansatz.generator.dims.2 ∧ u.Unitary) :
    ∃ u, ansatz.operator params = .ok u ∧
      u.dim = ansatz.generator.dims.1 * ansatz.generator.dims.2 ∧ u.Unitary := by
  obtain ⟨slices, sliced, fits, _⟩ := slices_exists count
  obtain ⟨opening, opened, openingDim, openingUnitary⟩ := unitary_localOperator levels room fits.opening
  rw [operator_eq sliced opened]
  refine (Outcome.foldlM_exists (fun blocks total =>
    (∀ block ∈ blocks, block.2.length = ansatz.localParams) ∧
      total.dim = ansatz.generator.dims.1 * ansatz.generator.dims.2 ∧ total.Unitary) ?_
    ⟨fits.inner, openingDim, openingUnitary⟩).imp fun u reached => ⟨reached.1, reached.2.2⟩
  rintro block blocks total ⟨lengths, totalDim, totalUnitary⟩
  obtain ⟨length, others⟩ := List.forall_mem_cons.mp lengths
  obtain ⟨entangler, entangled, entanglerDim, entanglerUnitary⟩ :=
    entanglers (anglePhase block.1).1 (anglePhase block.1).2
  obtain ⟨inner, placed, innerDim, innerUnitary⟩ := unitary_localOperator levels room length
  refine ⟨inner * (entangler * total), extend_eq_ok entangled placed total, others, innerDim, ?_⟩
  exact innerUnitary.mul (entanglerDim.trans innerDim.symm)
    (entanglerUnitary.mul (totalDim.trans entanglerDim.symm) totalUnitary)

end Ansatz

namespace Family

variable {family : Family} {dims : Nat × Nat} (notMs : family ≠ .ms)
  (levels : 2 ≤ dims.1 ∧ 2 ≤ dims.2) (room : Operator.checkDim (dims.1 * dims.2) = .ok ())

include notMs levels room

theorem unitary_entangler (angle phase : ℝ) :
    ∃ u, (family.entangler dims).operator angle phase = .ok u ∧ u.dim = dims.1 * dims.2 ∧
      u.Unitary := by
  have unit : (Operator.rotationBlock angle phase).matrixᴴ *
      (Operator.rotationBlock angle phase).matrix = 1 := by
    rw [Operator.rotationBlock_matrix, turn_conjTranspose_mul]
  cases family with
  | ms => exact absurd rfl notMs
  | crot =>
      have low := pair_state_lt levels.1 (Nat.zero_lt_of_lt levels.2)
      have high := pair_state_lt levels.1 levels.2
      rw [product_pair] at low high
      exact ⟨_, crot_operator_eq levels room angle phase, rfl,
        Operator.unitary_ofBlock (by omega) low high unit⟩
  | pswap =>
      have low := pair_state_lt (Nat.zero_lt_of_lt levels.1) levels.2
      have high := pair_state_lt levels.1 (Nat.zero_lt_of_lt levels.2)
      rw [product_pair] at low high
      exact ⟨_, pswap_operator_eq levels room angle phase, rfl,
        Operator.unitary_ofBlock (by omega) low high unit⟩

theorem unitary_ansatz {layers : Nat} {params : List ℝ}
    (count : params.length = Ansatz.paramCount (R := ℝ) ⟨family.entangler dims, layers⟩) :
    ∃ u, Ansatz.operator ⟨family.entangler dims, layers⟩ params = .ok u ∧
      u.dim = dims.1 * dims.2 ∧ u.Unitary := by
  have positive := family.entangler_positive (R := ℝ) levels
  have built := unitary_entangler notMs levels room
  simpa using Ansatz.unitary_operator positive (by simpa using room) count (by simpa using built)

end Family
end QuditSynth
