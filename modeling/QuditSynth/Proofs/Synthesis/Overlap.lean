import QuditSynth.Proofs.Exact.Distance
import QuditSynth.Proofs.Operator.Unitarity
import QuditSynth.Proofs.Synthesis.Contract
import QuditSynth.Proofs.Synthesis.Unitary

namespace QuditSynth

/-! # Targets of large overlap

A distance is cut off at zero, and a search asks for nothing else. A target that
overlaps by its dimension or more with the operator of the first restart is
therefore found with one layer, even if no unitary operator is near it: twice the
operator of the first restart is such a target.
-/

open scoped Matrix

theorem Scalar.ordered_exact : Scalar.Ordered ℝ where
  zero := beq_exact.mpr rfl
  number_of_lt _ _ _ := beq_exact.mpr rfl
  lt_trans _ _ _ := lt_trans
  lt_of_not_lt _ _ _ _ _ above := lt_of_le_of_lt (not_lt.mp above)

namespace Operator

variable {size : Nat} {u : Operator ℝ}

theorem trace_of_unitary (unitary : u.Unitary) :
    ((u.toMatrix u.dim)ᴴ * u.toMatrix u.dim).trace = u.dim := by
  rw [(unitary_iff rfl).mp unitary, Matrix.trace_one, Fintype.card_fin]

/-- Twice a unitary operator does not pass for unitary. -/
theorem isUnitary_doubled (unitary : u.Unitary) (some : 0 < u.dim) {tolerance : ℝ}
    (small : tolerance ≤ 3) : (u.scale (.ofReal 2)).isUnitary tolerance = false := by
  have doubledDim : (u.scale (.ofReal 2)).dim = u.dim := rfl
  have product : ((u.scale (.ofReal 2)).dagger * u.scale (.ofReal 2)).toMatrix u.dim =
      (4 : ℂ) • 1 := by
    rw [toMatrix_mul ((dim_dagger _).trans doubledDim), toMatrix_dagger doubledDim,
      toMatrix_scale rfl, Matrix.conjTranspose_smul, Matrix.smul_mul, Matrix.mul_smul,
      (unitary_iff rfl).mp unitary, smul_smul, Amplitude.value_ofReal]
    norm_num
  have corner : (u.scale (.ofReal 2)).deviation 0 0 = 3 := by
    have entry := congrFun₂ product ⟨0, some⟩ ⟨0, some⟩
    rw [toMatrix_apply, Matrix.smul_apply, Matrix.one_apply_eq] at entry
    rw [deviation, Amplitude.norm_value, Amplitude.value_sub, entry]
    norm_num
  rw [Bool.eq_false_iff]
  intro passes
  have below := ((isUnitary_iff Scalar.ordered_exact).mp passes).2 0 some 0 some
    (Scalar.beq_exact.mpr rfl)
  rw [corner] at below
  exact absurd small (not_le.mpr below)

end Operator

namespace Search

variable {config : Config ℝ} {family : Family} {dims : Nat × Nat}
  (valid : config.validate = .ok ())
  (tables : config.maxLayers * 8 < 2 ^ 63 ∧ config.restarts * 40 < 2 ^ 63)
  (levels : 2 ≤ dims.1 ∧ 2 ≤ dims.2) (room : Operator.checkDim (dims.1 * dims.2) = .ok ())

include valid tables levels room

/-- Nothing but a large overlap with the first restart is needed for a target to be found. -/
theorem synthesizeWith_overlapping {target u : Operator ℝ} {size : Nat}
    (pair : size = dims.1 * dims.2) (targetDim : target.dim = size) (dim : u.dim = size)
    (built : Ansatz.operator ⟨family.entangler dims, 1⟩
      (start config ⟨family.entangler dims, 1⟩ none 0) = .ok u)
    (overlap : (size : ℝ) ≤ ‖((u.toMatrix size)ᴴ * target.toMatrix size).trace‖) :
    ∃ synthesis, synthesizeWith config family target dims = .ok synthesis := by
  obtain ⟨_, _, starts, _⟩ := Config.validate_eq_ok_iff.mp valid
  have steady := steady_exact (objective ⟨family.entangler dims, 1⟩ target)
    (Ansatz.paramCount (R := ℝ) ⟨family.entangler dims, 1⟩)
  obtain ⟨best, chosen, settled⟩ := bestRestart_exists steady starts none
  have perfect : objective ⟨family.entangler dims, 1⟩ target
      (start config ⟨family.entangler dims, 1⟩ none 0) = 0 := by
    have positive : (0 : ℝ) < size := by
      rw [pair, Nat.cast_pos]
      exact Nat.mul_pos (by omega) (by omega)
    simp only [objective, built, Operator.distance_exact dim targetDim]
    exact max_eq_right (sub_nonpos.mpr ((one_le_div positive).mpr overlap))
  have content : Content config best.distance := by
    have low := bestRestart_le chosen (Nat.pos_of_ne_zero starts)
    rw [perfect] at low
    rw [Content, Scalar.larger_exact]
    exact le_max_of_le_right low
  obtain ⟨synthesis, found, _⟩ := synthesizeWith_first levels (targetDim.trans pair) room valid
    tables chosen settled content
  exact ⟨synthesis, found⟩

/-- Every valid search takes twice the operator of its first restart for a target it has found. -/
theorem synthesizeWith_doubled (notMs : family ≠ .ms) :
    ∃ u, Ansatz.operator ⟨family.entangler dims, 1⟩
        (start config ⟨family.entangler dims, 1⟩ none 0) = .ok u ∧
      u.dim = dims.1 * dims.2 ∧
      (u.scale (.ofReal 2)).isUnitary (Operator.unitarityTolerance * 1e3) = false ∧
      ∃ synthesis, synthesizeWith config family (u.scale (.ofReal 2)) dims = .ok synthesis := by
  obtain ⟨u, built, dim, unitary⟩ := Family.unitary_ansatz notMs levels room
    (length_start config ⟨family.entangler dims, 1⟩ none 0)
  have some : 0 < u.dim := dim ▸ Nat.mul_pos (by omega) (by omega)
  refine ⟨u, built, dim, Operator.isUnitary_doubled unitary some ?_,
    synthesizeWith_overlapping valid tables levels room dim rfl rfl built ?_⟩
  · change (1e-9 * 1e3 : ℝ) ≤ 3
    norm_num
  · rw [Operator.toMatrix_scale rfl, Matrix.mul_smul, Matrix.trace_smul,
      Operator.trace_of_unitary unitary, Amplitude.value_ofReal, smul_eq_mul, norm_mul,
      Complex.norm_natCast]
    have longer : (1 : ℝ) ≤ ‖((2 : ℝ) : ℂ)‖ := by norm_num
    exact le_mul_of_one_le_left (Nat.cast_nonneg _) longer

end Search
end QuditSynth
