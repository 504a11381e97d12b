import QuditSynth.Proofs.Exact.Placement

namespace QuditSynth

/-! # Agreement up to a phase

Exact operators that differ by a factor of modulus one. The factor passes
through products and embeddings.
-/

namespace Operator

/-- The second operator is the first times a number of modulus one. -/
def SameUpToPhase (u v : Operator ℝ) : Prop :=
  u.dim = v.dim ∧ ∃ phase : ℂ, ‖phase‖ = 1 ∧ v.toMatrix u.dim = phase • u.toMatrix u.dim

namespace SameUpToPhase

variable {u v : Operator ℝ}

theorem refl (u : Operator ℝ) : SameUpToPhase u u :=
  ⟨rfl, 1, norm_one, (one_smul ℂ _).symm⟩

theorem mul {first second : Operator ℝ} (later : SameUpToPhase u v)
    (earlier : SameUpToPhase first second) (dims : u.dim = first.dim) :
    SameUpToPhase (u * first) (v * second) := by
  obtain ⟨laterDim, alpha, alphaUnit, laterMatrix⟩ := later
  obtain ⟨_, beta, betaUnit, earlierMatrix⟩ := earlier
  refine ⟨laterDim, alpha * beta, by rw [norm_mul, alphaUnit, betaUnit, one_mul], ?_⟩
  rw [← dims] at earlierMatrix
  rw [dim_mul, toMatrix_mul laterDim.symm, toMatrix_mul rfl, laterMatrix, earlierMatrix,
    Matrix.smul_mul, Matrix.mul_smul, smul_smul]

theorem embed {dims targets : List Nat} (same : SameUpToPhase u v)
    (addressable : Addressable dims) (positions : Positions dims targets)
    (dim : u.dim = product (Axis.targetDims dims targets)) {uFull vFull : Operator ℝ}
    (uRun : u.embed dims targets [] = .ok uFull) (vRun : v.embed dims targets [] = .ok vFull) :
    SameUpToPhase uFull vFull := by
  obtain ⟨sameDim, phase, unit, matrix⟩ := same
  obtain ⟨uDim, uMatrix⟩ := toMatrix_of_embed addressable positions controlsFit_nil dim uRun
  obtain ⟨vDim, vMatrix⟩ :=
    toMatrix_of_embed addressable positions controlsFit_nil (sameDim.symm.trans dim) vRun
  refine ⟨uDim.trans vDim.symm, phase, unit, ?_⟩
  rw [dim] at matrix
  rw [uDim, uMatrix, vMatrix, matrix, guarded_nil, guarded_nil]
  exact Placement.spread_smul _ phase

end SameUpToPhase
end Operator

/-- Two computations of an operator agree up to a phase, or fail alike. -/
def AgreeUpToPhase : Except Error (Operator ℝ) → Except Error (Operator ℝ) → Prop
  | .ok u, .ok v => u.SameUpToPhase v
  | .error first, .error second => first = second
  | _, _ => False

theorem AgreeUpToPhase.refl (outcome : Except Error (Operator ℝ)) :
    AgreeUpToPhase outcome outcome := by
  cases outcome with
  | error cause => exact (rfl : cause = cause)
  | ok u => exact Operator.SameUpToPhase.refl u

end QuditSynth
