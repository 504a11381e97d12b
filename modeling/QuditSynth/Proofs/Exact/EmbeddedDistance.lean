import QuditSynth.Proofs.Exact.Adjoint
import QuditSynth.Proofs.Exact.Distance
import QuditSynth.Proofs.Exact.Levels

namespace QuditSynth

/-! # Distances of embedded operators

Embedding two operators multiplies their overlap by as much as it multiplies the
dimension, and unitary operators around them leave the overlap as it is. So the
distance of two embedded operators is the one they had before.
-/

open scoped Matrix

namespace Placement

variable {State Part : Type} (placement : Placement State Part)

theorem exchange_involutive : Function.Involutive fun pair : State × Part =>
    (placement.write pair.1 pair.2, placement.read pair.1) := by
  intro pair
  simp only [placement.write_write, placement.write_read, placement.read_write]

variable [Fintype State] [Fintype Part]

/-- Every part is read from equally many states. -/
theorem card_mul_sum_read (f : Part → ℂ) :
    (Fintype.card Part : ℂ) * ∑ state, f (placement.read state) =
      Fintype.card State * ∑ part, f part := by
  calc (Fintype.card Part : ℂ) * ∑ state, f (placement.read state)
      = ∑ pair : State × Part, f (placement.read pair.1) := by
        rw [Fintype.sum_prod_type, Finset.mul_sum]
        simp
    _ = ∑ pair : State × Part, f (placement.read (placement.write pair.1 pair.2)) :=
        (Equiv.sum_comp placement.exchange_involutive.toPerm fun pair =>
          f (placement.read pair.1)).symm
    _ = Fintype.card State * ∑ part, f part := by
        simp [placement.read_write, Fintype.sum_prod_type]

theorem card_mul_trace_spread [DecidableEq State] (block : Matrix Part Part ℂ) :
    (Fintype.card Part : ℂ) * (placement.spread fun _ => block).trace =
      Fintype.card State * block.trace := by
  have diagonal : ∀ state, placement.spread (fun _ => block) state state =
      block (placement.read state) (placement.read state) :=
    fun state => if_pos (placement.write_read state)
  simp only [Matrix.trace, Matrix.diag_apply, diagonal]
  exact placement.card_mul_sum_read fun part => block part part

end Placement

theorem trace_between {size : Nat} {after before : Matrix (Fin size) (Fin size) ℂ}
    (afterUnitary : afterᴴ * after = 1) (beforeUnitary : beforeᴴ * before = 1)
    (u v : Matrix (Fin size) (Fin size) ℂ) :
    ((after * u * before)ᴴ * (after * v * before)).trace = (uᴴ * v).trace := by
  calc ((after * u * before)ᴴ * (after * v * before)).trace
      = (beforeᴴ * (uᴴ * (afterᴴ * after) * v) * before).trace := by
        simp only [Matrix.conjTranspose_mul, Matrix.mul_assoc]
    _ = (before * beforeᴴ * (uᴴ * v)).trace := by
        rw [afterUnitary, Matrix.mul_one, Matrix.trace_mul_cycle]
    _ = (uᴴ * v).trace := by
        rw [mul_eq_one_comm.mp beforeUnitary, Matrix.one_mul]

namespace Operator

variable {dims targets : List Nat} {u v uFull vFull : Operator ℝ}

theorem overlap_embed (addressable : Addressable dims) (positions : Positions dims targets)
    (uDim : u.dim = product (Axis.targetDims dims targets))
    (vDim : v.dim = product (Axis.targetDims dims targets))
    (uRun : u.embed dims targets [] = .ok uFull) (vRun : v.embed dims targets [] = .ok vFull) :
    (product (Axis.targetDims dims targets) : ℂ) *
        ((uFull.toMatrix (product dims))ᴴ * vFull.toMatrix (product dims)).trace =
      product dims * ((u.toMatrix (product (Axis.targetDims dims targets)))ᴴ *
        v.toMatrix (product (Axis.targetDims dims targets))).trace := by
  obtain ⟨_, uMatrix⟩ := toMatrix_of_embed addressable positions controlsFit_nil uDim uRun
  obtain ⟨_, vMatrix⟩ := toMatrix_of_embed addressable positions controlsFit_nil vDim vRun
  rw [uMatrix, vMatrix, guarded_nil, guarded_nil,
    Placement.spread_conjTranspose _ fun _ _ => rfl, Placement.spread_mul _ fun _ _ => rfl]
  simpa only [Fintype.card_fin] using
    (Axis.placement addressable positions).card_mul_trace_spread _

/-- Operators that are embedded between the same unitary ones keep their distance. -/
theorem distance_eq_of_matrices (addressable : Addressable dims) (positions : Positions dims targets)
    (uDim : u.dim = product (Axis.targetDims dims targets))
    (vDim : v.dim = product (Axis.targetDims dims targets))
    (uRun : u.embed dims targets [] = .ok uFull) (vRun : v.embed dims targets [] = .ok vFull)
    {after before first second : Operator ℝ} (afterDim : after.dim = product dims)
    (beforeDim : before.dim = product dims) (afterUnitary : after.Unitary)
    (beforeUnitary : before.Unitary) (firstDim : first.dim = product dims)
    (secondDim : second.dim = product dims)
    (firstMatrix : first.toMatrix (product dims) = after.toMatrix (product dims) *
      uFull.toMatrix (product dims) * before.toMatrix (product dims))
    (secondMatrix : second.toMatrix (product dims) = after.toMatrix (product dims) *
      vFull.toMatrix (product dims) * before.toMatrix (product dims)) :
    first.distance second = u.distance v := by
  have sizePositive : (0 : ℝ) < product dims := by
    exact_mod_cast product_pos addressable.positive
  have innerPositive : (0 : ℝ) < product (Axis.targetDims dims targets) := by
    exact_mod_cast product_pos (targetDims_positive addressable.positive targets)
  have overlaps := congrArg norm (overlap_embed addressable positions uDim vDim uRun vRun)
  rw [norm_mul, norm_mul, Complex.norm_natCast, Complex.norm_natCast] at overlaps
  -- The overlaps differ by the two dimensions that they are divided by.
  have normalised := (div_eq_div_iff sizePositive.ne' innerPositive.ne').mpr
    ((mul_comm _ _).trans (overlaps.trans (mul_comm _ _)))
  rw [distance_exact firstDim secondDim, distance_exact uDim vDim, firstMatrix, secondMatrix,
    trace_between ((unitary_iff afterDim).mp afterUnitary)
      ((unitary_iff beforeDim).mp beforeUnitary), normalised]

/-- A shift moves every level, so it is as far from the identity as can be. -/
theorem distance_shift_identity {dim : Nat} (two : 2 ≤ dim) :
    (cyclicShift dim : Operator ℝ).distance (identity dim) = .ok 1 := by
  have moved : ((cyclicShift dim : Operator ℝ).toMatrix dim).trace = 0 := by
    refine Finset.sum_eq_zero fun level _ => ?_
    rw [Matrix.diag_apply, toMatrix_cyclicShift, if_neg]
    intro fixed
    have back : level.val = (level.val + 1) % dim := congrArg Fin.val fixed
    rcases Nat.lt_or_ge (level.val + 1) dim with inside | last
    · rw [Nat.mod_eq_of_lt inside] at back
      omega
    · rw [show level.val + 1 = dim by omega, Nat.mod_self] at back
      omega
  have shiftDim : (cyclicShift dim : Operator ℝ).dim = dim := rfl
  rw [distance_exact shiftDim (dim_identity dim), toMatrix_identity, Matrix.mul_one,
    Matrix.trace_conjTranspose, moved]
  simp

end Operator
end QuditSynth
