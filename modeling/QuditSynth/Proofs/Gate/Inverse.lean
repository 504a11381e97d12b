import QuditSynth.Proofs.Exact.Exponential
import QuditSynth.Proofs.Exact.Levels
import QuditSynth.Proofs.Gate.Operator

namespace QuditSynth

/-! # Inverse gates

Over exact scalars every gate has a unitary operator, custom gates if theirs is,
and the inverse gate performs its adjoint. Pulses invert through their angles,
which are reduced afterwards without a change; all other gates become custom
gates.
-/

open scoped Matrix

namespace Operator

variable {dim a b : Nat} {block inverse : Block ℝ} (distinct : a ≠ b) (aBound : a < dim)
  (bBound : b < dim)

include distinct aBound bBound

theorem ofBlock_dagger (adjoint : inverse.matrix = block.matrixᴴ) :
    ofBlock dim a b inverse = (ofBlock dim a b block).dagger := by
  have apart : (⟨a, aBound⟩ : Fin dim) ≠ ⟨b, bBound⟩ := by simpa using distinct
  refine eq_dagger (dim_ofFn _ _) (dim_ofFn _ _) ?_
  rw [toMatrix_ofBlock rfl aBound bBound, toMatrix_ofBlock rfl aBound bBound, adjoint,
    plane_conjTranspose apart]

theorem unitary_ofBlock (unit : block.matrixᴴ * block.matrix = 1) :
    (ofBlock dim a b block).Unitary := by
  have apart : (⟨a, aBound⟩ : Fin dim) ≠ ⟨b, bBound⟩ := by simpa using distinct
  have size : (ofBlock dim a b block).dim = dim := rfl
  rw [unitary_iff size, toMatrix_ofBlock rfl aBound bBound, plane_conjTranspose apart,
    plane_mul apart, unit, plane_one apart]

end Operator

namespace Gate

theorem star_polar_mul (angle : ℝ) : star (Amplitude.polar 1 angle).value *
    (Amplitude.polar 1 angle).value = 1 := by
  rw [Amplitude.value_polar, Complex.ofReal_one, one_mul, star_exp_mul_I, exp_neg_mul_exp]

/-- A custom gate has to hold a unitary operator. -/
def Sound (gate : Gate ℝ) : Prop := ∀ name u, gate = .unitary name u → u.Unitary

variable [Exponential ℝ] {dims : List Nat} {gate : Gate ℝ} {u : Operator ℝ}

/-- A gate with a unitary operator, and the inverse gate with the adjoint operator. -/
structure Undoes (dims : List Nat) (gate inverse : Gate ℝ) (u : Operator ℝ) : Prop where
  built : gate.operator dims = .ok u
  dim : u.dim = product dims
  unitary : u.Unitary
  inverted : gate.dagger dims = .ok inverse
  suited : inverse.checkLevels dims = .ok ()
  undone : inverse.operator dims = .ok u.dagger

theorem undoes_r {dim a b : Nat} (room : Operator.checkDim dim = .ok ()) (distinct : a ≠ b)
    (aBound : a < dim) (bBound : b < dim) (theta phi : ℝ) :
    ∃ inverse u, Undoes [dim] (.r theta phi a b) inverse u := by
  have checked : ∀ theta phi : ℝ, (r theta phi a b).checkLevels [dim] = .ok () := fun _ _ =>
    checkLevels_eq_ok_iff.mpr ⟨dim, rfl, distinct, aBound, bBound⟩
  have operator : ∀ theta phi : ℝ, (r theta phi a b).operator [dim] =
      .ok (Operator.ofBlock dim a b (Operator.rotationBlock theta phi)) := by
    intro theta phi
    rw [Gate.operator, checked, Outcome.ok_bind]
    exact Operator.blockOn_eq_ok room aBound bBound _
  refine ⟨r (Angle.wrap (-theta) Angle.rotationPeriod) (Angle.wrap phi Angle.phasePeriod) a b, _,
    operator theta phi, (product_single dim).symm, ?_, rfl, checked _ _, ?_⟩
  · refine Operator.unitary_ofBlock distinct aBound bBound ?_
    rw [Operator.rotationBlock_matrix, turn_conjTranspose_mul]
  · rw [operator, Operator.rotationBlock_wrap]
    refine congrArg Except.ok (Operator.ofBlock_dagger distinct aBound bBound ?_)
    rw [Operator.rotationBlock_matrix, Operator.rotationBlock_matrix, turn_conjTranspose]

/-- Phases that are set on levels turn back level by level. -/
theorem undoes_phases {dim : Nat} {gate inverse : Gate ℝ} (room : Operator.checkDim dim = .ok ())
    {settings opposite : List (Nat × Amplitude ℝ)}
    (bounds : ∀ setting ∈ settings, setting.1 < dim)
    (unit : ∀ setting ∈ settings, star setting.2.value * setting.2.value = 1)
    (turned : opposite = Operator.opposite settings)
    (operator : gate.operator [dim] = Operator.phases dim settings)
    (inverted : gate.dagger [dim] = .ok inverse)
    (inverseChecked : inverse.checkLevels [dim] = .ok ())
    (inverseOperator : inverse.operator [dim] = Operator.phases dim opposite) :
    ∃ u, Undoes [dim] gate inverse u := by
  obtain ⟨u, made, uDim⟩ := Operator.phases_exists room bounds
  refine ⟨u, operator.trans made, uDim.trans (product_single dim).symm,
    Operator.phases_unitary made unit, inverted, inverseChecked, ?_⟩
  rw [inverseOperator, turned, Operator.phases_dagger made]

theorem undoes_rz {dim a b : Nat} (room : Operator.checkDim dim = .ok ()) (distinct : a ≠ b)
    (aBound : a < dim) (bBound : b < dim) (theta : ℝ) :
    ∃ inverse u, Undoes [dim] (.rz theta a b) inverse u := by
  have checked : ∀ theta : ℝ, (rz theta a b).checkLevels [dim] = .ok () := fun _ =>
    checkLevels_eq_ok_iff.mpr ⟨dim, rfl, distinct, aBound, bBound⟩
  have operator : ∀ theta : ℝ, (rz theta a b).operator [dim] =
      Operator.relativePhase dim a b theta := by
    intro theta
    rw [Gate.operator, checked, Outcome.ok_bind]
    rfl
  refine ⟨rz (Angle.wrap (-theta) Angle.rotationPeriod) a b, undoes_phases room ?_ ?_ ?_
    (operator theta) rfl (checked _) (operator _)⟩
  · simp [aBound, bBound]
  · simp only [List.forall_mem_cons, star_polar_mul]
    simp
  · simp only [Operator.opposite, List.map_cons, List.map_nil, Amplitude.polar, Amplitude.conj,
      Scalar.half_exact, Scalar.cos_exact, Scalar.sin_exact, neg_div, Real.cos_neg, Real.sin_neg,
      Angle.cos_half_wrap, Angle.sin_half_wrap, mul_neg, neg_neg]

theorem undoes_virtRz {dim level : Nat} (room : Operator.checkDim dim = .ok ())
    (bound : level < dim) (theta : ℝ) :
    ∃ inverse u, Undoes [dim] (.virtRz theta level) inverse u := by
  have checked : ∀ theta : ℝ, (virtRz theta level).checkLevels [dim] = .ok () := fun _ =>
    checkLevels_eq_ok_iff.mpr ⟨dim, rfl, bound⟩
  have operator : ∀ theta : ℝ, (virtRz theta level).operator [dim] =
      Operator.levelPhase dim level theta := by
    intro theta
    rw [Gate.operator, checked, Outcome.ok_bind]
    rfl
  refine ⟨virtRz (Angle.wrap (-theta) Angle.phasePeriod) level, undoes_phases room ?_ ?_ ?_
    (operator theta) rfl (checked _) (operator _)⟩
  · simp [bound]
  · simp only [List.forall_mem_cons, star_polar_mul]
    simp
  · simp only [Operator.opposite, List.map_cons, List.map_nil, Amplitude.polar, Amplitude.conj,
      Scalar.cos_exact, Scalar.sin_exact, Real.cos_neg, Real.sin_neg, Angle.cos_wrap,
      Angle.sin_wrap, mul_neg, neg_neg]

theorem undoes_cex {controlDim dim control a b : Nat} (addressable : Addressable [controlDim, dim])
    (controlBound : control < controlDim) (distinct : a ≠ b) (aBound : a < dim) (bBound : b < dim)
    (phi : ℝ) : ∃ inverse u, Undoes [controlDim, dim] (.cex control a b phi) inverse u := by
  have room : Operator.checkDim dim = .ok () := by
    refine Operator.checkDim_mono ?_ addressable.room
    rw [product_pair]
    exact Nat.le_mul_of_pos_left dim (Nat.zero_lt_of_lt controlBound)
  have positions : Positions [controlDim, dim] [1] := ⟨by simp, by simp⟩
  have controlled : Operator.ControlsFit [controlDim, dim] [1] [(0, control)] := by
    simpa [Operator.ControlsFit] using controlBound
  have checked : ∀ phi : ℝ, (cex control a b phi).checkLevels [controlDim, dim] = .ok () :=
    fun _ => checkLevels_eq_ok_iff.mpr
      ⟨controlDim, dim, rfl, controlBound, distinct, aBound, bBound⟩
  have operator : ∀ phi : ℝ, (cex control a b phi).operator [controlDim, dim] =
      (Operator.ofBlock dim a b (Operator.rotationBlock Scalar.pi phi)).embed [controlDim, dim] [1]
        [(0, control)] := by
    intro phi
    have rotation := Operator.blockOn_eq_ok room aBound bBound
      (Operator.rotationBlock Scalar.pi phi)
    rw [Gate.operator, checked, Outcome.ok_bind]
    change (Operator.blockOn dim a b _ >>= _) = _
    rw [rotation]
    rfl
  have size : (Operator.ofBlock dim a b (Operator.rotationBlock Scalar.pi phi)).dim =
      product (Axis.targetDims [controlDim, dim] [1]) := (product_single dim).symm
  obtain ⟨full, run, fullDim, _⟩ := Operator.embed_toMatrix addressable positions controlled size
  refine ⟨cex control a b (Angle.wrap (phi + Scalar.pi) Angle.phasePeriod), full,
    (operator phi).trans run, fullDim, ?_, rfl, checked _, ?_⟩
  · refine Operator.Unitary.embed addressable positions controlled size run ?_
    refine Operator.unitary_ofBlock distinct aBound bBound ?_
    rw [Operator.rotationBlock_matrix, turn_conjTranspose_mul]
  · rw [operator, Operator.rotationBlock_wrap_phase,
      ← Operator.embed_dagger addressable positions controlled size run]
    refine congrArg (Operator.embed · [controlDim, dim] [1] [(0, control)]) ?_
    refine Operator.ofBlock_dagger distinct aBound bBound ?_
    rw [Operator.rotationBlock_matrix, Operator.rotationBlock_matrix, Scalar.pi_exact,
      turn_opposite, turn_conjTranspose]

theorem ms_operator_exact (exact : Exponential.IsExact) {first second : Nat}
    (room : Operator.checkDim (first * second) = .ok ()) (firstLevels : 2 ≤ first)
    (secondLevels : 2 ≤ second) (theta : ℝ) :
    ∃ u, (ms theta).operator [first, second] = .ok u ∧ u.dim = first * second ∧
      u.toMatrix (first * second) = Operator.interaction first second theta := by
  obtain ⟨flipFirst, flipSecond, firstRun, secondRun, dim, built⟩ :=
    ms_operator_eq (R := ℝ) room firstLevels secondLevels
  obtain ⟨_, rfl, firstMatrix⟩ := Operator.toMatrix_lowestFlip firstRun
  obtain ⟨_, rfl, secondMatrix⟩ := Operator.toMatrix_lowestFlip secondRun
  have factor : (⟨0, Scalar.half (-theta)⟩ : Amplitude ℝ).value = -(theta / 2) * Complex.I := by
    apply Complex.ext <;> simp [Amplitude.value, neg_div]
  let generator := (flipFirst.kronecker flipSecond).scale ⟨0, Scalar.half (-theta)⟩
  have exponent : (Exponential.exp generator).toMatrix (flipFirst.dim * flipSecond.dim) =
      NormedSpace.exp (generator.toMatrix (flipFirst.dim * flipSecond.dim)) := exact generator
  refine ⟨_, built theta, Exponential.dim_exp generator, ?_⟩
  rw [exponent, Operator.toMatrix_scale dim, factor, Operator.kronecker_eq_submatrix, firstMatrix,
    secondMatrix, Operator.interaction_eq]
  rfl

theorem undoes_ms (exact : Exponential.IsExact) {first second : Nat}
    (room : Operator.checkDim (first * second) = .ok ()) (firstLevels : 2 ≤ first)
    (secondLevels : 2 ≤ second) (theta : ℝ) :
    ∃ inverse u, Undoes [first, second] (.ms theta) inverse u := by
  have checked : ∀ theta : ℝ, (ms theta).checkLevels [first, second] = .ok () :=
    fun _ => checkLevels_eq_ok_iff.mpr ⟨first, second, rfl⟩
  obtain ⟨u, built, uDim, toMatrix⟩ := ms_operator_exact exact room firstLevels secondLevels theta
  obtain ⟨v, undone, vDim, inverseMatrix⟩ := ms_operator_exact exact room firstLevels secondLevels
    (Angle.wrap (-theta) Angle.rotationPeriod)
  refine ⟨ms (Angle.wrap (-theta) Angle.rotationPeriod), u, built,
    uDim.trans (product_pair _ _).symm, ?_, rfl, checked _, ?_⟩
  · rw [Operator.unitary_iff uDim, toMatrix, Operator.interaction_conjTranspose_mul]
  · rw [undone, Operator.eq_dagger uDim vDim]
    rw [inverseMatrix, toMatrix, Operator.interaction_wrap,
      Operator.interaction_conjTranspose]

/-- A gate that is no pulse becomes a custom gate. -/
theorem undoes_generic (generic : gate.category = .generic) (addressable : Addressable dims)
    (nonempty : dims ≠ []) (built : gate.operator dims = .ok u) (dim : u.dim = product dims)
    (unitary : u.Unitary) : ∃ inverse u, Undoes dims gate inverse u := by
  have suited : (Gate.unitary (toggleInverse gate.name) u.dagger).checkLevels dims = .ok () :=
    checkLevels_eq_ok_iff.mpr ⟨nonempty, dim ▸ addressable.wordProduct_eq⟩
  refine ⟨.unitary (toggleInverse gate.name) u.dagger, u, built, dim, unitary, ?_, suited, ?_⟩
  · cases gate with
    | r | rz | virtRz | cex | ms => cases generic
    | h | x | csum | unitary => simp [dagger, built, canonicalize]
  · rw [Gate.operator, suited]
    rfl

/-- Every gate that suits its operands can be undone on them. -/
theorem undoes_exists (exact : Exponential.IsExact) (addressable : Addressable dims)
    (levels : ∀ dim ∈ dims, 2 ≤ dim) (checked : gate.checkLevels dims = .ok ())
    (sound : gate.Sound) : ∃ inverse u, Undoes dims gate inverse u := by
  have room := addressable.room
  have suits := checkLevels_eq_ok_iff.mp checked
  cases gate with
  | r theta phi a b =>
      obtain ⟨dim, rfl, distinct, aBound, bBound⟩ := suits
      rw [product_single] at room
      exact undoes_r room distinct aBound bBound theta phi
  | rz theta a b =>
      obtain ⟨dim, rfl, distinct, aBound, bBound⟩ := suits
      rw [product_single] at room
      exact undoes_rz room distinct aBound bBound theta
  | virtRz theta level =>
      obtain ⟨dim, rfl, bound⟩ := suits
      rw [product_single] at room
      exact undoes_virtRz room bound theta
  | cex control a b phi =>
      obtain ⟨controlDim, dim, rfl, controlBound, distinct, aBound, bBound⟩ := suits
      exact undoes_cex addressable controlBound distinct aBound bBound phi
  | ms theta =>
      obtain ⟨first, second, rfl⟩ := suits
      rw [product_pair] at room
      exact undoes_ms exact room (levels first (by simp)) (levels second (by simp)) theta
  | h =>
      obtain ⟨dim, rfl⟩ := suits
      rw [product_single] at room
      have built : (h : Gate ℝ).operator [dim] = .ok (Operator.fourier dim) := by
        simp [operator, checked, room]
      exact undoes_generic rfl addressable (by simp) built (product_single dim).symm
        ((Operator.unitary_iff rfl).mpr Operator.fourier_unitary)
  | x =>
      obtain ⟨dim, rfl⟩ := suits
      rw [product_single] at room
      have built : (x : Gate ℝ).operator [dim] = .ok (Operator.cyclicShift dim) := by
        simp [operator, checked, room]
      exact undoes_generic rfl addressable (by simp) built (product_single dim).symm
        ((Operator.unitary_iff rfl).mpr Operator.shift_unitary)
  | csum =>
      obtain ⟨first, second, rfl⟩ := suits
      rw [product_pair] at room
      have built : (csum : Gate ℝ).operator [first, second] =
          .ok (Operator.controlledSum first second) := by
        simp [operator, checked, room]
      exact undoes_generic rfl addressable (by simp) built (product_pair first second).symm
        ((Operator.unitary_iff rfl).mpr Operator.controlledSum_unitary)
  | unitary name operator =>
      have built : (unitary name operator).operator dims = .ok operator := by
        rw [Gate.operator, checked]
        rfl
      exact undoes_generic rfl addressable suits.1 built
        (Except.ok.inj (suits.2.symm.trans addressable.wordProduct_eq)) (sound name operator rfl)

end Gate
end QuditSynth
