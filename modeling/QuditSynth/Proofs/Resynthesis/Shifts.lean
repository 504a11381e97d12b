import QuditSynth.Proofs.Exact.Levels
import QuditSynth.Proofs.Resynthesis.Factors
import QuditSynth.Proofs.Resynthesis.Native
import QuditSynth.Proofs.Synthesis.Decomposition

namespace QuditSynth

/-! # Windows of cyclic shifts

The cyclic shift of the levels of a qudit is no pulse. Its powers are unitary,
so a window of shifts can always be replaced by pulses.
-/

open scoped Matrix

namespace Operator

variable {dim : Nat}

theorem toMatrix_cyclicShift_pow (count : Nat) (row col : Fin dim) :
    ((cyclicShift dim : Operator ℝ).toMatrix dim ^ count) row col =
      if row = levelAfter^[count] col then 1 else 0 := by
  induction count generalizing col with
  | zero => rw [pow_zero, Matrix.one_apply, Function.iterate_zero_apply]
  | succ count ih =>
      rw [pow_succ, Matrix.mul_apply, Function.iterate_succ_apply, ← ih]
      simp [toMatrix_cyclicShift]

theorem iterate_levelAfter (count : Nat) (level : Fin dim) :
    (levelAfter^[count] level).val = (level + count) % dim := by
  induction count with
  | zero => exact (Nat.mod_eq_of_lt level.isLt).symm
  | succ count ih =>
      rw [Function.iterate_succ_apply']
      change ((levelAfter^[count] level).val + 1) % dim = _
      rw [ih, Nat.mod_add_mod, Nat.add_assoc]

/-- As many shifts as there are levels bring every level back. -/
theorem shift_pow_dim : (cyclicShift dim : Operator ℝ).toMatrix dim ^ dim = 1 := by
  ext row col
  have back : levelAfter^[dim] col = col := by
    apply Fin.ext
    rw [iterate_levelAfter, Nat.add_mod_right, Nat.mod_eq_of_lt col.isLt]
  rw [toMatrix_cyclicShift_pow, back, Matrix.one_apply]

end Operator

variable {register : Register} {qudit : Qudit}

theorem shift_valid (within : qudit.index < register.size) :
    (Instruction.ofGate .x [qudit] : Instruction ℝ).Valid register where
  within := by simpa [Instruction.ofGate, Instruction.allQudits, Instruction.controlQudits]
  distinct := by simp [Instruction.ofGate, Instruction.allQudits, Instruction.controlQudits]
  levelled := by simp [Instruction.ofGate]
  suited := ⟨by simp [Instruction.ofGate], Gate.checkLevels_eq_ok_iff.mpr ⟨_, rfl⟩⟩

variable [Exponential ℝ]

theorem shift_operator_eq (within : qudit.index < register.size)
    (room : Operator.checkDim (register.dims.getD qudit.index 1) = .ok ()) :
    (Instruction.ofGate .x [qudit] : Instruction ℝ).operator register =
      (Operator.cyclicShift (register.dims.getD qudit.index 1)).embed register.dims
        [qudit.index] [] := by
  have valid := shift_valid within
  obtain ⟨inner, selected, innerDims, levels⟩ := valid.select_exists rfl
  have sameDims : inner.dims = [register.dims.getD qudit.index 1] := innerDims
  generalize register.dims.getD qudit.index 1 = dim at room sameDims ⊢
  have built : Gate.operator (R := ℝ) .x inner.dims = .ok (Operator.cyclicShift dim) := by
    rw [Gate.operator, levels, sameDims, Outcome.ok_bind]
    simp [room]
  exact valid.operator_eq rfl selected built

theorem shift_operator {dim : Nat} (dims : register.dims = [dim])
    (addressable : Addressable register.dims) :
    (Instruction.ofGate .x [⟨0⟩] : Instruction ℝ).operator register =
      .ok (Operator.cyclicShift dim) := by
  have room := addressable.room
  rw [dims, product_single] at room
  rw [shift_operator_eq (by simp [Register.size, dims]) (by simpa [dims] using room)]
  rw [dims] at addressable ⊢
  exact Operator.embed_whole Operator.honestZero_exact addressable rfl

/-- A shift of one qudit is unitary on the whole register. -/
theorem shift_operator_unitary (addressable : Addressable register.dims)
    (within : qudit.index < register.size) :
    ∃ full, (Instruction.ofGate .x [qudit] : Instruction ℝ).operator register = .ok full ∧
      full.dim = product register.dims ∧ full.Unitary := by
  have positions : Positions register.dims [qudit.index] :=
    ⟨List.forall_mem_singleton.mpr within, List.nodup_singleton _⟩
  have dim : (Operator.cyclicShift (register.dims.getD qudit.index 1) : Operator ℝ).dim =
      product (Axis.targetDims register.dims [qudit.index]) := (product_single _).symm
  have room : Operator.checkDim (register.dims.getD qudit.index 1) = .ok () := by
    have inner := (addressable.atTargets positions).room
    rwa [← dim] at inner
  obtain ⟨full, run, fullDim, _⟩ :=
    Operator.embed_exists addressable positions Operator.controlsFit_nil dim
  refine ⟨full, (shift_operator_eq within room).trans run, fullDim, ?_⟩
  exact Operator.Unitary.embed addressable positions Operator.controlsFit_nil dim run
    ((Operator.unitary_iff rfl).mpr Operator.shift_unitary)

/-- Shifts in a row perform a power of the shift. -/
theorem performs_shifts {dim : Nat} (dims : register.dims = [dim])
    (addressable : Addressable register.dims) (count : Nat) :
    Performs register (List.replicate count (.ofGate .x [⟨0⟩]))
      ((Operator.cyclicShift dim).toMatrix (product register.dims) ^ count) := by
  have sameDim : (Operator.cyclicShift dim : Operator ℝ).dim = product register.dims := by
    rw [dims]
    exact (product_single dim).symm
  induction count with
  | zero =>
      rw [pow_zero]
      exact performs_nil
  | succ count ih =>
      rw [pow_succ]
      exact (performs_single (shift_operator dims addressable) sameDim).append ih

namespace Window

/-- A window of shifts of one qudit. -/
def shifts (qudit : Qudit) (count : Nat) (foreign : Bool) : Window ℝ :=
  ⟨[qudit], List.replicate count (.ofGate .x [qudit]), foreign⟩

theorem shifts_operator (within : qudit.index < register.size)
    (room : Operator.checkDim (register.dims.getD qudit.index 1) = .ok ()) (count : Nat)
    (foreign : Bool) :
    ∃ u, (shifts qudit count foreign).operator register = .ok u ∧
      u.dim = register.dims.getD qudit.index 1 ∧
      u.toMatrix (register.dims.getD qudit.index 1) =
        (Operator.cyclicShift (register.dims.getD qudit.index 1)).toMatrix
          (register.dims.getD qudit.index 1) ^ count := by
  generalize dimension : register.dims.getD qudit.index 1 = dim at room ⊢
  have selectable : ∀ operand ∈ [qudit], operand.index < register.size := by simpa using within
  obtain ⟨inner, selected, targetDims⟩ := Register.select_exists selectable (by simp)
  have innerDims : inner.dims = [dim] := targetDims.trans (congrArg ([·]) dimension)
  have first : positionIn [qudit] qudit = ⟨0⟩ := by simp [positionIn]
  have moved : (shifts qudit count foreign).instructions.map (·.remap (positionIn [qudit])) =
      List.replicate count (.ofGate .x [⟨0⟩]) := by
    rw [shifts, List.map_replicate, ← first]
    rfl
  have accepted : (Circuit.empty "window" inner).withInstructions
      (List.replicate count (.ofGate .x [⟨0⟩] : Instruction ℝ)) =
        .ok ⟨"window", inner, List.replicate count (.ofGate .x [⟨0⟩])⟩ := by
    refine Circuit.withInstructions_eq_ok_iff.mpr ⟨fun instruction member => ?_, rfl⟩
    rw [List.eq_of_mem_replicate member]
    exact shift_valid (by simp [Circuit.empty, Register.size, innerDims])
  have size : product inner.dims = dim := by rw [innerDims, product_single]
  have addressable : Addressable inner.dims := Register.addressable (by rwa [size])
  let circuit : Circuit ℝ := ⟨"window", inner, List.replicate count (.ofGate .x [⟨0⟩])⟩
  have performs : Performs circuit.register circuit.instructions _ :=
    performs_shifts innerDims addressable count
  obtain ⟨u, run, uDim, toMatrix⟩ := performs.operator_exists addressable
  rw [size] at uDim toMatrix
  refine ⟨u, ?_, uDim, toMatrix⟩
  rw [operator_eq_localized, show (shifts qudit count foreign).qudits = [qudit] from rfl, selected,
    Outcome.ok_bind, moved, accepted, Outcome.ok_bind, run]

end Window

namespace Resynthesis

/-- Shifts of a qudit can always be realized. -/
theorem realize_shifts_exists (target : Target ℝ) (within : qudit.index < register.size)
    (room : Operator.checkDim (register.dims.getD qudit.index 1) = .ok ()) (count : Nat)
    (foreign : Bool) :
    ∃ sequence, realize (Search.synthesizeWith target.config) target register
        (.shifts qudit count foreign) = .ok sequence ∧
      ∀ instruction ∈ sequence, instruction.Valid register := by
  obtain ⟨u, built, dim, toMatrix⟩ := Window.shifts_operator within room count foreign
  have power : ((Operator.cyclicShift u.dim : Operator ℝ).toMatrix u.dim) ∈
      Matrix.unitaryGroup (Fin u.dim) ℂ := Matrix.mem_unitaryGroup_iff'.mpr Operator.shift_unitary
  rw [← dim] at toMatrix
  have unitary : (u.toMatrix u.dim)ᴴ * u.toMatrix u.dim = 1 := by
    rw [toMatrix]
    exact Matrix.mem_unitaryGroup_iff'.mp (pow_mem power count)
  unfold realize
  split
  case h_1 =>
      refine ⟨_, rfl, fun instruction member => ?_⟩
      rw [List.eq_of_mem_replicate member]
      exact shift_valid within
  case h_2 =>
      obtain ⟨sequence, decomposed, valid⟩ := decomposeSingleQudit_exists
        (Operator.isUnitary_of_unitary unitary Operator.tolerance_positive) within dim
      refine ⟨sequence, ?_, valid⟩
      rw [built]
      exact decomposed

end Resynthesis
end QuditSynth
