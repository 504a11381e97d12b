import QuditSynth.Proofs.Exact.Circuit
import QuditSynth.Proofs.Gate.Inverse

namespace QuditSynth

/-! # Inverse circuits

Over exact scalars a circuit of valid gates has a unitary operator. Its inverse
circuit, the inverse gates in reverse order, is a circuit of valid gates, too,
and its operator is the adjoint.
-/

open scoped Matrix

/-- The inverse gates in reverse order. -/
def Circuit.inverse {R : Type} [Scalar R] [Exponential R] (circuit : Circuit R) :
    Except Error (Circuit R) := do
  let instructions ← circuit.instructions.reverse.mapM (·.dagger circuit.register)
  circuit.withInstructions instructions

namespace Instruction

variable {register : Register} {instruction : Instruction ℝ} {gate inverse : Gate ℝ}

/-- Whatever gate takes the place of another, it is valid if it suits the operands. -/
theorem Valid.replace (valid : instruction.Valid register)
    (acts : instruction.action = .gate gate) (suited : inverse.checkLevels
      (Axis.targetDims register.dims (instruction.qudits.map Qudit.index)) = .ok ()) :
    Valid { instruction with action := .gate inverse } register where
  within := valid.within
  distinct := valid.distinct
  levelled := valid.levelled
  suited := ⟨(valid.gate_suited acts).1, suited⟩

variable [Exponential ℝ]

/-- The inverse of a valid gate exists, is valid, and performs the adjoint, controls included. -/
theorem Valid.undoes (exact : Exponential.IsExact) (valid : instruction.Valid register)
    (addressable : Addressable register.dims) (acts : instruction.action = .gate gate)
    (sound : gate.Sound) :
    ∃ inverse full, instruction.operator register = .ok full ∧ full.dim = product register.dims ∧
      full.Unitary ∧ instruction.dagger register = .ok inverse ∧ inverse.Valid register ∧
      inverse.operator register = .ok full.dagger := by
  obtain ⟨inner, selected, dims, levels⟩ := valid.select_exists acts
  have innerAddressable : Addressable inner.dims := dims ▸ addressable.atTargets valid.positions
  obtain ⟨undo, u, undoes⟩ :=
    Gate.undoes_exists exact innerAddressable inner.two_le_of_mem levels sound
  have size := dims ▸ undoes.dim
  obtain ⟨full, embedded, fullDim, _⟩ :=
    Operator.embed_toMatrix addressable valid.positions valid.controlsFit size
  have inverseValid := valid.replace acts (dims ▸ undoes.suited)
  refine ⟨{ instruction with action := .gate undo }, full,
    (valid.operator_eq acts selected undoes.built).trans embedded, fullDim,
    undoes.unitary.embed addressable valid.positions valid.controlsFit size embedded, ?_,
    inverseValid, ?_⟩
  · simp [dagger, gateOrError, gate?, acts, selected, undoes.inverted]
  · exact (inverseValid.operator_eq rfl selected undoes.undone).trans
      (Operator.embed_dagger addressable valid.positions valid.controlsFit size embedded)

end Instruction

section Exact

variable [Exponential ℝ] {register : Register}

/-- Instructions and their inverses in reverse order perform a unitary matrix and its adjoint. -/
theorem performs_inverse (exact : Exponential.IsExact) (addressable : Addressable register.dims)
    {instructions : List (Instruction ℝ)}
    (valid : ∀ instruction ∈ instructions, instruction.Valid register)
    (gates : ∀ instruction ∈ instructions, ∃ gate, instruction.action = .gate gate ∧ gate.Sound) :
    ∃ matrix inverses, Performs register instructions matrix ∧ matrixᴴ * matrix = 1 ∧
      instructions.reverse.mapM (·.dagger register) = .ok inverses ∧
      (∀ inverse ∈ inverses, inverse.Valid register) ∧ Performs register inverses matrixᴴ := by
  induction instructions with
  | nil =>
      refine ⟨1, [], performs_nil, by simp, rfl, List.forall_mem_nil _, ?_⟩
      rw [Matrix.conjTranspose_one]
      exact performs_nil
  | cons instruction instructions ih =>
      obtain ⟨validFirst, validRest⟩ := List.forall_mem_cons.mp valid
      obtain ⟨⟨gate, acts, sound⟩, gatesRest⟩ := List.forall_mem_cons.mp gates
      obtain ⟨inverse, full, built, dim, unitary, inverted, inverseValid, undone⟩ :=
        validFirst.undoes exact addressable acts sound
      obtain ⟨matrix, inverses, performs, unit, inverseList, inversesValid, performsBack⟩ :=
        ih validRest gatesRest
      have firstUnit := (Operator.unitary_iff dim).mp unitary
      have first := performs_single built dim
      have last := performs_single undone dim
      rw [Operator.toMatrix_dagger dim] at last
      refine ⟨matrix * full.toMatrix (product register.dims), inverses ++ [inverse],
        first.append performs, ?_, ?_, ?_, ?_⟩
      · rw [Matrix.conjTranspose_mul, Matrix.mul_assoc, ← Matrix.mul_assoc matrixᴴ, unit,
          Matrix.one_mul, firstUnit]
      · simp [List.mapM_append, inverseList, inverted]
      · rw [List.forall_mem_append, List.forall_mem_singleton]
        exact ⟨inversesValid, inverseValid⟩
      · rw [Matrix.conjTranspose_mul]
        exact performsBack.append last

/-- A circuit of valid gates, the custom ones among them unitary, has a unitary operator, and its
inverse circuit exists and undoes it, if the matrices of the register can be addressed. If they
cannot, there is no operator at all. -/
theorem Circuit.operator_inverse (exact : Exponential.IsExact) (circuit : Circuit ℝ)
    (valid : ∀ instruction ∈ circuit.instructions,
      instruction.validate circuit.register = .ok ())
    (gates : circuit.hasMeasurement = false)
    (custom : ∀ instruction ∈ circuit.instructions, ∀ name u,
      instruction.action = .gate (.unitary name u) → u.Unitary) :
    let size := product circuit.register.dims
    (¬ size * size * 16 < 2 ^ 63 → circuit.operator = .error .outOfRange) ∧
    (size * size * 16 < 2 ^ 63 → ∃ u inverse v,
      circuit.operator = .ok u ∧ circuit.register.totalDimension = .ok u.dim ∧ u.Unitary ∧
      circuit.inverse = .ok inverse ∧ inverse.register = circuit.register ∧
      inverse.operator = .ok v ∧ v = u.dagger ∧
      v.compose u = .ok (.identity u.dim) ∧ u.compose v = .ok (.identity u.dim)) := by
  intro size
  refine ⟨circuit.operator_unaddressable, fun room => ?_⟩
  have addressable : Addressable circuit.register.dims :=
    Register.addressable (checkCapacity_eq_ok_iff.mpr room)
  have total := Register.totalDimension_eq addressable
  have wellFormed : circuit.WellFormed :=
    fun instruction member => Instruction.validate_eq_ok_iff.mp (valid instruction member)
  have sound : ∀ instruction ∈ circuit.instructions,
      ∃ gate, instruction.action = .gate gate ∧ gate.Sound := by
    intro instruction member
    have isGate : instruction.isMeasure = false := by
      simpa using List.any_eq_false.mp gates instruction member
    obtain ⟨gate, acts⟩ := Instruction.isMeasure_eq_false_iff.mp isGate
    exact ⟨gate, acts, fun name u same => custom instruction member name u (same ▸ acts)⟩
  obtain ⟨matrix, inverses, performs, unit, inverted, inversesValid, performsBack⟩ :=
    performs_inverse exact addressable wellFormed sound
  obtain ⟨u, built, uDim, uMatrix⟩ := performs.operator_exists addressable
  let inverse : Circuit ℝ := { circuit with instructions := inverses }
  have accepted : circuit.withInstructions inverses = .ok inverse :=
    Circuit.withInstructions_eq_ok_iff.mpr ⟨inversesValid, rfl⟩
  have unitary : u.Unitary := by rw [Operator.unitary_iff uDim, uMatrix, unit]
  have undone : inverse.operator = .ok u.dagger := by
    refine Performs.operator_eq ?_ addressable uDim
    rw [Operator.toMatrix_dagger uDim, uMatrix]
    exact performsBack
  obtain ⟨before, after⟩ := unitary.dagger_mul
  rw [← uDim] at total
  refine ⟨u, inverse, u.dagger, built, total, unitary, ?_, rfl, undone, rfl, ?_, ?_⟩
  · rw [Circuit.inverse, inverted]
    exact accepted
  · rw [Operator.compose_eq_ok (Operator.dim_dagger u), before]
  · rw [Operator.compose_eq_ok (Operator.dim_dagger u).symm, after]

end Exact

namespace Circuit

/-- A Fourier transform, an interaction and a custom gate under a control. -/
theorem operator_inverse_controlled :
    let _ : Exponential ℝ := .exact
    let register : Register := ⟨[2, 3], by decide, by decide⟩
    let shift : Operator ℝ := .cyclicShift 3
    let circuit : Circuit ℝ := ⟨"c", register, [.ofGate .h [⟨0⟩], .ofGate (.ms 1) [⟨1⟩, ⟨0⟩],
      ⟨.gate (.unitary "u" shift), [⟨1⟩], some ⟨[⟨0⟩], [1]⟩⟩]⟩
    Exponential.IsExact ∧ shift.Unitary ∧ ∃ u inverse, circuit.operator = .ok u ∧ u.Unitary ∧
      circuit.inverse = .ok inverse ∧ inverse.operator = .ok u.dagger ∧
      u.dagger.compose u = .ok (.identity 6) := by
  intro exponential register shift circuit
  have exact : Exponential.IsExact := Exponential.isExact_exact
  have unitary : shift.Unitary := (Operator.unitary_iff rfl).mpr Operator.shift_unitary
  have valid : ∀ instruction ∈ circuit.instructions,
      instruction.validate circuit.register = .ok () := by
    simp only [circuit, List.forall_mem_cons]
    exact ⟨rfl, rfl, rfl, List.forall_mem_nil _⟩
  have custom : ∀ instruction ∈ circuit.instructions, ∀ name u,
      instruction.action = .gate (.unitary name u) → u.Unitary := by
    simp only [circuit, List.forall_mem_cons]
    refine ⟨fun _ _ acts => ?_, fun _ _ acts => ?_, fun _ _ acts => ?_, List.forall_mem_nil _⟩
    · cases acts
    · cases acts
    · cases acts
      exact unitary
  obtain ⟨_, inverted⟩ := operator_inverse exact circuit valid rfl custom
  obtain ⟨u, inverse, v, built, dim, isUnitary, made, _, undone, rfl, before, _⟩ :=
    inverted (by decide)
  have six : 6 = u.dim := Except.ok.inj dim
  rw [← six] at before
  exact ⟨exact, unitary, u, inverse, built, isUnitary, made, undone, before⟩

/-- A register whose matrices cannot be addressed: even the empty circuit has no operator. -/
theorem empty_unaddressable :
    let _ : Exponential ℝ := .exact
    let register : Register := ⟨[2, 2147483648], by decide, by decide⟩
    let circuit : Circuit ℝ := .empty "c" register
    product register.dims < wordLimit ∧ circuit.instructions = [] ∧
      circuit.operator = .error .outOfRange := by
  intro exponential register circuit
  exact ⟨by decide, rfl, circuit.operator_unaddressable (by decide)⟩

end Circuit
end QuditSynth
