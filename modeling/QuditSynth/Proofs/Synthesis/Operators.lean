import QuditSynth.Proofs.Generator.Families
import QuditSynth.Proofs.Synthesis.Layout
import QuditSynth.Proofs.Synthesis.RowMixing
import QuditSynth.Synthesis.Search

namespace QuditSynth

/-! # Operators and instructions of an ansatz

An ansatz with the right number of angles has an operator on its two qudits and
a list of instructions, whatever the angles are, as long as its generator does
not fail.
-/

variable {R : Type}

namespace LocalLayer

variable {layer : LocalLayer} {params : List R}

theorem split_exists (count : params.length = layer.paramCount) (positive : 0 < layer.dim) :
    ∃ phases rotations, layer.split params = .ok (phases, rotations) := by
  have square : layer.dim ≤ layer.dim * layer.dim := Nat.le_mul_self layer.dim
  have enough : layer.dim - 1 ≤ params.length := by
    rw [count, paramCount]
    omega
  obtain ⟨angles, rest, split, length, _⟩ := splitParams_exists enough
  obtain ⟨joined, _⟩ := splitParams_eq_ok_iff.mp split
  exact ⟨_, _, split_eq_ok_iff.mpr ⟨positive, angles, rest, joined, length, rfl, rfl⟩⟩

theorem gates_exists (count : params.length = layer.paramCount) (positive : 0 < layer.dim) :
    ∃ gates, layer.gates params = .ok gates := by
  obtain ⟨phases, rotations, split⟩ := split_exists count positive
  exact ⟨_, by rw [gates, split]; rfl⟩

variable [Scalar R]

theorem length_diagonal (layer : LocalLayer) (phases : List (R × Nat)) :
    (layer.diagonal phases).length = layer.dim := by
  unfold diagonal
  refine List.foldlRecOn (motive := fun entries : List (Amplitude R) =>
    entries.length = layer.dim) phases _ ?_ fun entries count phase _ => ?_
  · exact List.length_replicate
  · rw [List.length_modify, List.length_modify, count]

theorem dim_rotations (rotations : List ((Nat × Nat) × (R × R))) (u : Operator R) :
    (rotations.foldl (fun u ((a, b), (theta, phi)) => applyRotation u a b theta phi) u).dim =
      u.dim := by
  induction rotations generalizing u with
  | nil => rfl
  | cons rotation rotations ih => exact (ih _).trans (dim_applyRotation u _ _ _ _)

theorem operator_exists (count : params.length = layer.paramCount) (positive : 0 < layer.dim) :
    ∃ u, layer.operator params = .ok u ∧ u.dim = layer.dim := by
  obtain ⟨phases, rotations, split⟩ := split_exists count positive
  refine ⟨_, by rw [operator, split]; rfl, ?_⟩
  rw [dim_rotations]
  simpa [Operator.diagonal] using layer.length_diagonal phases

theorem instructions_exists (count : params.length = layer.paramCount)
    (positive : 0 < layer.dim) (qudit : Qudit) :
    ∃ emitted, layer.instructions params qudit = .ok emitted := by
  obtain ⟨gates, made⟩ := gates_exists count positive
  exact ⟨emit qudit gates, by rw [LocalLayer.instructions, made]; rfl⟩

end LocalLayer

variable [Scalar R]

namespace Ansatz

variable {ansatz : Ansatz R} {params : List R}

omit [Scalar R] in
theorem split_local_exists (count : params.length = ansatz.localParams) :
    ∃ p q, splitParams ansatz.first.paramCount params = .ok (p, q) ∧
      p.length = ansatz.first.paramCount ∧ q.length = ansatz.second.paramCount := by
  have enough : ansatz.first.paramCount ≤ params.length := by
    rw [count, localParams]
    omega
  obtain ⟨p, q, split, first, second⟩ := splitParams_exists enough
  refine ⟨p, q, split, first, ?_⟩
  rw [second, count, localParams]
  omega

/-- One more entangler and the local layer after it. -/
def extend (ansatz : Ansatz R) (total : Operator R) (block : List R × List R) :
    Except (CompileError R) (Operator R) := do
  let entangler ← ansatz.generator.operator (anglePhase block.1).1 (anglePhase block.1).2
  return (← ansatz.localOperator block.2) * (entangler * total)

def extendInstructions (ansatz : Ansatz R) (emitted : List (Instruction R))
    (block : List R × List R) : Except (CompileError R) (List (Instruction R)) := do
  let pulses ← ansatz.entanglerInstructions block.1
  return emitted ++ pulses ++ (← ansatz.localInstructions block.2)

theorem extend_eq_ok {block : List R × List R} {entangler inner : Operator R}
    (entangled : ansatz.generator.operator (anglePhase block.1).1 (anglePhase block.1).2 =
      .ok entangler) (placed : ansatz.localOperator block.2 = .ok inner) (total : Operator R) :
    ansatz.extend total block = .ok (inner * (entangler * total)) := by
  rw [extend, entangled, Outcome.ok_bind, placed]
  rfl

theorem extendInstructions_eq_ok {block : List R × List R} {pulses inner : List (Instruction R)}
    (pulsed : ansatz.entanglerInstructions block.1 = .ok pulses)
    (placed : ansatz.localInstructions block.2 = .ok inner) (emitted : List (Instruction R)) :
    ansatz.extendInstructions emitted block = .ok (emitted ++ pulses ++ inner) := by
  rw [extendInstructions, pulsed, Outcome.ok_bind, placed]
  rfl

theorem operator_of_slices {slices : Slices R} (sliced : ansatz.slices params = .ok slices) :
    ansatz.operator params =
      liftM (ansatz.localOperator slices.opening) >>= slices.blocks.foldlM ansatz.extend := by
  rw [operator, sliced]
  rfl

theorem operator_eq {slices : Slices R} {opening : Operator R}
    (sliced : ansatz.slices params = .ok slices)
    (opened : ansatz.localOperator slices.opening = .ok opening) :
    ansatz.operator params = slices.blocks.foldlM ansatz.extend opening := by
  rw [operator_of_slices sliced, opened]
  rfl

theorem instructions_eq {slices : Slices R} {opening : List (Instruction R)}
    (sliced : ansatz.slices params = .ok slices)
    (opened : ansatz.localInstructions slices.opening = .ok opening) :
    ansatz.instructions params = slices.blocks.foldlM ansatz.extendInstructions opening := by
  rw [Ansatz.instructions, sliced]
  change (liftM (ansatz.localInstructions slices.opening) >>=
    slices.blocks.foldlM ansatz.extendInstructions) = _
  rw [opened]
  rfl

section Positive

variable (levels : 0 < ansatz.generator.dims.1 ∧ 0 < ansatz.generator.dims.2)

include levels

/-- The layers of both qudits have operators, of which the local layer is the product. -/
theorem localOperator_eq (count : params.length = ansatz.localParams) :
    ∃ u v : Operator R, u.dim = ansatz.generator.dims.1 ∧ v.dim = ansatz.generator.dims.2 ∧
      ansatz.localOperator params = u.tensor v := by
  obtain ⟨p, q, split, first, second⟩ := split_local_exists count
  obtain ⟨u, uBuilt, uDim⟩ := LocalLayer.operator_exists first levels.1
  obtain ⟨v, vBuilt, vDim⟩ := LocalLayer.operator_exists second levels.2
  exact ⟨u, v, uDim, vDim, by simp [localOperator, split, uBuilt, vBuilt]⟩

theorem localOperator_exists
    (room : Operator.checkDim (ansatz.generator.dims.1 * ansatz.generator.dims.2) = .ok ())
    (count : params.length = ansatz.localParams) :
    ∃ u, ansatz.localOperator params = .ok u ∧
      u.dim = ansatz.generator.dims.1 * ansatz.generator.dims.2 := by
  obtain ⟨u, v, uDim, vDim, made⟩ := localOperator_eq levels count
  have nonempty : v.dim ≠ 0 := vDim ▸ levels.2.ne'
  rw [← uDim, ← vDim] at room ⊢
  exact ⟨u.kronecker v, made.trans (Operator.tensor_eq_ok nonempty room), rfl⟩

theorem localInstructions_exists (count : params.length = ansatz.localParams) :
    ∃ emitted, ansatz.localInstructions params = .ok emitted := by
  obtain ⟨p, q, split, first, second⟩ := split_local_exists count
  obtain ⟨front, frontMade⟩ :=
    LocalLayer.instructions_exists first levels.1 Generator.localFirst
  obtain ⟨back, backMade⟩ :=
    LocalLayer.instructions_exists second levels.2 Generator.localSecond
  exact ⟨front ++ back, by simp [localInstructions, split, frontMade, backMade]⟩

theorem operator_exists
    (room : Operator.checkDim (ansatz.generator.dims.1 * ansatz.generator.dims.2) = .ok ())
    (count : params.length = ansatz.paramCount)
    (built : ∀ angle phase, ∃ u, ansatz.generator.operator angle phase = .ok u) :
    ∃ u, ansatz.operator params = .ok u ∧
      u.dim = ansatz.generator.dims.1 * ansatz.generator.dims.2 := by
  obtain ⟨slices, sliced, fits, _⟩ := slices_exists count
  obtain ⟨opening, opened, openingDim⟩ := localOperator_exists levels room fits.opening
  rw [operator_eq sliced opened]
  refine (Outcome.foldlM_exists (fun blocks total =>
    (∀ block ∈ blocks, block.2.length = ansatz.localParams) ∧
      total.dim = ansatz.generator.dims.1 * ansatz.generator.dims.2) ?_
    ⟨fits.inner, openingDim⟩).imp fun u reached => ⟨reached.1, reached.2.2⟩
  rintro block blocks total ⟨lengths, _⟩
  obtain ⟨length, others⟩ := List.forall_mem_cons.mp lengths
  obtain ⟨entangler, entangled⟩ := built (anglePhase block.1).1 (anglePhase block.1).2
  obtain ⟨inner, placed, innerDim⟩ := localOperator_exists levels room length
  refine ⟨inner * (entangler * total), ?_, others, innerDim⟩
  exact extend_eq_ok entangled placed total

theorem instructions_exists (count : params.length = ansatz.paramCount)
    (sequenced : ∀ angle phase, ∃ pulses, ansatz.generator.sequence angle phase = .ok pulses) :
    ∃ emitted, ansatz.instructions params = .ok emitted := by
  obtain ⟨slices, sliced, fits, _⟩ := slices_exists count
  obtain ⟨opening, opened⟩ := localInstructions_exists levels fits.opening
  rw [instructions_eq sliced opened]
  refine (Outcome.foldlM_exists (fun blocks _ =>
    ∀ block ∈ blocks, block.2.length = ansatz.localParams) ?_ fits.inner).imp
    fun emitted reached => reached.1
  intro block blocks emitted lengths
  obtain ⟨length, others⟩ := List.forall_mem_cons.mp lengths
  obtain ⟨inner, placed⟩ := localInstructions_exists levels length
  have pulsed : ∃ pulses, ansatz.entanglerInstructions block.1 = .ok pulses := by
    unfold entanglerInstructions
    dsimp only
    split
    · exact sequenced _ _
    · exact ⟨[], rfl⟩
  obtain ⟨pulses, pulsed⟩ := pulsed
  exact ⟨_, extendInstructions_eq_ok pulsed placed emitted, others⟩

end Positive
end Ansatz

theorem Family.ansatzOperator_exists {family : Family} {dims : Nat × Nat} {layers : Nat}
    {params : List R} (levels : 2 ≤ dims.1 ∧ 2 ≤ dims.2)
    (room : Operator.checkDim (dims.1 * dims.2) = .ok ())
    (count : params.length = Ansatz.paramCount (R := R) ⟨family.entangler dims, layers⟩) :
    ∃ u, Ansatz.operator ⟨family.entangler dims, layers⟩ params = .ok u ∧
      u.dim = dims.1 * dims.2 := by
  have made := Ansatz.operator_exists (family.entangler_positive levels)
    (by simpa using room) count
    fun angle phase => (Family.operator_exists levels room angle phase).imp fun _ => And.left
  simpa using made

theorem Family.instructions_exists {family : Family} {dims : Nat × Nat} {layers : Nat}
    {params : List R} (levels : 2 ≤ dims.1 ∧ 2 ≤ dims.2)
    (count : params.length = Ansatz.paramCount (R := R) ⟨family.entangler dims, layers⟩) :
    ∃ emitted, Ansatz.instructions ⟨family.entangler dims, layers⟩ params = .ok emitted :=
  Ansatz.instructions_exists (family.entangler_positive levels) count fun angle phase =>
    (sequence_exists levels angle phase).imp fun _ => And.left

end QuditSynth
