import QuditSynth.Proofs.Exact.Kronecker
import QuditSynth.Proofs.Synthesis.LayerMatrix

namespace QuditSynth

/-! # Layers without angles

Zeros behind the parameters of an ansatz are the parameters of further layers,
each of them an entangler and a local layer without angles. Such a layer is the
identity and emits nothing, so neither the operator nor the instructions show
whether it is there.
-/

theorem identityAngle_pos : (0 : ℝ) < identityAngle := by
  norm_num [identityAngle]

theorem LocalLayer.instructions_zeros (layer : LocalLayer) (positive : 0 < layer.dim)
    (qudit : Qudit) :
    layer.instructions (List.replicate layer.paramCount (0 : ℝ)) qudit = .ok [] := by
  have count : (List.replicate layer.paramCount (0 : ℝ)).length = layer.paramCount :=
    List.length_replicate
  obtain ⟨gates, made⟩ := gates_exists count positive
  have still : ∀ gate ∈ gates, gate.isIdentity identityAngle = true := by
    intro gate member
    obtain ⟨theta, listed, turns⟩ := turnsBy_of_gates made gate member
    rw [List.eq_of_mem_replicate (mem_of_mem_angles listed)] at turns
    rw [turns.isIdentity_eq, Angle.nearMultiple, Angle.wrap_zero Angle.rotationPeriod_pos]
    simp [identityAngle_pos]
  have dropped : emit qudit gates = [] := by
    rw [emit, List.filter_eq_nil_iff.mpr fun gate member => by simp [still gate member]]
    rfl
  rw [LocalLayer.instructions, made, Outcome.ok_bind, dropped]
  rfl

namespace Ansatz

section Layout

variable {R : Type}

/-- Parameters of an entangler and the local layer after it. -/
def blockParams (ansatz : Ansatz R) : Nat := ansatz.entanglerParams + ansatz.localParams

/-- The ansatz with further layers. -/
def deepened (ansatz : Ansatz R) (added : Nat) : Ansatz R :=
  { ansatz with layers := ansatz.layers + added }

theorem paramCount_deepened (ansatz : Ansatz R) (added : Nat) :
    (ansatz.deepened added).paramCount = ansatz.paramCount + added * ansatz.blockParams := by
  change (ansatz.layers + added + 1) * ansatz.localParams +
    (ansatz.layers + added) * ansatz.entanglerParams =
    (ansatz.layers + 1) * ansatz.localParams + ansatz.layers * ansatz.entanglerParams +
      added * (ansatz.entanglerParams + ansatz.localParams)
  ring

variable [Scalar R]

/-- An entangler and a local layer without angles. -/
def idle (ansatz : Ansatz R) : List R × List R :=
  (List.replicate ansatz.entanglerParams 0, List.replicate ansatz.localParams 0)

theorem rightpad_eq (ansatz : Ansatz R) (added : Nat) {params : List R}
    (count : params.length = ansatz.paramCount) :
    params.rightpad (ansatz.deepened added).paramCount 0 =
      params ++ List.replicate (added * ansatz.blockParams) 0 := by
  rw [List.rightpad, paramCount_deepened, count, Nat.add_sub_cancel_left]

theorem length_rightpad (ansatz : Ansatz R) (added : Nat) {params : List R}
    (count : params.length = ansatz.paramCount) :
    (params.rightpad (ansatz.deepened added).paramCount 0).length =
      (ansatz.deepened added).paramCount := by
  rw [rightpad_eq ansatz added count, List.length_append, List.length_replicate, count,
    paramCount_deepened]

theorem rightpad_zeros (ansatz : Ansatz R) (added : Nat) :
    (List.replicate ansatz.paramCount (0 : R)).rightpad (ansatz.deepened added).paramCount 0 =
      List.replicate (ansatz.deepened added).paramCount 0 := by
  rw [rightpad_eq ansatz added List.length_replicate, List.replicate_append_replicate,
    paramCount_deepened]

theorem flatMap_idle (ansatz : Ansatz R) (added : Nat) :
    ((List.replicate added ansatz.idle).flatMap fun block => block.1 ++ block.2) =
      List.replicate (added * ansatz.blockParams) 0 := by
  have block : ansatz.idle.1 ++ ansatz.idle.2 = List.replicate ansatz.blockParams 0 :=
    List.replicate_append_replicate
  rw [List.flatMap_replicate, block, List.flatten_replicate_replicate]

/-- The zeros behind the parameters are cut into blocks of their own. -/
theorem slices_padded {ansatz : Ansatz R} {slices : Slices R} (fits : ansatz.Fits slices)
    (count : slices.params.length = ansatz.paramCount) (added : Nat) :
    (ansatz.deepened added).slices
        (slices.params.rightpad (ansatz.deepened added).paramCount 0) =
      .ok ⟨slices.opening, slices.blocks ++ List.replicate added ansatz.idle⟩ := by
  refine slices_eq_ok_iff.mpr ⟨⟨fits.opening, ?_, ?_, ?_⟩, ?_⟩
  · rw [List.length_append, fits.layers, List.length_replicate]
    rfl
  · refine List.forall_mem_append.mpr ⟨fits.angles, fun block member => ?_⟩
    rw [List.eq_of_mem_replicate member]
    exact List.length_replicate
  · refine List.forall_mem_append.mpr ⟨fits.inner, fun block member => ?_⟩
    rw [List.eq_of_mem_replicate member]
    exact List.length_replicate
  · rw [rightpad_eq ansatz added count, Slices.params, Slices.params, List.flatMap_append,
      flatMap_idle, List.append_assoc]

/-- Without entanglers there is one local layer. -/
theorem slices_bare {ansatz : Ansatz R} (bare : ansatz.layers = 0) :
    ansatz.slices (List.replicate ansatz.paramCount 0) = .ok ⟨ansatz.idle.2, []⟩ := by
  refine slices_eq_ok_iff.mpr ⟨⟨List.length_replicate, bare.symm, ?_, ?_⟩, ?_⟩
  · simp
  · simp
  · simp [Slices.params, paramCount, bare, idle]

theorem anglePhase_idle (ansatz : Ansatz R) : anglePhase ansatz.idle.1 = (0, 0) := by
  have zero : ∀ index, ansatz.idle.1.getD index 0 = 0 := by
    intro index
    rw [idle, List.getD_eq_getElem?_getD, List.getElem?_replicate]
    split <;> rfl
  rw [anglePhase, zero, zero]

theorem split_idle (ansatz : Ansatz R) : splitParams ansatz.first.paramCount ansatz.idle.2 =
    .ok (List.replicate ansatz.first.paramCount 0, List.replicate ansatz.second.paramCount 0) :=
  splitParams_eq_ok_iff.mpr ⟨List.replicate_append_replicate, List.length_replicate⟩

end Layout

variable {ansatz : Ansatz ℝ} {params : List ℝ}

theorem entanglerInstructions_idle (ansatz : Ansatz ℝ) :
    ansatz.entanglerInstructions ansatz.idle.1 = .ok [] := by
  rw [entanglerInstructions, anglePhase_idle]
  dsimp only
  rw [Angle.wrap_zero Angle.rotationPeriod_pos, if_neg fun kept => kept.1.not_gt identityAngle_pos]

variable (levels : 0 < ansatz.generator.dims.1 ∧ 0 < ansatz.generator.dims.2)

include levels

theorem localInstructions_idle : ansatz.localInstructions ansatz.idle.2 = .ok [] := by
  simp [localInstructions, split_idle, ansatz.first.instructions_zeros levels.1,
    ansatz.second.instructions_zeros levels.2]

theorem extendInstructions_idle (emitted : List (Instruction ℝ)) :
    ansatz.extendInstructions emitted ansatz.idle = .ok emitted := by
  rw [extendInstructions_eq_ok ansatz.entanglerInstructions_idle (localInstructions_idle levels),
    List.append_nil, List.append_nil]

theorem instructions_padded (count : params.length = ansatz.paramCount) (added : Nat) :
    (ansatz.deepened added).instructions (params.rightpad (ansatz.deepened added).paramCount 0) =
      ansatz.instructions params := by
  obtain ⟨slices, sliced, fits, rfl⟩ := slices_exists count
  obtain ⟨opening, opened⟩ := localInstructions_exists levels fits.opening
  rw [instructions_eq sliced opened, instructions_eq (slices_padded fits count added) opened,
    List.foldlM_append]
  change (slices.blocks.foldlM ansatz.extendInstructions opening >>=
    (List.replicate added ansatz.idle).foldlM ansatz.extendInstructions) = _
  simp only [Outcome.foldlM_replicate (extendInstructions_idle levels _)]
  exact bind_pure _

theorem localOperator_idle :
    ansatz.localOperator ansatz.idle.2 =
      Operator.identityOn (ansatz.generator.dims.1 * ansatz.generator.dims.2) := by
  have nonempty : (Operator.identity ansatz.second.dim : Operator ℝ).dim ≠ 0 := levels.2.ne'
  simp only [localOperator, split_idle, ansatz.first.operator_zeros levels.1,
    ansatz.second.operator_zeros levels.2, Outcome.ok_bind, Operator.tensor, if_neg nonempty,
    Operator.kronecker_identity]
  rfl

/-- Where no matrix on both qudits can be addressed, there is no operator. -/
theorem operator_refused
    (large : Operator.checkDim (ansatz.generator.dims.1 * ansatz.generator.dims.2) =
      .error .outOfRange) (count : params.length = ansatz.paramCount) :
    ansatz.operator params = .error (.circuit .outOfRange) := by
  obtain ⟨slices, sliced, fits, _⟩ := slices_exists count
  obtain ⟨u, v, uDim, vDim, made⟩ := localOperator_eq levels fits.opening
  have nonempty : v.dim ≠ 0 := vDim ▸ levels.2.ne'
  have refused : ansatz.localOperator slices.opening = .error .outOfRange := by
    rw [made, Operator.tensor, if_neg nonempty, uDim, vDim, large]
    rfl
  rw [operator_of_slices sliced, refused]
  rfl

variable (room : Operator.checkDim (ansatz.generator.dims.1 * ansatz.generator.dims.2) = .ok ())
  (still : ansatz.generator.operator 0 0 =
    .ok (Operator.identity (ansatz.generator.dims.1 * ansatz.generator.dims.2)))

include room still

/-- An idle layer multiplies by the identity twice. -/
theorem extend_idle {total : Operator ℝ}
    (dim : total.dim = ansatz.generator.dims.1 * ansatz.generator.dims.2) :
    ansatz.extend total ansatz.idle = .ok total := by
  have entangled : ansatz.generator.operator (anglePhase ansatz.idle.1).1
      (anglePhase ansatz.idle.1).2 =
        .ok (Operator.identity (ansatz.generator.dims.1 * ansatz.generator.dims.2)) := by
    rw [anglePhase_idle]
    exact still
  have placed : ansatz.localOperator ansatz.idle.2 =
      .ok (Operator.identity (ansatz.generator.dims.1 * ansatz.generator.dims.2)) := by
    rw [localOperator_idle levels, Operator.identityOn, room]
    rfl
  rw [extend_eq_ok entangled placed, Operator.identity_mul dim, Operator.identity_mul dim]

theorem operator_padded
    (built : ∀ angle phase, ∃ u, ansatz.generator.operator angle phase = .ok u)
    (count : params.length = ansatz.paramCount) (added : Nat) :
    (ansatz.deepened added).operator (params.rightpad (ansatz.deepened added).paramCount 0) =
      ansatz.operator params := by
  obtain ⟨slices, sliced, fits, rfl⟩ := slices_exists count
  obtain ⟨opening, opened, _⟩ := localOperator_exists levels room fits.opening
  obtain ⟨u, whole, dim⟩ := operator_exists levels room count built
  rw [operator_eq sliced opened] at whole ⊢
  rw [operator_eq (slices_padded fits count added) opened, List.foldlM_append]
  change (slices.blocks.foldlM ansatz.extend opening >>=
    (List.replicate added ansatz.idle).foldlM ansatz.extend) = _
  rw [whole, Outcome.ok_bind, Outcome.foldlM_replicate (extend_idle levels room still dim)]

end Ansatz

namespace Family

/-- The ansatz of a family for two qudits. -/
def ansatz {R : Type} [Scalar R] (family : Family) (dims : Nat × Nat) (layers : Nat) : Ansatz R :=
  ⟨family.entangler dims, layers⟩

@[simp]
theorem dims_ansatz {R : Type} [Scalar R] (family : Family) (dims : Nat × Nat) (layers : Nat) :
    (family.ansatz (R := R) dims layers).generator.dims = dims :=
  family.dims_entangler dims

theorem ansatz_deepened {R : Type} [Scalar R] (family : Family) (dims : Nat × Nat) (layers : Nat) :
    (family.ansatz (R := R) dims 0).deepened layers = family.ansatz dims layers := by
  rw [Ansatz.deepened, ansatz, ansatz, Nat.zero_add]

section Layers

variable {family : Family} {dims : Nat × Nat} {layers : Nat} {params : List ℝ}
  (levels : 2 ≤ dims.1 ∧ 2 ≤ dims.2)

include levels

theorem operator_padded (count : params.length = (family.ansatz (R := ℝ) dims layers).paramCount)
    (added : Nat) :
    ((family.ansatz dims layers).deepened added).operator
        (params.rightpad ((family.ansatz (R := ℝ) dims layers).deepened added).paramCount 0) =
      (family.ansatz dims layers).operator params := by
  have positive := family.entangler_positive (R := ℝ) levels
  rcases Operator.checkDim_cases (dims.1 * dims.2) with room | large
  · refine Ansatz.operator_padded positive (by simpa using room) ?_ ?_ count added
    · simpa [ansatz] using operator_whole levels room 0 0
    · intro angle phase
      exact (Family.operator_exists levels room angle phase).imp fun _ => And.left
  · have refused : Operator.checkDim ((family.ansatz (R := ℝ) dims layers).generator.dims.1 *
        (family.ansatz (R := ℝ) dims layers).generator.dims.2) = .error .outOfRange := by
      simpa using large
    rw [Ansatz.operator_refused positive refused count]
    exact Ansatz.operator_refused positive refused (Ansatz.length_rightpad _ added count)

theorem operator_zeros (family : Family) (layers : Nat) :
    (family.ansatz dims layers).operator
        (List.replicate (family.ansatz (R := ℝ) dims layers).paramCount 0) =
      liftM (Operator.identityOn (R := ℝ) (dims.1 * dims.2)) := by
  have positive := family.entangler_positive (R := ℝ) levels
  have bare : (family.ansatz dims 0).operator
      (List.replicate (family.ansatz (R := ℝ) dims 0).paramCount 0) =
        liftM ((family.ansatz (R := ℝ) dims 0).localOperator (family.ansatz dims 0).idle.2) := by
    rw [Ansatz.operator_of_slices (Ansatz.slices_bare rfl)]
    exact bind_pure _
  rw [← family.ansatz_deepened dims layers, ← Ansatz.rightpad_zeros,
    operator_padded levels List.length_replicate layers, bare, Ansatz.localOperator_idle positive,
    dims_ansatz]

theorem instructions_zeros (family : Family) (layers : Nat) :
    (family.ansatz dims layers).instructions
        (List.replicate (family.ansatz (R := ℝ) dims layers).paramCount (0 : ℝ)) = .ok [] := by
  have positive := family.entangler_positive (R := ℝ) levels
  have bare : (family.ansatz dims 0).instructions
      (List.replicate (family.ansatz (R := ℝ) dims 0).paramCount (0 : ℝ)) = .ok [] :=
    Ansatz.instructions_eq (Ansatz.slices_bare rfl) (Ansatz.localInstructions_idle positive)
  rw [← family.ansatz_deepened dims layers, ← Ansatz.rightpad_zeros,
    Ansatz.instructions_padded positive List.length_replicate layers, bare]

end Layers

/-- Zeros behind the parameters of a family's ansatz are layers that nobody sees. -/
theorem padding_unseen (family : Family) (dims : Nat × Nat) (levels : 2 ≤ dims.1 ∧ 2 ≤ dims.2) :
    ∃ generator : Generator ℝ, family.generator dims = .ok generator ∧ generator.dims = dims ∧
      (∀ short long params, short ≤ long →
        params.length = Ansatz.paramCount ⟨generator, short⟩ →
        let padded := params.rightpad (Ansatz.paramCount ⟨generator, long⟩) 0
        padded.length = Ansatz.paramCount ⟨generator, long⟩ ∧
        Ansatz.operator ⟨generator, long⟩ padded = Ansatz.operator ⟨generator, short⟩ params ∧
        (Operator.checkDim (dims.1 * dims.2) = .ok () →
          ∃ u, Ansatz.operator ⟨generator, short⟩ params = .ok u ∧ u.dim = dims.1 * dims.2) ∧
        ∃ emitted, Ansatz.instructions ⟨generator, long⟩ padded = .ok emitted ∧
          Ansatz.instructions ⟨generator, short⟩ params = .ok emitted) ∧
      ∀ layers,
        let zeros := List.replicate (Ansatz.paramCount ⟨generator, layers⟩) 0
        Ansatz.operator ⟨generator, layers⟩ zeros =
          liftM (Operator.identityOn (R := ℝ) (dims.1 * dims.2)) ∧
        Ansatz.instructions ⟨generator, layers⟩ zeros = .ok [] := by
  refine ⟨family.entangler dims, generator_eq_ok_iff.mpr ⟨levels, rfl⟩, family.dims_entangler dims,
    ?_, ?_⟩
  · intro short long params above count
    obtain ⟨added, rfl⟩ := Nat.exists_eq_add_of_le above
    obtain ⟨emitted, listed⟩ := instructions_exists levels count
    have positive := family.entangler_positive (R := ℝ) levels
    refine ⟨Ansatz.length_rightpad _ added count, operator_padded levels count added, ?_, emitted,
      (Ansatz.instructions_padded positive count added).trans listed, listed⟩
    intro room
    have made := Ansatz.operator_exists positive (by simpa using room) count fun angle phase =>
      (Family.operator_exists levels room angle phase).imp fun _ => And.left
    simpa using made
  · intro layers
    exact ⟨operator_zeros levels family layers, instructions_zeros levels family layers⟩

theorem padding_unseen_exchange :
    (2 ≤ (3, 4).1 ∧ 2 ≤ (3, 4).2) ∧
      ∃ (generator : Generator ℝ) (params : List ℝ) (u : Operator ℝ)
        (emitted : List (Instruction ℝ)),
        Family.pswap.generator (3, 4) = .ok generator ∧
        params.length = Ansatz.paramCount ⟨generator, 1⟩ ∧
        Ansatz.operator ⟨generator, 1⟩ params = .ok u ∧
        Ansatz.operator ⟨generator, 3⟩
          (params.rightpad (Ansatz.paramCount ⟨generator, 3⟩) 0) = .ok u ∧
        Ansatz.instructions ⟨generator, 1⟩ params = .ok emitted ∧
        Ansatz.instructions ⟨generator, 3⟩
          (params.rightpad (Ansatz.paramCount ⟨generator, 3⟩) 0) = .ok emitted := by
  obtain ⟨generator, made, _, padded, _⟩ := padding_unseen .pswap (3, 4) (by decide)
  obtain ⟨_, same, addressed, emitted, longer, listed⟩ :=
    padded 1 3 (List.replicate _ 1) (by decide) List.length_replicate
  obtain ⟨u, built, _⟩ := addressed rfl
  exact ⟨by decide, generator, _, u, emitted, made, List.length_replicate, built,
    same.trans built, listed, longer⟩

end Family
end QuditSynth
