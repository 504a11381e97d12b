import QuditSynth.Generator
import QuditSynth.Proofs.Exact.Circuit
import QuditSynth.Proofs.Exact.Rotation
import QuditSynth.Proofs.Operator.Nesting

namespace QuditSynth

/-! # Pulses on two levels of a qudit

Rotations and exchanges act on two levels of one qudit, always or while another
qudit sits on a level. On a register of any size they perform one kind of
matrix, and four of them in a row perform a controlled rotation.
-/

/-- Two different levels of a qudit of a register. -/
structure LevelPair (register : Register) (target : Qudit) (a b : Nat) : Prop where
  within : target.index < register.size
  distinct : a ≠ b
  aBound : a < register.dims.getD target.index 1
  bBound : b < register.dims.getD target.index 1

/-- A level of a qudit that guards what is done to another. -/
structure Guard (register : Register) (control target : Qudit) (level : Nat) : Prop where
  within : control.index < register.size
  apart : control ≠ target
  levelBound : level < register.dims.getD control.index 1

theorem Guard.controlsFit {register : Register} {control target : Qudit} {level : Nat}
    (guard : Guard register control target level) :
    Operator.ControlsFit register.dims [target.index] [(control.index, level)] := by
  intro position member
  rw [List.mem_singleton.mp member]
  exact ⟨guard.within, fun same => guard.apart (Qudit.index_injective (List.mem_singleton.mp same)),
    guard.levelBound⟩

namespace LevelPair

variable {register : Register} {target : Qudit} {a b : Nat} {controls : List (Nat × Nat)}
  (pair : LevelPair register target a b)

include pair in
theorem positions : Positions register.dims [target.index] :=
  ⟨by simpa [Register.size] using pair.within, by simp⟩

/-- The first level, as a state of the target. -/
def first : Fin (product (Axis.targetDims register.dims [target.index])) :=
  ⟨a, Nat.lt_of_lt_of_eq pair.aBound (product_single _).symm⟩

/-- The second level, as a state of the target. -/
def second : Fin (product (Axis.targetDims register.dims [target.index])) :=
  ⟨b, Nat.lt_of_lt_of_eq pair.bBound (product_single _).symm⟩

theorem first_ne_second : pair.first ≠ pair.second :=
  fun equal => pair.distinct (congrArg Fin.val equal)

/-- The matrix that acts on the two levels while the controls hold. -/
noncomputable def matrix (addressable : Addressable register.dims) (controls : List (Nat × Nat))
    (block : Matrix (Fin 2) (Fin 2) ℂ) :
    Matrix (Fin (product register.dims)) (Fin (product register.dims)) ℂ :=
  (Axis.placement addressable pair.positions).spread
    (Operator.guarded register.dims controls (plane pair.first pair.second block))

theorem blind (addressable : Addressable register.dims)
    (controlled : Operator.ControlsFit register.dims [target.index] controls)
    (block : Matrix (Fin 2) (Fin 2) ℂ) :
    (Axis.placement addressable pair.positions).Blind
      (Operator.guarded register.dims controls (plane pair.first pair.second block)) :=
  Operator.blind_guarded addressable pair.positions controlled _

/-- A block on the two levels, embedded into the register. -/
theorem embed_ofBlock (addressable : Addressable register.dims)
    (controlled : Operator.ControlsFit register.dims [target.index] controls)
    (block : Operator.Block ℝ) :
    ∃ full, (Operator.ofBlock (register.dims.getD target.index 1) a b block).embed register.dims
        [target.index] controls = .ok full ∧
      full.dim = product register.dims ∧
      full.toMatrix (product register.dims) = pair.matrix addressable controls block.matrix := by
  have size : product (Axis.targetDims register.dims [target.index]) =
      register.dims.getD target.index 1 := product_single _
  rw [← size]
  obtain ⟨full, run, dim, toMatrix⟩ :=
    Operator.embed_toMatrix addressable pair.positions controlled
      (u := Operator.ofBlock (product (Axis.targetDims register.dims [target.index])) a b block) rfl
  refine ⟨full, run, dim, toMatrix.trans ?_⟩
  have aBound : a < product (Axis.targetDims register.dims [target.index]) := pair.first.isLt
  have bBound : b < product (Axis.targetDims register.dims [target.index]) := pair.second.isLt
  rw [Operator.toMatrix_ofBlock rfl aBound bBound]
  rfl

include pair in
theorem rotation_suited {R : Type} (theta phi : R) :
    Gate.checkLevels (.r theta phi a b) (Axis.targetDims register.dims [target.index]) = .ok () :=
  Gate.checkLevels_eq_ok_iff.mpr ⟨_, rfl, pair.distinct, pair.aBound, pair.bBound⟩

include pair in
theorem rotation_valid {R : Type} (theta phi : R) :
    Instruction.Valid ⟨.gate (.r theta phi a b), [target], none⟩ register where
  within := by simpa [Instruction.allQudits, Instruction.controlQudits] using pair.within
  distinct := by simp [Instruction.allQudits, Instruction.controlQudits]
  levelled := by simp
  suited := ⟨by simp, pair.rotation_suited theta phi⟩

theorem matrix_of_embed (addressable : Addressable register.dims)
    (controlled : Operator.ControlsFit register.dims [target.index] controls)
    {block : Operator.Block ℝ} {full : Operator ℝ}
    (run : (Operator.ofBlock (register.dims.getD target.index 1) a b block).embed register.dims
      [target.index] controls = .ok full) :
    pair.matrix addressable controls block.matrix = full.toMatrix (product register.dims) := by
  obtain ⟨same, built, _, toMatrix⟩ := pair.embed_ofBlock addressable controlled block
  rw [run] at built
  cases built
  exact toMatrix.symm

variable {control : Qudit} {level : Nat} (guard : Guard register control target level)

include pair guard in
theorem controlled_rotation_valid {R : Type} (theta phi : R) :
    Instruction.Valid ⟨.gate (.r theta phi a b), [target], some ⟨[control], [level]⟩⟩ register where
  within := by
    simp [Instruction.allQudits, Instruction.controlQudits, pair.within, guard.within]
  distinct := by
    simpa [Instruction.allQudits, Instruction.controlQudits] using guard.apart.symm
  levelled := by
    intro controls present
    cases present
    simpa using guard.levelBound
  suited := ⟨by simp, pair.rotation_suited theta phi⟩

include pair guard in
theorem exchange_valid {R : Type} (phi : R) :
    Instruction.Valid ⟨.gate (.cex level a b phi), [control, target], none⟩ register where
  within := by
    simp [Instruction.allQudits, Instruction.controlQudits, pair.within, guard.within]
  distinct := by
    simpa [Instruction.allQudits, Instruction.controlQudits] using guard.apart
  levelled := by simp
  suited := ⟨by simp, Gate.checkLevels_eq_ok_iff.mpr
    ⟨_, _, rfl, guard.levelBound, pair.distinct, pair.aBound, pair.bBound⟩⟩

include pair in
theorem rotate_valid {R : Type} [Scalar R] (theta phi : R) :
    (Generator.rotate theta phi a b target).Valid register :=
  pair.rotation_valid _ _

include pair guard in
theorem controlledRotation_valid {R : Type} [Scalar R] (theta phi : R) :
    ∀ pulse ∈ Generator.controlledRotation control target level a b theta phi,
      pulse.Valid register := by
  intro pulse member
  simp only [Generator.controlledRotation, List.mem_cons, List.not_mem_nil, or_false] at member
  rcases member with rfl | rfl | rfl | rfl
  · exact pair.rotate_valid _ _
  · exact pair.exchange_valid guard _
  · exact pair.rotate_valid _ _
  · exact pair.exchange_valid guard _

include pair in
theorem room (addressable : Addressable register.dims) :
    Operator.checkDim (register.dims.getD target.index 1) = .ok () := by
  have room := (addressable.atTargets pair.positions).room
  rwa [show product (Axis.targetDims register.dims [target.index]) =
    register.dims.getD target.index 1 from product_single _] at room

include guard in
/-- The rotation adds up where the control holds, and its two halves cancel elsewhere. -/
theorem matrix_controlledRotation (addressable : Addressable register.dims) (theta phi : ℝ) :
    pair.matrix addressable [(control.index, level)]
        (turn Real.pi (phi - Generator.quarterTurn)) *
        pair.matrix addressable [] (turn (Scalar.half (-theta)) phi) *
      (pair.matrix addressable [(control.index, level)]
        (turn Real.pi (phi + Generator.quarterTurn)) *
        pair.matrix addressable [] (turn (Scalar.half theta) phi)) =
      pair.matrix addressable [(control.index, level)] (turn theta phi) := by
  have apart := pair.first_ne_second
  have free : Operator.ControlsFit register.dims [target.index] [] := Operator.controlsFit_nil
  simp only [Generator.quarterTurn, Scalar.half_exact, Scalar.pi_exact, matrix, Matrix.mul_assoc]
  rw [Placement.spread_mul _ (pair.blind addressable guard.controlsFit _),
    Placement.spread_mul _ (pair.blind addressable free _),
    Placement.spread_mul _ (pair.blind addressable guard.controlsFit _)]
  congr 1
  funext state
  by_cases holds : Operator.Admits register.dims [(control.index, level)] state
  · have turns : turn Real.pi (phi - Real.pi / 2) * (turn (-theta / 2) phi *
        (turn Real.pi (phi + Real.pi / 2) * turn (theta / 2) phi)) = turn theta phi := by
      rw [← Matrix.mul_assoc, ← Matrix.mul_assoc, turn_conj, turn_add]
      congr 1
      ring
    simp only [Operator.guarded, if_pos holds, if_pos (Operator.admits_nil _), plane_mul apart,
      turns]
  · have turns : turn (-theta / 2) phi * turn (theta / 2) phi = 1 := by
      rw [turn_add, show -theta / 2 + theta / 2 = 0 by ring, turn_zero]
    simp only [Operator.guarded, if_neg holds, if_pos (Operator.admits_nil _), Matrix.one_mul,
      plane_mul apart, turns, plane_one apart]

/-- Turning before and back after has no effect where the control does not hold. -/
theorem matrix_conjugate (addressable : Addressable register.dims)
    (controlled : Operator.ControlsFit register.dims [target.index] controls)
    {forth block back : Matrix (Fin 2) (Fin 2) ℂ} (inverse : back * forth = 1) :
    pair.matrix addressable [] back *
        (pair.matrix addressable controls block * pair.matrix addressable [] forth) =
      pair.matrix addressable controls (back * (block * forth)) := by
  have apart := pair.first_ne_second
  have free : Operator.ControlsFit register.dims [target.index] [] := Operator.controlsFit_nil
  simp only [matrix]
  rw [Placement.spread_mul _ (pair.blind addressable controlled _),
    Placement.spread_mul _ (pair.blind addressable free _)]
  congr 1
  funext state
  by_cases holds : Operator.Admits register.dims controls state
  · simp only [Operator.guarded, if_pos holds, if_pos (Operator.admits_nil _), plane_mul apart]
  · simp only [Operator.guarded, if_neg holds, if_pos (Operator.admits_nil _), Matrix.one_mul,
      plane_mul apart, inverse, plane_one apart]

variable [Exponential ℝ]

include pair in
/-- A rotation with any controls is its block, embedded into the register. -/
theorem rotation_operator {theta phi : ℝ} {controls : Option Controls}
    (valid : Instruction.Valid ⟨.gate (.r theta phi a b), [target], controls⟩ register)
    (addressable : Addressable register.dims) :
    Instruction.operator ⟨.gate (.r theta phi a b), [target], controls⟩ register =
      (Operator.ofBlock (register.dims.getD target.index 1) a b
        (Operator.rotationBlock theta phi)).embed register.dims [target.index]
        (Instruction.controlPairs (R := ℝ) ⟨.gate (.r theta phi a b), [target], controls⟩) := by
  obtain ⟨inner, selected, dims, levels⟩ := valid.select_exists rfl
  have innerDims : inner.dims = [register.dims.getD target.index 1] := dims
  have block : Gate.operator (.r theta phi a b) inner.dims =
      .ok (Operator.ofBlock (register.dims.getD target.index 1) a b
        (Operator.rotationBlock theta phi)) := by
    rw [Gate.operator, levels, innerDims, Outcome.ok_bind]
    exact Operator.blockOn_eq_ok (pair.room addressable) pair.aBound pair.bBound _
  exact valid.operator_eq rfl selected block

include pair guard in
/-- An exchange is a half turn of the target under its control: the embedding into its two operands
and the one into the register are one embedding. -/
theorem exchange_operator (phi : ℝ) (addressable : Addressable register.dims) :
    Instruction.operator ⟨.gate (.cex level a b phi), [control, target], none⟩ register =
      (Operator.ofBlock (register.dims.getD target.index 1) a b
        (Operator.rotationBlock Real.pi phi)).embed register.dims [target.index]
        [(control.index, level)] := by
  have valid := pair.exchange_valid guard phi
  obtain ⟨inner, selected, dims, levels⟩ := valid.select_exists rfl
  have innerDims : inner.dims = Axis.targetDims register.dims [control.index, target.index] := dims
  have second : Positions (Axis.targetDims register.dims [control.index, target.index]) [1] :=
    ⟨by simp, by simp⟩
  have controlled : Operator.ControlsFit
      (Axis.targetDims register.dims [control.index, target.index]) [1] [(0, level)] := by
    simpa [Operator.ControlsFit, Axis.targetDims] using guard.levelBound
  obtain ⟨small, runSmall, _, nested⟩ := Operator.embed_embed Operator.honestZero_exact addressable
    valid.positions second controlled
    (u := Operator.ofBlock (register.dims.getD target.index 1) a b
      (Operator.rotationBlock Real.pi phi)) (product_single _).symm
  have block : Gate.operator (.cex level a b phi) inner.dims = .ok small := by
    rw [Gate.operator, levels, innerDims, Outcome.ok_bind]
    refine Outcome.bind_eq_ok_iff.mpr ⟨_, ?_, runSmall⟩
    exact Operator.blockOn_eq_ok (pair.room addressable) pair.aBound pair.bBound _
  exact (valid.operator_eq rfl selected block).trans nested

/-- A pulse whose operator is a block on the two levels performs the block's matrix. -/
theorem performs_ofBlock (addressable : Addressable register.dims)
    (controlled : Operator.ControlsFit register.dims [target.index] controls)
    {instruction : Instruction ℝ} {block : Operator.Block ℝ}
    (built : instruction.operator register =
      (Operator.ofBlock (register.dims.getD target.index 1) a b block).embed register.dims
        [target.index] controls) :
    Performs register [instruction] (pair.matrix addressable controls block.matrix) := by
  obtain ⟨full, run, dim, toMatrix⟩ := pair.embed_ofBlock addressable controlled block
  rw [← toMatrix]
  exact performs_single (built.trans run) dim

theorem performs_of_operator (addressable : Addressable register.dims)
    (controlled : Operator.ControlsFit register.dims [target.index] controls)
    {instruction : Instruction ℝ} {theta phi : ℝ}
    (built : instruction.operator register =
      (Operator.ofBlock (register.dims.getD target.index 1) a b
        (Operator.rotationBlock theta phi)).embed register.dims [target.index] controls) :
    Performs register [instruction] (pair.matrix addressable controls (turn theta phi)) := by
  rw [← Operator.rotationBlock_matrix]
  exact pair.performs_ofBlock addressable controlled built

theorem performs_rotate (addressable : Addressable register.dims) (theta phi : ℝ) :
    Performs register [Generator.rotate theta phi a b target]
      (pair.matrix addressable [] (turn theta phi)) := by
  apply pair.performs_of_operator addressable Operator.controlsFit_nil
  rw [← Operator.rotationBlock_wrap]
  exact pair.rotation_operator (pair.rotation_valid _ _) addressable

include guard in
theorem performs_exchange (addressable : Addressable register.dims) (phi : ℝ) :
    Performs register [Generator.exchange level a b phi control target]
      (pair.matrix addressable [(control.index, level)] (turn Real.pi phi)) := by
  apply pair.performs_of_operator addressable guard.controlsFit
  rw [← Operator.rotationBlock_wrap_phase]
  exact pair.exchange_operator guard _ addressable

include guard in
theorem performs_controlledRotation (addressable : Addressable register.dims) (theta phi : ℝ) :
    Performs register (Generator.controlledRotation control target level a b theta phi)
      (pair.matrix addressable [(control.index, level)] (turn theta phi)) := by
  rw [← pair.matrix_controlledRotation guard addressable]
  exact ((pair.performs_rotate addressable (Scalar.half theta) phi).append
    (pair.performs_exchange guard addressable (phi + Generator.quarterTurn))).append
    ((pair.performs_rotate addressable (Scalar.half (-theta)) phi).append
    (pair.performs_exchange guard addressable (phi - Generator.quarterTurn)))

end LevelPair
end QuditSynth
