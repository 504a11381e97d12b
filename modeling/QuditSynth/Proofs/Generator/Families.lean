import QuditSynth.Proofs.Generator.Exactness

namespace QuditSynth

/-! # The generators of the families

Every family has a generator for every two qudits, and its sequences are valid
wherever qudits of these dimensions are the first two of a register.
-/

variable {R : Type}

theorem Ms.ofDims_eq_ok_iff {ms : Ms} {dims : Nat × Nat} :
    ofDims (R := R) dims = .ok ms ↔ (2 ≤ dims.1 ∧ 2 ≤ dims.2) ∧ ms = ⟨dims⟩ := by
  unfold ofDims
  split
  · simp; omega
  · simp only [Except.ok.injEq]
    constructor
    · intro made
      exact ⟨by omega, made.symm⟩
    · rintro ⟨_, made⟩
      exact made.symm

theorem Ms.ofDims_refused {dims : Nat × Nat} (short : ¬ (2 ≤ dims.1 ∧ 2 ≤ dims.2)) :
    ∃ levels, ofDims (R := R) dims = .error (.unsupportedLevels "ms" levels dims) := by
  have below : dims.1 < 2 ∨ dims.2 < 2 := by omega
  exact ⟨_, if_pos below⟩

theorem Crot.check_lowest {dims : Nat × Nat} (levels : 2 ≤ dims.1 ∧ 2 ≤ dims.2) :
    check (R := R) ⟨dims⟩ 1 0 1 = .ok () :=
  check_eq_ok_iff.mpr ⟨levels.1, Nat.zero_ne_one, Nat.lt_of_lt_of_le Nat.zero_lt_two levels.2,
    levels.2⟩

theorem Pswap.check_lowest {dims : Nat × Nat} (levels : 2 ≤ dims.1 ∧ 2 ≤ dims.2) :
    check (R := R) ⟨dims⟩ 0 1 = .ok () := by
  have both : 2 ≤ min dims.1 dims.2 := le_min levels.1 levels.2
  exact check_eq_ok_iff.mpr ⟨Nat.zero_ne_one, Nat.lt_of_lt_of_le Nat.zero_lt_two both, both⟩

variable [Scalar R] {family : Family} {dims : Nat × Nat}

theorem Ms.operator_exists (ms : Ms) (room : Operator.checkDim (ms.dims.1 * ms.dims.2) = .ok ())
    (theta : R) : ∃ u, ms.operator theta = .ok u ∧ u.dim = ms.dims.1 * ms.dims.2 := by
  simp only [operator, room, Outcome.ok_bind, Outcome.pure_eq_ok]
  exact ⟨_, rfl, rfl⟩

/-- The generator of a family, before the dimensions are checked. -/
def Family.entangler (family : Family) (dims : Nat × Nat) : Generator R :=
  match family with
  | .ms => Ms.generator ⟨dims⟩
  | .crot => Crot.generator ⟨dims⟩
  | .pswap => Pswap.generator ⟨dims⟩

theorem Family.generator_eq_ok_iff {generator : Generator R} :
    family.generator dims = .ok generator ↔
      (2 ≤ dims.1 ∧ 2 ≤ dims.2) ∧ generator = family.entangler dims := by
  rw [eq_comm (a := generator)]
  cases family with
  | ms =>
      simp [Family.generator, entangler, Outcome.bind_eq_ok_iff, Ms.ofDims_eq_ok_iff, and_assoc]
  | crot =>
      simp [Family.generator, entangler, Outcome.bind_eq_ok_iff, Crot.ofDims_eq_ok_iff, and_assoc]
  | pswap =>
      simp [Family.generator, entangler, Outcome.bind_eq_ok_iff, Pswap.ofDims_eq_ok_iff, and_assoc]

theorem Family.generator_refused (family : Family) (short : ¬ (2 ≤ dims.1 ∧ 2 ≤ dims.2)) :
    ∃ name levels, family.generator (R := R) dims =
      .error (.unsupportedLevels name levels dims) := by
  cases family with
  | ms =>
      obtain ⟨levels, refused⟩ := Ms.ofDims_refused (R := R) short
      exact ⟨_, levels, by rw [Family.generator, refused]; rfl⟩
  | crot =>
      obtain ⟨levels, refused⟩ := Crot.ofDims_refused (R := R) short
      exact ⟨_, levels, by rw [Family.generator, refused]; rfl⟩
  | pswap =>
      obtain ⟨levels, refused⟩ := Pswap.ofDims_refused (R := R) short
      exact ⟨_, levels, by rw [Family.generator, refused]; rfl⟩

namespace Family

@[simp] theorem dims_entangler (family : Family) (dims : Nat × Nat) :
    (family.entangler dims : Generator R).dims = dims := by
  cases family <;> rfl

theorem paramCount_entangler (family : Family) :
    (family.entangler dims : Generator R).paramCount ≤ 2 := by
  cases family with
  | ms => exact Nat.le_succ 1
  | crot | pswap => exact Nat.le_refl 2

theorem entangler_levels (family : Family) (levels : 2 ≤ dims.1 ∧ 2 ≤ dims.2) :
    2 ≤ (family.entangler dims : Generator R).dims.1 ∧
      2 ≤ (family.entangler dims : Generator R).dims.2 := by
  rwa [dims_entangler]

theorem entangler_positive (family : Family) (levels : 2 ≤ dims.1 ∧ 2 ≤ dims.2) :
    0 < (family.entangler dims : Generator R).dims.1 ∧
      0 < (family.entangler dims : Generator R).dims.2 := by
  rw [dims_entangler]
  omega

theorem sequence_exists (levels : 2 ≤ dims.1 ∧ 2 ≤ dims.2) (angle phase : R) :
    ∃ pulses, (family.entangler dims).sequence angle phase = .ok pulses ∧
      ∀ register : Register, register.dims = [dims.1, dims.2] →
        ∀ pulse ∈ pulses, pulse.Valid register := by
  have ⟨firstLevels, secondLevels⟩ := levels
  have firstLow : 0 < dims.1 := by omega
  have secondLow : 0 < dims.2 := by omega
  cases family with
  | ms =>
      refine ⟨Ms.sequence angle, rfl, fun register registerDims => ?_⟩
      refine List.forall_mem_singleton.mpr ?_
      exact {
        within := by
          simp [Instruction.ofGate, Instruction.allQudits, Instruction.controlQudits,
            Register.size, registerDims, Generator.localFirst, Generator.localSecond]
        distinct := by
          simp [Instruction.ofGate, Instruction.allQudits, Instruction.controlQudits,
            Generator.localFirst, Generator.localSecond]
        levelled := by simp [Instruction.ofGate]
        suited := ⟨by simp [Instruction.ofGate],
          Gate.checkLevels_eq_ok_iff.mpr ⟨_, _, rfl⟩⟩ }
  | crot =>
      refine ⟨_, Crot.sequence_eq_rotation (Crot.check_lowest levels) angle phase,
        fun register registerDims => ?_⟩
      exact (levelPair_second registerDims Nat.zero_ne_one secondLow
        secondLevels).controlledRotation_valid (guard_first registerDims firstLevels) _ _
  | pswap =>
      refine ⟨_, Pswap.sequence_eq_framed (Pswap.check_lowest levels) angle phase,
        fun register registerDims => ?_⟩
      exact Pswap.framed_swap_valid registerDims Nat.zero_ne_one firstLow firstLevels secondLow
        secondLevels _ _ _ _

theorem crot_operator_eq (levels : 2 ≤ dims.1 ∧ 2 ≤ dims.2)
    (room : Operator.checkDim (dims.1 * dims.2) = .ok ()) (angle phase : R) :
    (Family.crot.entangler dims).operator angle phase = .ok (Operator.ofBlock (dims.1 * dims.2)
      (1 * dims.2 + 0) (1 * dims.2 + 1) (Operator.rotationBlock angle phase)) := by
  have low := pair_state_lt levels.1 (Nat.zero_lt_of_lt levels.2)
  have high := pair_state_lt levels.1 levels.2
  rw [product_pair] at low high
  refine (Crot.operator_eq_blockOn (Crot.check_lowest levels) angle phase).trans ?_
  rw [Operator.blockOn_eq_ok room low high]
  rfl

theorem pswap_operator_eq (levels : 2 ≤ dims.1 ∧ 2 ≤ dims.2)
    (room : Operator.checkDim (dims.1 * dims.2) = .ok ()) (angle phase : R) :
    (Family.pswap.entangler dims).operator angle phase = .ok (Operator.ofBlock (dims.1 * dims.2)
      (0 * dims.2 + 1) (1 * dims.2 + 0) (Operator.rotationBlock angle phase)) := by
  have low := pair_state_lt (Nat.zero_lt_of_lt levels.1) levels.2
  have high := pair_state_lt levels.1 (Nat.zero_lt_of_lt levels.2)
  rw [product_pair] at low high
  refine (Pswap.operator_eq_blockOn (Pswap.check_lowest levels) angle phase).trans ?_
  rw [Operator.blockOn_eq_ok room low high]
  rfl

theorem operator_exists (levels : 2 ≤ dims.1 ∧ 2 ≤ dims.2)
    (room : Operator.checkDim (dims.1 * dims.2) = .ok ()) (angle phase : R) :
    ∃ u, (family.entangler dims).operator angle phase = .ok u ∧ u.dim = dims.1 * dims.2 := by
  cases family with
  | ms =>
      obtain ⟨u, built, dim⟩ := Ms.operator_exists ⟨dims⟩ room angle
      refine ⟨u, ?_, dim⟩
      change liftM (Ms.operator ⟨dims⟩ angle) = _
      rw [built]
      rfl
  | crot => exact ⟨_, crot_operator_eq levels room angle phase, rfl⟩
  | pswap => exact ⟨_, pswap_operator_eq levels room angle phase, rfl⟩

theorem operator_refused (levels : 2 ≤ dims.1 ∧ 2 ≤ dims.2)
    (large : Operator.checkDim (dims.1 * dims.2) = .error .outOfRange) (angle phase : R) :
    (family.entangler dims).operator angle phase = .error (.circuit .outOfRange) := by
  cases family with
  | ms =>
      change liftM (Ms.operator ⟨dims⟩ angle) = _
      rw [Ms.operator, large]
      rfl
  | crot =>
      have checked : Crot.check (R := R) ⟨dims⟩ 1 0 1 = .ok () := Crot.check_lowest levels
      refine (Crot.operator_eq_blockOn checked angle phase).trans ?_
      rw [Operator.blockOn, large]
      rfl
  | pswap =>
      have checked : Pswap.check (R := R) ⟨dims⟩ 0 1 = .ok () := Pswap.check_lowest levels
      refine (Pswap.operator_eq_blockOn checked angle phase).trans ?_
      rw [Operator.blockOn, large]
      rfl

/-- After a whole number of periods every entangler is the identity. -/
theorem operator_whole (levels : 2 ≤ dims.1 ∧ 2 ≤ dims.2)
    (room : Operator.checkDim (dims.1 * dims.2) = .ok ()) (turns : ℤ) (phase : ℝ) :
    (family.entangler dims).operator (turns * (4 * Real.pi)) phase =
      .ok (Operator.identity (dims.1 * dims.2)) := by
  have block : ∀ p q, p < dims.1 * dims.2 → q < dims.1 * dims.2 → p ≠ q →
      Operator.ofBlock (dims.1 * dims.2) p q
        (Operator.rotationBlock (turns * (4 * Real.pi)) phase) =
      Operator.identity (dims.1 * dims.2) := by
    intro p q pBound qBound apart
    refine Operator.eq_of_toMatrix (Operator.dim_ofFn _ _) (Operator.dim_identity _) ?_
    rw [Operator.toMatrix_ofBlock rfl pBound qBound, Operator.rotationBlock_matrix, turn_whole,
      plane_one (by simpa using apart), Operator.toMatrix_identity]
  cases family with
  | ms =>
      have zero : (⟨0, -0⟩ : Amplitude ℝ) = 0 := congrArg (Amplitude.mk 0) neg_zero
      change liftM (Ms.operator ⟨dims⟩ (turns * (4 * Real.pi))) = _
      simp only [Ms.operator, room, Outcome.ok_bind, Scalar.half_exact, Scalar.sin_exact,
        Scalar.cos_exact, sin_half_turns, cos_half_turns, zero, ite_self]
      change Except.ok (Operator.ofFn _ fun row col => if row / dims.2 < 2 ∧ row % dims.2 < 2 then
        if row = col then 1 else 0 else if row = col then 1 else 0) = _
      simp only [ite_self]
      rfl
  | crot =>
      have low := pair_state_lt levels.1 (Nat.zero_lt_of_lt levels.2)
      have high := pair_state_lt levels.1 levels.2
      rw [product_pair] at low high
      rw [crot_operator_eq levels room, block _ _ low high (by omega)]
  | pswap =>
      have low := pair_state_lt (Nat.zero_lt_of_lt levels.1) levels.2
      have high := pair_state_lt levels.1 (Nat.zero_lt_of_lt levels.2)
      rw [product_pair] at low high
      rw [pswap_operator_eq levels room, block _ _ low high (by omega)]

end Family
end QuditSynth
