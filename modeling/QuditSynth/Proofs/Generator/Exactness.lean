import QuditSynth.Proofs.Generator.Sequences

namespace QuditSynth

/-! # Exactness of the generators

Controlled rotations, controlled phases and partial swaps have closed forms, and
their pulse sequences perform exactly these: for all dimensions, levels and
angles, and without a phase of their own.
-/

namespace Crot

variable {R : Type} {crot : Crot} {control a b : Nat}

theorem check_eq_ok_iff : crot.check (R := R) control a b = .ok () ↔
    control < crot.dims.1 ∧ a ≠ b ∧ a < crot.dims.2 ∧ b < crot.dims.2 := by
  unfold check refuse
  split
  · simp; omega
  · split
    · simp; omega
    · simp; omega

theorem check_refused (crot : Crot) (control a b : Nat)
    (illegal : ¬ (control < crot.dims.1 ∧ a ≠ b ∧ a < crot.dims.2 ∧ b < crot.dims.2)) :
    ∃ levels, crot.check (R := R) control a b =
      .error (.unsupportedLevels "crot" levels crot.dims) := by
  unfold check refuse
  split
  · exact ⟨_, rfl⟩
  · split
    · exact ⟨_, rfl⟩
    · exact absurd (by omega) illegal

theorem ofDims_eq_ok_iff {dims : Nat × Nat} :
    ofDims (R := R) dims = .ok crot ↔ (2 ≤ dims.1 ∧ 2 ≤ dims.2) ∧ crot = ⟨dims⟩ := by
  simp only [ofDims, Outcome.check_bind_eq_ok_iff, check_eq_ok_iff, Outcome.pure_eq_ok,
    Except.ok.injEq]
  constructor
  · rintro ⟨levels, made⟩
    exact ⟨by omega, made.symm⟩
  · rintro ⟨levels, made⟩
    exact ⟨by omega, made.symm⟩

theorem ofDims_refused {dims : Nat × Nat} (short : ¬ (2 ≤ dims.1 ∧ 2 ≤ dims.2)) :
    ∃ levels, ofDims (R := R) dims = .error (.unsupportedLevels "crot" levels dims) := by
  obtain ⟨levels, refused⟩ := check_refused (R := R) ⟨dims⟩ 1 0 1
    (fun legal => short ⟨legal.1, legal.2.2.2⟩)
  exact ⟨levels, by rw [ofDims, refused]; rfl⟩

theorem sequence_eq_rotation [Scalar R] (checked : crot.check (R := R) control a b = .ok ())
    (theta phi : R) :
    crot.sequence control a b theta phi = .ok (Generator.controlledRotation Generator.localFirst
      Generator.localSecond control a b theta phi) := by
  rw [sequence, checked]
  rfl

theorem operator_eq_blockOn [Scalar R] (checked : crot.check (R := R) control a b = .ok ())
    (theta phi : R) :
    crot.operator control a b theta phi = liftM (Operator.blockOn (crot.dims.1 * crot.dims.2)
      (control * crot.dims.2 + a) (control * crot.dims.2 + b)
      (Operator.rotationBlock theta phi)) := by
  rw [operator, checked]
  rfl

variable [Exponential ℝ]

/-- Controlled rotations, for every choice of levels and angles. -/
theorem exact_rotation (firstLevels : 2 ≤ crot.dims.1) (secondLevels : 2 ≤ crot.dims.2)
    (theta phi : ℝ) :
    Generator.Exact crot.dims
      (control < crot.dims.1 ∧ a ≠ b ∧ a < crot.dims.2 ∧ b < crot.dims.2)
      (crot.sequence control a b theta phi) (crot.operator control a b theta phi) := by
  cases checked : crot.check (R := ℝ) control a b with
  | error cause =>
      have illegal : ¬ crot.check (R := ℝ) control a b = .ok () := by simp [checked]
      rw [check_eq_ok_iff] at illegal
      exact Generator.exact_of_refused illegal (by rw [sequence, checked]; rfl)
        (by rw [operator, checked]; rfl)
  | ok =>
      obtain ⟨controlBound, distinct, aBound, bBound⟩ := check_eq_ok_iff.mp checked
      refine Generator.exact_of_performs firstLevels secondLevels (check_eq_ok_iff.mp checked)
        (sequence_eq_rotation checked theta phi) (operator_eq_blockOn checked theta phi)
        (pair_state_lt controlBound aBound) (pair_state_lt controlBound bBound) ?_ ?_
      · intro register dims
        exact (levelPair_second dims distinct aBound bBound).controlledRotation_valid
          (guard_first dims controlBound) theta phi
      · intro register dims addressable
        have pair := levelPair_second dims distinct aBound bBound
        have guard := guard_first dims controlBound
        rw [← pair.matrix_of_embed addressable guard.controlsFit
          (embed_second dims addressable _ controlBound aBound bBound),
          Operator.rotationBlock_matrix]
        exact pair.performs_controlledRotation guard addressable theta phi

/-- The closed form is also the operator of a rotation with one control. -/
theorem controlled_operator (firstLevels : 2 ≤ crot.dims.1) (secondLevels : 2 ≤ crot.dims.2)
    {theta phi : ℝ} {u : Operator ℝ} (closed : crot.operator control a b theta phi = .ok u)
    {register : Register} (dims : register.dims = [crot.dims.1, crot.dims.2]) :
    ((Instruction.ofGate (.r theta phi a b) [Generator.localSecond]).withControls
      ⟨[Generator.localFirst], [control]⟩).operator register = .ok u := by
  obtain ⟨legal, room⟩ :=
    (crot.exact_rotation firstLevels secondLevels theta phi).closed_exists.mp ⟨u, closed⟩
  have checkedDim : Operator.checkDim (crot.dims.1 * crot.dims.2) = .ok () :=
    checkCapacity_eq_ok_iff.mpr room
  have addressable : Addressable register.dims := Register.addressable (by
    rw [dims, product_pair]
    exact checkedDim)
  rw [operator_eq_blockOn (check_eq_ok_iff.mpr legal)] at closed
  obtain ⟨controlBound, distinct, aBound, bBound⟩ := legal
  have pBound := product_pair _ _ ▸ pair_state_lt controlBound aBound
  have qBound := product_pair _ _ ▸ pair_state_lt controlBound bBound
  rw [Operator.blockOn_eq_ok checkedDim pBound qBound] at closed
  cases closed
  have pair := levelPair_second dims distinct aBound bBound
  have guard := guard_first dims controlBound
  exact (pair.rotation_operator (pair.controlled_rotation_valid guard theta phi) addressable).trans
    (embed_second dims addressable _ controlBound aBound bBound)

omit [Exponential ℝ]

theorem levelAbove_eq_ok (firstLevels : 2 ≤ crot.dims.1) {level : Nat}
    (legal : level + 1 < wordLimit ∧ level + 1 < crot.dims.2) :
    crot.levelAbove (R := R) level = .ok (level + 1) := by
  have checked : crot.check (R := R) 1 level (level + 1) = .ok () :=
    check_eq_ok_iff.mpr ⟨firstLevels, by omega, by omega, legal.2⟩
  rw [levelAbove, if_neg (Nat.not_le.mpr legal.1), checked]
  rfl

theorem levelAbove_refused {level : Nat}
    (illegal : ¬ (level + 1 < wordLimit ∧ level + 1 < crot.dims.2)) :
    ∃ levels, crot.levelAbove (R := R) level =
      .error (.unsupportedLevels "crot" levels crot.dims) := by
  unfold levelAbove
  split
  · exact ⟨_, rfl⟩
  · next small =>
    obtain ⟨levels, refused⟩ := crot.check_refused (R := R) 1 level (level + 1) (by omega)
    exact ⟨levels, by rw [refused]; rfl⟩

section Phase

variable [Scalar R] {level : Nat} (above : crot.levelAbove (R := R) level = .ok (level + 1))

include above

theorem phaseSequence_eq_framed (theta : R) : crot.phaseSequence level theta = .ok
    (Generator.rotate (-Generator.quarterTurn) 0 level (level + 1) Generator.localSecond ::
      Generator.controlledRotation Generator.localFirst Generator.localSecond 1 level (level + 1)
        theta Generator.quarterTurn ++
      [Generator.rotate Generator.quarterTurn 0 level (level + 1) Generator.localSecond]) := by
  rw [phaseSequence, above]
  rfl

theorem phaseOperator_eq_blockOn (theta : R) :
    crot.phaseOperator level theta = liftM (Operator.blockOn (crot.dims.1 * crot.dims.2)
      (1 * crot.dims.2 + level) (1 * crot.dims.2 + (level + 1))
      ⟨.polar 1 (Scalar.half (-theta)), 0, 0, .polar 1 (Scalar.half theta)⟩) := by
  rw [phaseOperator, above]
  rfl

end Phase

/-- The block of a controlled phase. -/
noncomputable def phaseBlock (theta : ℝ) : Operator.Block ℝ where
  aa := .polar 1 (Scalar.half (-theta))
  ab := 0
  ba := 0
  bb := .polar 1 (Scalar.half theta)

theorem phaseBlock_matrix (theta : ℝ) : (phaseBlock theta).matrix = shift theta := by
  simp only [Operator.Block.matrix, phaseBlock, shift_eq, Amplitude.value_polar, Scalar.half_exact,
    Amplitude.value_zero]
  push_cast
  simp only [one_mul]

/-- The pulses of a controlled phase. -/
noncomputable def phasePulses (level : Nat) (theta : ℝ) : List (Instruction ℝ) :=
  Generator.rotate (-Generator.quarterTurn) 0 level (level + 1) Generator.localSecond ::
    Generator.controlledRotation Generator.localFirst Generator.localSecond 1 level (level + 1)
      theta Generator.quarterTurn ++
    [Generator.rotate Generator.quarterTurn 0 level (level + 1) Generator.localSecond]

section PhasePulses

variable {register : Register} {level : Nat}
  (pair : LevelPair register Generator.localSecond level (level + 1))
  (guard : Guard register Generator.localFirst Generator.localSecond 1)

include pair guard

theorem framed_phase_valid [Scalar R] (before after theta phi : R) :
    ∀ pulse ∈ Generator.rotate before 0 level (level + 1) Generator.localSecond ::
      Generator.controlledRotation Generator.localFirst Generator.localSecond 1 level (level + 1)
        theta phi ++
      [Generator.rotate after 0 level (level + 1) Generator.localSecond], pulse.Valid register :=
  Generator.framed_valid (pair.rotate_valid _ _) (pair.controlledRotation_valid guard _ _)
    (pair.rotate_valid _ _)

theorem performs_phasePulses [Exponential ℝ] (addressable : Addressable register.dims)
    (theta : ℝ) :
    Performs register (phasePulses level theta)
      (pair.matrix addressable [(Generator.localFirst.index, 1)] (shift theta)) := by
  have inverse : turn Generator.quarterTurn 0 * turn (-Generator.quarterTurn) 0 = 1 := by
    rw [turn_add, add_neg_cancel, turn_zero]
  rw [← turn_quarter, Matrix.mul_assoc, ← Generator.quarterTurn_exact,
    ← pair.matrix_conjugate addressable guard.controlsFit inverse]
  exact ((pair.performs_rotate addressable _ 0).append
    (pair.performs_controlledRotation guard addressable theta _)).append
    (pair.performs_rotate addressable _ 0)

end PhasePulses

variable [Exponential ℝ]

/-- Controlled phases of neighbouring levels. -/
theorem exact_phase (firstLevels : 2 ≤ crot.dims.1) (secondLevels : 2 ≤ crot.dims.2)
    (level : Nat) (theta : ℝ) :
    Generator.Exact crot.dims (level + 1 < wordLimit ∧ level + 1 < crot.dims.2)
      (crot.phaseSequence level theta) (crot.phaseOperator level theta) := by
  by_cases legal : level + 1 < wordLimit ∧ level + 1 < crot.dims.2
  · have above := levelAbove_eq_ok (R := ℝ) firstLevels legal
    have sequenced : crot.phaseSequence level theta = .ok (phasePulses level theta) :=
      phaseSequence_eq_framed above theta
    have closed : crot.phaseOperator level theta = liftM (Operator.blockOn
        (crot.dims.1 * crot.dims.2) (1 * crot.dims.2 + level) (1 * crot.dims.2 + (level + 1))
        (phaseBlock theta)) := phaseOperator_eq_blockOn above theta
    have aBound : level < crot.dims.2 := Nat.lt_of_succ_lt legal.2
    have distinct : level ≠ level + 1 := Nat.ne_of_lt (Nat.lt_succ_self level)
    refine Generator.exact_of_performs firstLevels secondLevels legal sequenced closed
      (pair_state_lt firstLevels aBound) (pair_state_lt firstLevels legal.2) ?_ ?_
    · intro register dims
      exact framed_phase_valid (levelPair_second dims distinct aBound legal.2)
        (guard_first dims firstLevels) _ _ theta _
    · intro register dims addressable
      have pair := levelPair_second dims distinct aBound legal.2
      have guard := guard_first dims firstLevels
      rw [← pair.matrix_of_embed addressable guard.controlsFit
        (embed_second dims addressable _ firstLevels aBound legal.2), phaseBlock_matrix]
      exact performs_phasePulses pair guard addressable theta
  · obtain ⟨cause, refused⟩ := levelAbove_refused (R := ℝ) legal
    exact Generator.exact_of_refused legal (by rw [phaseSequence, refused]; rfl)
      (by rw [phaseOperator, refused]; rfl)

end Crot

namespace Pswap

variable {R : Type} {pswap : Pswap} {a b : Nat}

theorem check_eq_ok_iff : pswap.check (R := R) a b = .ok () ↔
    a ≠ b ∧ a < min pswap.dims.1 pswap.dims.2 ∧ b < min pswap.dims.1 pswap.dims.2 := by
  unfold check
  dsimp only
  split
  · simp; omega
  · simp; omega

theorem check_refused (pswap : Pswap) (a b : Nat)
    (illegal : ¬ (a ≠ b ∧ a < min pswap.dims.1 pswap.dims.2 ∧ b < min pswap.dims.1 pswap.dims.2)) :
    pswap.check (R := R) a b = .error (.unsupportedLevels "pswap" (a, b) pswap.dims) :=
  if_pos (by omega)

theorem ofDims_eq_ok_iff {dims : Nat × Nat} :
    ofDims (R := R) dims = .ok pswap ↔ (2 ≤ dims.1 ∧ 2 ≤ dims.2) ∧ pswap = ⟨dims⟩ := by
  simp only [ofDims, Outcome.check_bind_eq_ok_iff, check_eq_ok_iff, Outcome.pure_eq_ok,
    Except.ok.injEq]
  constructor
  · rintro ⟨levels, made⟩
    exact ⟨by omega, made.symm⟩
  · rintro ⟨levels, made⟩
    exact ⟨by omega, made.symm⟩

theorem ofDims_refused {dims : Nat × Nat} (short : ¬ (2 ≤ dims.1 ∧ 2 ≤ dims.2)) :
    ∃ levels, ofDims (R := R) dims = .error (.unsupportedLevels "pswap" levels dims) := by
  have refused := check_refused (R := R) ⟨dims⟩ 0 1 (fun legal => short (Nat.le_min.mp legal.2.2))
  exact ⟨_, by rw [ofDims, refused]; rfl⟩

theorem sequence_eq_framed [Scalar R] (checked : pswap.check (R := R) a b = .ok ())
    (theta phi : R) : pswap.sequence a b theta phi = .ok
      (Generator.exchange b a b 0 Generator.localFirst Generator.localSecond ::
        Generator.controlledRotation Generator.localSecond Generator.localFirst b a b theta
          (phi - Generator.quarterTurn) ++
        [Generator.exchange b a b Scalar.pi Generator.localFirst Generator.localSecond]) := by
  rw [sequence, checked]
  rfl

theorem operator_eq_blockOn [Scalar R] (checked : pswap.check (R := R) a b = .ok ())
    (theta phi : R) :
    pswap.operator a b theta phi = liftM (Operator.blockOn (pswap.dims.1 * pswap.dims.2)
      (a * pswap.dims.2 + b) (b * pswap.dims.2 + a) (Operator.rotationBlock theta phi)) := by
  rw [operator, checked]
  rfl

/-- The pulses of a partial swap. -/
noncomputable def pulses (a b : Nat) (theta phi : ℝ) : List (Instruction ℝ) :=
  Generator.exchange b a b 0 Generator.localFirst Generator.localSecond ::
    Generator.controlledRotation Generator.localSecond Generator.localFirst b a b theta
      (phi - Generator.quarterTurn) ++
    [Generator.exchange b a b Real.pi Generator.localFirst Generator.localSecond]

section Swap

variable {register : Register} {first second : Nat} (dims : register.dims = [first, second])
  (distinct : a ≠ b) (aFirst : a < first) (bFirst : b < first) (aSecond : a < second)
  (bSecond : b < second)

include dims distinct aFirst bFirst aSecond bSecond

theorem framed_swap_valid [Scalar R] (before after theta phi : R) :
    ∀ pulse ∈ Generator.exchange b a b before Generator.localFirst Generator.localSecond ::
      Generator.controlledRotation Generator.localSecond Generator.localFirst b a b theta phi ++
      [Generator.exchange b a b after Generator.localFirst Generator.localSecond],
      pulse.Valid register := by
  have pairSecond := levelPair_second dims distinct aSecond bSecond
  have guardFirst := guard_first dims bFirst
  have pairFirst := levelPair_first dims distinct aFirst bFirst
  have guardSecond := guard_second dims bSecond
  exact Generator.framed_valid (pairSecond.exchange_valid guardFirst _)
    (pairFirst.controlledRotation_valid guardSecond _ _)
    (pairSecond.exchange_valid guardFirst _)

/-- Exchanges carry `|b, a⟩` to `|b, b⟩` and back around a rotation that mixes the latter with
`|a, b⟩`. -/
theorem performs_pulses [Exponential ℝ] (addressable : Addressable register.dims)
    (theta phi : ℝ) :
    Performs register (pulses a b theta phi)
      ((Operator.ofBlock (first * second) (a * second + b) (b * second + a)
        (Operator.rotationBlock theta phi)).toMatrix (product register.dims)) := by
  have pairSecond := levelPair_second dims distinct aSecond bSecond
  have guardFirst := guard_first dims bFirst
  have pairFirst := levelPair_first dims distinct aFirst bFirst
  have guardSecond := guard_second dims bSecond
  have total : first * second = product register.dims := by rw [dims, product_pair]
  have pBound := dims ▸ pair_state_lt aFirst bSecond
  have qBound := dims ▸ pair_state_lt bFirst aSecond
  have rBound := dims ▸ pair_state_lt bFirst bSecond
  have exchanged : ∀ angle, pairSecond.matrix addressable [(0, b)] (turn Real.pi angle) =
      plane ⟨_, qBound⟩ ⟨_, rBound⟩ (turn Real.pi angle) := by
    intro angle
    rw [← Operator.rotationBlock_matrix, ← Operator.toMatrix_ofBlock total]
    exact pairSecond.matrix_of_embed addressable guardFirst.controlsFit
      (embed_second dims addressable _ bFirst aSecond bSecond)
  have rotated : pairFirst.matrix addressable [(1, b)] (turn theta (phi - Real.pi / 2)) =
      plane ⟨_, pBound⟩ ⟨_, rBound⟩ (turn theta (phi - Real.pi / 2)) := by
    rw [← Operator.rotationBlock_matrix, ← Operator.toMatrix_ofBlock total]
    exact pairFirst.matrix_of_embed addressable guardSecond.controlsFit
      (embed_first dims addressable _ bSecond aFirst bFirst)
  have pq : (⟨_, pBound⟩ : Fin (product register.dims)) ≠ ⟨_, qBound⟩ := Fin.ne_of_val_ne
    (pair_state_ne aFirst bSecond bFirst aSecond (Or.inl distinct))
  have pr : (⟨_, pBound⟩ : Fin (product register.dims)) ≠ ⟨_, rBound⟩ := Fin.ne_of_val_ne
    (pair_state_ne aFirst bSecond bFirst bSecond (Or.inl distinct))
  have qr : (⟨_, qBound⟩ : Fin (product register.dims)) ≠ ⟨_, rBound⟩ := Fin.ne_of_val_ne
    (pair_state_ne bFirst aSecond bFirst bSecond (Or.inr distinct))
  rw [Operator.toMatrix_ofBlock total pBound qBound, Operator.rotationBlock_matrix,
    ← plane_exchange theta phi pq pr qr,
    Matrix.mul_assoc, ← exchanged, ← exchanged, ← rotated, ← Generator.quarterTurn_exact]
  exact ((pairSecond.performs_exchange guardFirst addressable 0).append
    (pairFirst.performs_controlledRotation guardSecond addressable theta _)).append
    (pairSecond.performs_exchange guardFirst addressable Real.pi)

end Swap

/-- Partial swaps, for every choice of levels and angles. -/
theorem exact_swap [Exponential ℝ] (firstLevels : 2 ≤ pswap.dims.1)
    (secondLevels : 2 ≤ pswap.dims.2) (theta phi : ℝ) :
    Generator.Exact pswap.dims
      (a ≠ b ∧ a < min pswap.dims.1 pswap.dims.2 ∧ b < min pswap.dims.1 pswap.dims.2)
      (pswap.sequence a b theta phi) (pswap.operator a b theta phi) := by
  cases checked : pswap.check (R := ℝ) a b with
  | error cause =>
      have illegal : ¬ pswap.check (R := ℝ) a b = .ok () := by simp [checked]
      rw [check_eq_ok_iff] at illegal
      exact Generator.exact_of_refused illegal (by rw [sequence, checked]; rfl)
        (by rw [operator, checked]; rfl)
  | ok =>
      obtain ⟨distinct, aLimit, bLimit⟩ := check_eq_ok_iff.mp checked
      obtain ⟨aFirst, aSecond⟩ := Nat.lt_min.mp aLimit
      obtain ⟨bFirst, bSecond⟩ := Nat.lt_min.mp bLimit
      have sequenced : pswap.sequence a b theta phi = .ok (pulses a b theta phi) :=
        sequence_eq_framed checked theta phi
      refine Generator.exact_of_performs firstLevels secondLevels (check_eq_ok_iff.mp checked)
        sequenced (operator_eq_blockOn checked theta phi) (pair_state_lt aFirst bSecond)
        (pair_state_lt bFirst aSecond) ?_ ?_
      · intro register dims
        exact framed_swap_valid dims distinct aFirst bFirst aSecond bSecond _ _ theta _
      · intro register dims addressable
        exact performs_pulses dims distinct aFirst bFirst aSecond bSecond addressable theta phi

end Pswap

/-- The sequences of all generators with a choice of levels perform their closed forms, and the
closed form of a controlled rotation is the rotation with a control. -/
theorem Generator.sequences_exact [Exponential ℝ] (dims : Nat × Nat) :
    (∀ crot : Crot, Crot.ofDims (R := ℝ) dims = .ok crot →
      (∀ (control a b : Nat) (theta phi : ℝ),
        Exact dims (control < dims.1 ∧ a ≠ b ∧ a < dims.2 ∧ b < dims.2)
          (crot.sequence control a b theta phi) (crot.operator control a b theta phi) ∧
        ∀ (u : Operator ℝ) (register : Register), crot.operator control a b theta phi = .ok u →
          register.dims = [dims.1, dims.2] →
          ((Instruction.ofGate (.r theta phi a b) [localSecond]).withControls
            ⟨[localFirst], [control]⟩).operator register = .ok u) ∧
      ∀ (level : Nat) (theta : ℝ),
        Exact dims (level + 1 < wordLimit ∧ level + 1 < dims.2)
          (crot.phaseSequence level theta) (crot.phaseOperator level theta)) ∧
    ∀ pswap : Pswap, Pswap.ofDims (R := ℝ) dims = .ok pswap →
      ∀ (a b : Nat) (theta phi : ℝ),
        Exact dims (a ≠ b ∧ a < min dims.1 dims.2 ∧ b < min dims.1 dims.2)
          (pswap.sequence a b theta phi) (pswap.operator a b theta phi) := by
  constructor
  · intro crot made
    obtain ⟨⟨firstLevels, secondLevels⟩, rfl⟩ := Crot.ofDims_eq_ok_iff.mp made
    refine ⟨fun control a b theta phi => ⟨Crot.exact_rotation firstLevels secondLevels theta phi,
      fun u register closed registerDims => ?_⟩, fun level theta =>
      Crot.exact_phase firstLevels secondLevels level theta⟩
    exact Crot.controlled_operator firstLevels secondLevels closed registerDims
  · intro pswap made
    obtain ⟨⟨firstLevels, secondLevels⟩, rfl⟩ := Pswap.ofDims_eq_ok_iff.mp made
    exact fun a b theta phi => Pswap.exact_swap firstLevels secondLevels theta phi

theorem Generator.sequences_exact_three_four :
    let _ : Exponential ℝ := .taylor
    ∃ rotation phase swap : Operator ℝ,
      Crot.operator ⟨(3, 4)⟩ 2 0 3 1 2 = .ok rotation ∧
      (∃ pulses circuit, Crot.sequence ⟨(3, 4)⟩ 2 0 3 1 2 = .ok pulses ∧
        circuitOn (3, 4) pulses = .ok circuit ∧ circuit.operator = .ok rotation) ∧
      Crot.phaseOperator ⟨(3, 4)⟩ 2 1 = .ok phase ∧
      (∃ pulses circuit, Crot.phaseSequence ⟨(3, 4)⟩ 2 1 = .ok pulses ∧
        circuitOn (3, 4) pulses = .ok circuit ∧ circuit.operator = .ok phase) ∧
      Pswap.operator ⟨(3, 4)⟩ 0 2 1 2 = .ok swap ∧
      ∃ pulses circuit, Pswap.sequence ⟨(3, 4)⟩ 0 2 1 2 = .ok pulses ∧
        circuitOn (3, 4) pulses = .ok circuit ∧ circuit.operator = .ok swap := by
  intro taylor
  have exactness := sequences_exact (3, 4)
  have crot := exactness.1 ⟨(3, 4)⟩ (Crot.ofDims_eq_ok_iff.mpr ⟨by decide, rfl⟩)
  have pswap := exactness.2 ⟨(3, 4)⟩ (Pswap.ofDims_eq_ok_iff.mpr ⟨by decide, rfl⟩)
  have both {legal : Prop} {sequence : Except (CompileError ℝ) (List (Instruction ℝ))}
      {closed : Except (CompileError ℝ) (Operator ℝ)} (isLegal : legal)
      (exact : Exact (3, 4) legal sequence closed) :
      ∃ u, closed = .ok u ∧ ∃ pulses circuit, sequence = .ok pulses ∧
        circuitOn (3, 4) pulses = .ok circuit ∧ circuit.operator = .ok u := by
    obtain ⟨u, built⟩ := exact.closed_exists.mpr ⟨isLegal, by decide⟩
    obtain ⟨pulses, sequenced⟩ := exact.accepted.mpr isLegal
    obtain ⟨circuit, made, same⟩ := exact.operator_eq pulses sequenced
    exact ⟨u, built, pulses, circuit, sequenced, made, same u built⟩
  obtain ⟨rotation, rotationBuilt, rotationSame⟩ := both (by decide) (crot.1 2 0 3 1 2).1
  obtain ⟨phase, phaseBuilt, phaseSame⟩ := both (by decide) (crot.2 2 1)
  obtain ⟨swap, swapBuilt, swapSame⟩ := both (by decide) (pswap 0 2 1 2)
  exact ⟨rotation, phase, swap, rotationBuilt, rotationSame, phaseBuilt, phaseSame, swapBuilt,
    swapSame⟩

end QuditSynth
