import QuditSynth.Proofs.Generator.Families
import QuditSynth.Proofs.Synthesis.Native

namespace QuditSynth

/-! # Requests to the generators

A generator is asked for a sequence of pulses or for a closed form, on levels of
the caller's choice. Both answers check the levels alike: they refuse the same
requests with the same error, and a sequence that is not refused can be played
on the two qudits as it is.
-/

namespace Generator

variable {R : Type}

/-- A pulse that two qudits take as it is. -/
structure Playable (register : Register) (pulse : Instruction R) : Prop where
  validates : pulse.validate register = .ok ()
  operands : ∀ qudit ∈ pulse.allQudits, qudit = localFirst ∨ qudit = localSecond
  native : NativeSet.standard.isNative pulse = true

/-- The two answers to a request. A closed form that is not refused exists exactly if its matrix can
be addressed. -/
structure Served (name : String) (dims : Nat × Nat) (legal : Prop)
    (sequence : Except (CompileError R) (List (Instruction R)))
    (closed : Except (CompileError R) (Operator R)) : Prop where
  refused : ¬ legal → ∃ levels, sequence = .error (.unsupportedLevels name levels dims) ∧
    closed = .error (.unsupportedLevels name levels dims)
  emitted : legal → ∃ register pulses, Register.ofDims [dims.1, dims.2] = .ok register ∧
    sequence = .ok pulses ∧ ∀ pulse ∈ pulses, Playable register pulse
  built : legal → dims.1 * dims.2 * (dims.1 * dims.2) * 16 < 2 ^ 63 →
    ∃ u, closed = .ok u ∧ u.dim = dims.1 * dims.2
  large : legal → ¬ dims.1 * dims.2 * (dims.1 * dims.2) * 16 < 2 ^ 63 →
    closed = .error (.circuit .outOfRange)

/-- A generator is built for the pairs of qudits with two levels each, and for no others. -/
structure Builds {α : Type} (name : String) (dims : Nat × Nat)
    (outcome : Except (CompileError R) α) : Prop where
  accepted : (∃ made, outcome = .ok made) ↔ 2 ≤ dims.1 ∧ 2 ≤ dims.2
  refused : ¬ (2 ≤ dims.1 ∧ 2 ≤ dims.2) →
    ∃ levels, outcome = .error (.unsupportedLevels name levels dims)

theorem playable_of_valid {register : Register} {first second : Nat}
    (dims : register.dims = [first, second]) {pulse : Instruction R} (valid : pulse.Valid register)
    (isPulse : pulse.IsPulse) : Playable register pulse where
  validates := Instruction.validate_eq_ok_iff.mpr valid
  operands := by
    rintro ⟨index⟩ touched
    have within := valid.within _ touched
    simp only [Register.size, dims, List.length_cons, List.length_nil] at within
    have either : index = 0 ∨ index = 1 := by omega
    rcases either with rfl | rfl
    · exact Or.inl rfl
    · exact Or.inr rfl
  native := isPulse.isNative fun name member => by simpa [NativeSet.contains] using member

section Served

variable {name : String} {dims : Nat × Nat} {legal : Prop}
  {sequence : Except (CompileError R) (List (Instruction R))}
  {closed : Except (CompileError R) (Operator R)}

theorem served_of_refused {levels : Nat × Nat} (illegal : ¬ legal)
    (noSequence : sequence = .error (.unsupportedLevels name levels dims))
    (noClosed : closed = .error (.unsupportedLevels name levels dims)) :
    Served name dims legal sequence closed where
  refused _ := ⟨levels, noSequence, noClosed⟩
  emitted isLegal := absurd isLegal illegal
  built isLegal := absurd isLegal illegal
  large isLegal := absurd isLegal illegal

/-- Where a closed form exists, and how it fails. -/
structure Closes (dims : Nat × Nat) (closed : Except (CompileError R) (Operator R)) : Prop where
  built : Operator.checkDim (dims.1 * dims.2) = .ok () →
    ∃ u, closed = .ok u ∧ u.dim = dims.1 * dims.2
  large : Operator.checkDim (dims.1 * dims.2) = .error .outOfRange →
    closed = .error (.circuit .outOfRange)

theorem served_of_pulses {pulses : List (Instruction R)} (levels : 2 ≤ dims.1 ∧ 2 ≤ dims.2)
    (isLegal : legal) (sequenced : sequence = .ok pulses)
    (valid : ∀ register : Register, register.dims = [dims.1, dims.2] →
      ∀ pulse ∈ pulses, pulse.Valid register)
    (allPulses : AllPulses pulses) (closes : Closes dims closed) :
    Served name dims legal sequence closed where
  refused illegal := absurd isLegal illegal
  emitted _ := by
    let register : Register := ⟨[dims.1, dims.2], by simp, by simp [levels]⟩
    refine ⟨register, pulses, Register.ofDims_eq_ok_iff.mpr rfl, sequenced, ?_⟩
    intro pulse member
    exact playable_of_valid rfl (valid register rfl pulse member) (allPulses pulse member)
  built _ room := closes.built (checkCapacity_eq_ok_iff.mpr room)
  large _ full := closes.large (if_neg full)

theorem closes_of_blockOn [Scalar R] {p q : Nat} {block : Operator.Block R}
    (closedForm : closed = liftM (Operator.blockOn (dims.1 * dims.2) p q block))
    (pBound : p < product [dims.1, dims.2]) (qBound : q < product [dims.1, dims.2]) :
    Closes dims closed := by
  rw [product_pair] at pBound qBound
  constructor
  · intro room
    refine ⟨Operator.ofBlock (dims.1 * dims.2) p q block, ?_, rfl⟩
    rw [closedForm, Operator.blockOn_eq_ok room pBound qBound]
    rfl
  · intro large
    rw [closedForm, Operator.blockOn, large]
    rfl

end Served
end Generator

variable {R : Type} [Scalar R]

namespace Crot

variable {crot : Crot}

theorem served_rotation (levels : 2 ≤ crot.dims.1 ∧ 2 ≤ crot.dims.2) (control a b : Nat)
    (theta phi : R) :
    Generator.Served "crot" crot.dims
      (control < crot.dims.1 ∧ a ≠ b ∧ a < crot.dims.2 ∧ b < crot.dims.2)
      (crot.sequence control a b theta phi) (crot.operator control a b theta phi) := by
  by_cases legal : control < crot.dims.1 ∧ a ≠ b ∧ a < crot.dims.2 ∧ b < crot.dims.2
  · have checked := (check_eq_ok_iff (R := R)).mpr legal
    have ⟨controlBound, distinct, aBound, bBound⟩ := legal
    refine Generator.served_of_pulses levels legal (sequence_eq_rotation checked theta phi) ?_
      (Generator.pulses_controlledRotation _ _ _ _ _ _ _)
      (Generator.closes_of_blockOn (operator_eq_blockOn checked theta phi)
        (pair_state_lt controlBound aBound) (pair_state_lt controlBound bBound))
    intro register dims
    exact (levelPair_second dims distinct aBound bBound).controlledRotation_valid
      (guard_first dims controlBound) theta phi
  · obtain ⟨asked, refused⟩ := crot.check_refused (R := R) control a b legal
    exact Generator.served_of_refused legal (by rw [sequence, refused]; rfl)
      (by rw [operator, refused]; rfl)

/-- The level above is looked up in machine words, where the last level has none above it. -/
theorem served_phase (levels : 2 ≤ crot.dims.1 ∧ 2 ≤ crot.dims.2) (word : crot.dims.2 < wordLimit)
    (level : Nat) (theta : R) :
    Generator.Served "crot" crot.dims (level + 1 < crot.dims.2) (crot.phaseSequence level theta)
      (crot.phaseOperator level theta) := by
  by_cases legal : level + 1 < crot.dims.2
  · have above := levelAbove_eq_ok (R := R) levels.1 ⟨legal.trans word, legal⟩
    have distinct : level ≠ level + 1 := Nat.ne_of_lt (Nat.lt_succ_self level)
    have bound : level < crot.dims.2 := Nat.lt_of_succ_lt legal
    refine Generator.served_of_pulses levels legal (phaseSequence_eq_framed above theta) ?_ ?_
      (Generator.closes_of_blockOn (phaseOperator_eq_blockOn above theta)
        (pair_state_lt levels.1 bound) (pair_state_lt levels.1 legal))
    · intro register dims
      exact framed_phase_valid (levelPair_second dims distinct bound legal)
        (guard_first dims levels.1) _ _ theta _
    · exact (Generator.pulses_controlledRotation _ _ _ _ _ _ _).framed
        (Generator.pulse_rotate _ _ _ _ _) (Generator.pulse_rotate _ _ _ _ _)
  · obtain ⟨asked, refused⟩ := levelAbove_refused (R := R) (fun both => legal both.2)
    exact Generator.served_of_refused legal (by rw [phaseSequence, refused]; rfl)
      (by rw [phaseOperator, refused]; rfl)

end Crot

theorem Pswap.served_swap {pswap : Pswap} (levels : 2 ≤ pswap.dims.1 ∧ 2 ≤ pswap.dims.2)
    (a b : Nat) (theta phi : R) :
    Generator.Served "pswap" pswap.dims
      (a ≠ b ∧ a < min pswap.dims.1 pswap.dims.2 ∧ b < min pswap.dims.1 pswap.dims.2)
      (pswap.sequence a b theta phi) (pswap.operator a b theta phi) := by
  by_cases legal : a ≠ b ∧ a < min pswap.dims.1 pswap.dims.2 ∧ b < min pswap.dims.1 pswap.dims.2
  · have checked := (check_eq_ok_iff (R := R)).mpr legal
    have ⟨distinct, aLimit, bLimit⟩ := legal
    have ⟨aFirst, aSecond⟩ := Nat.lt_min.mp aLimit
    have ⟨bFirst, bSecond⟩ := Nat.lt_min.mp bLimit
    refine Generator.served_of_pulses levels legal (sequence_eq_framed checked theta phi) ?_ ?_
      (Generator.closes_of_blockOn (operator_eq_blockOn checked theta phi)
        (pair_state_lt aFirst bSecond) (pair_state_lt bFirst aSecond))
    · intro register dims
      exact framed_swap_valid dims distinct aFirst bFirst aSecond bSecond _ _ theta _
    · exact (Generator.pulses_controlledRotation _ _ _ _ _ _ _).framed
        (Generator.pulse_exchange _ _ _ _ _ _) (Generator.pulse_exchange _ _ _ _ _ _)
  · have refused := pswap.check_refused (R := R) a b legal
    exact Generator.served_of_refused legal (by rw [sequence, refused]; rfl)
      (by rw [operator, refused]; rfl)

theorem Family.served_entangler (family : Family) {dims : Nat × Nat}
    (levels : 2 ≤ dims.1 ∧ 2 ≤ dims.2) (angle phase : R) :
    Generator.Served (family.entangler (R := R) dims).name dims True
      ((family.entangler dims).sequence angle phase)
      ((family.entangler dims).operator angle phase) := by
  obtain ⟨pulses, sequenced, valid⟩ : ∃ pulses,
      (family.entangler dims).sequence angle phase = .ok pulses ∧ _ :=
    sequence_exists levels angle phase
  have emits : (family.entangler (R := R) dims).EmitsPulses := by
    cases family with
    | ms => exact Ms.emitsPulses ⟨dims⟩
    | crot => exact Crot.emitsPulses ⟨dims⟩
    | pswap => exact Pswap.emitsPulses ⟨dims⟩
  refine Generator.served_of_pulses levels trivial sequenced valid
    ((emits angle phase).value sequenced) ⟨fun room => ?_, fun large => ?_⟩
  · exact operator_exists levels room angle phase
  · exact operator_refused levels large angle phase

namespace Generator

/-- Every generator accepts the same requests for its sequence and for its closed form, and every
pulse it emits is valid on its two qudits, local to them and native. -/
theorem requests_served (dims : Nat × Nat) (word : dims.2 < wordLimit) :
    (Builds "crot" dims (Crot.ofDims (R := R) dims) ∧
      ∀ crot, Crot.ofDims (R := R) dims = .ok crot →
        (∀ control a b, ∀ theta phi : R,
          Served "crot" dims (control < dims.1 ∧ a ≠ b ∧ a < dims.2 ∧ b < dims.2)
            (crot.sequence control a b theta phi) (crot.operator control a b theta phi)) ∧
        ∀ level, ∀ theta : R, Served "crot" dims (level + 1 < dims.2)
          (crot.phaseSequence level theta) (crot.phaseOperator level theta)) ∧
    (Builds "pswap" dims (Pswap.ofDims (R := R) dims) ∧
      ∀ pswap, Pswap.ofDims (R := R) dims = .ok pswap → ∀ a b, ∀ theta phi : R,
        Served "pswap" dims (a ≠ b ∧ a < min dims.1 dims.2 ∧ b < min dims.1 dims.2)
          (pswap.sequence a b theta phi) (pswap.operator a b theta phi)) ∧
    Builds "ms" dims (Ms.ofDims (R := R) dims) ∧
    ∀ (family : Family) (generator : Generator R), family.generator dims = .ok generator →
      ∀ angle phase, Served generator.name dims True (generator.sequence angle phase)
        (generator.operator angle phase) := by
  refine ⟨⟨⟨?_, Crot.ofDims_refused⟩, ?_⟩, ⟨⟨?_, Pswap.ofDims_refused⟩, ?_⟩,
    ⟨?_, Ms.ofDims_refused⟩, ?_⟩
  · simp [Crot.ofDims_eq_ok_iff]
  · intro crot made
    obtain ⟨levels, rfl⟩ := Crot.ofDims_eq_ok_iff.mp made
    exact ⟨Crot.served_rotation levels, Crot.served_phase levels word⟩
  · simp [Pswap.ofDims_eq_ok_iff]
  · intro pswap made
    obtain ⟨levels, rfl⟩ := Pswap.ofDims_eq_ok_iff.mp made
    exact Pswap.served_swap levels
  · simp [Ms.ofDims_eq_ok_iff]
  · intro family generator made
    obtain ⟨levels, rfl⟩ := Family.generator_eq_ok_iff.mp made
    exact family.served_entangler levels

/-- A level that only the second qudit has can be rotated but not swapped. -/
theorem requests_served_uneven :
    (4 < wordLimit ∧ Crot.ofDims (R := Float) (3, 4) = .ok ⟨(3, 4)⟩ ∧
      Pswap.ofDims (R := Float) (3, 4) = .ok ⟨(3, 4)⟩) ∧
    (∃ u : Operator Float, Crot.operator ⟨(3, 4)⟩ 2 3 1 1 0 = .ok u ∧ u.dim = 12) ∧
    ∃ levels, Pswap.sequence (R := Float) ⟨(3, 4)⟩ 0 3 1 0 =
        .error (.unsupportedLevels "pswap" levels (3, 4)) ∧
      Pswap.operator (R := Float) ⟨(3, 4)⟩ 0 3 1 0 =
        .error (.unsupportedLevels "pswap" levels (3, 4)) := by
  have word : 4 < wordLimit := by decide
  obtain ⟨⟨_, crot⟩, ⟨_, pswap⟩, _⟩ := requests_served (R := Float) (3, 4) word
  refine ⟨⟨word, rfl, rfl⟩, ?_, ?_⟩
  · exact ((crot ⟨(3, 4)⟩ rfl).1 2 3 1 1 0).built (by decide) (by decide)
  · exact (pswap ⟨(3, 4)⟩ rfl 0 3 1 0).refused (by decide)

/-- A rotation of the lowest levels that has a sequence, but no closed form. -/
def Unclosed (dims : Nat × Nat) : Prop :=
  ∃ crot pulses, Crot.ofDims (R := Float) dims = .ok crot ∧
    crot.sequence (R := Float) 1 0 1 1 0 = .ok pulses ∧
    crot.operator (R := Float) 1 0 1 1 0 = .error (.circuit .outOfRange)

theorem unclosed_of_large {dims : Nat × Nat} (levels : 2 ≤ dims.1 ∧ 2 ≤ dims.2)
    (large : Operator.checkDim (dims.1 * dims.2) = .error .outOfRange) : Unclosed dims := by
  obtain ⟨pulses, sequenced, _⟩ : ∃ pulses,
      (Family.crot.entangler dims).sequence (1 : Float) 0 = .ok pulses ∧ _ :=
    Family.sequence_exists levels 1 0
  have unclosed : (Family.crot.entangler dims).operator (1 : Float) 0 =
      .error (.circuit .outOfRange) := Family.operator_refused levels large 1 0
  exact ⟨⟨dims⟩, pulses, Crot.ofDims_eq_ok_iff.mpr ⟨levels, rfl⟩, sequenced, unclosed⟩

/-- Qudits too large for a matrix, the second pair even for a machine word. -/
theorem closed_form_unaddressable :
    Unclosed (2, 2147483648) ∧ Unclosed (3, 12297829382473034411) :=
  ⟨unclosed_of_large (by decide) rfl, unclosed_of_large (by decide) rfl⟩

end Generator
end QuditSynth
