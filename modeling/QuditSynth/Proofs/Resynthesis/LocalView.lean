import QuditSynth.Proofs.Resynthesis.Factorization

namespace QuditSynth

/-! # Windows seen from the register

The operator of a window, embedded into the register on the window's qudits, is
the operator of the circuit of the window's instructions on the whole register.
Both fail alike where the register has no room for its matrices.
-/

namespace Window

section Placed

variable [Exponential ℝ] {register : Register} {window : Window ℝ}
  (within : ∀ qudit ∈ window.qudits, qudit.index < register.size)
  (distinct : window.qudits.Nodup) (some : window.qudits ≠ [])
  (valid : ∀ instruction ∈ window.instructions, instruction.Valid register)
  (gates : ∀ instruction ∈ window.instructions, instruction.isMeasure = false)
  (covered : ∀ instruction ∈ window.instructions, ∀ qudit ∈ instruction.allQudits,
    qudit ∈ window.qudits)

include within distinct some valid gates covered

/-- Without room for the matrices of the register a window may still have an operator, but it
cannot be placed. -/
theorem placed_refused
    (refused : Operator.checkDim (product register.dims) = .error .outOfRange) :
    window.placed register = .error .outOfRange := by
  have positions : Positions register.dims (window.qudits.map Qudit.index) :=
    ⟨List.forall_mem_map.mpr within, (List.nodup_map_iff Qudit.index_injective).mpr distinct⟩
  have innerPositive := targetDims_positive register.positive (window.qudits.map Qudit.index)
  -- With room for its own matrix the window fails only where that is embedded.
  rcases addressable_or_refused innerPositive with inner | innerRefused
  · obtain ⟨small, built, dim⟩ :=
      operator_exists_of_valid within some valid covered gates inner.room
    rw [placed, built, Outcome.ok_bind]
    exact Operator.embed_refused register.positive positions Operator.controlsFit_nil refused dim
  · rw [placed, operator_refused_of_valid within some valid covered innerRefused]
    rfl

theorem placed_eq_operator (name : String) :
    window.placed register = Circuit.operator ⟨name, register, window.instructions⟩ := by
  rcases addressable_or_refused register.positive with addressable | refused
  · obtain ⟨small, full, built, _, embedded, fullDim, performs⟩ :=
      (faithful_of_valid addressable within distinct some valid gates covered).factor
    have whole : Circuit.operator ⟨name, register, window.instructions⟩ = .ok full :=
      Performs.operator_eq performs addressable fullDim
    rw [placed_eq_ok built embedded, whole]
  · have whole : Circuit.operator ⟨name, register, window.instructions⟩ = .error .outOfRange :=
      Circuit.operator_refused refused
    rw [placed_refused within distinct some valid gates covered refused, whole]

omit distinct in
theorem operator_exists_iff :
    (∃ u, window.operator register = .ok u) ↔
      Operator.checkDim (product (Axis.targetDims register.dims (window.qudits.map Qudit.index))) =
        .ok () := by
  constructor
  · intro exists_operator
    obtain ⟨u, built⟩ := exists_operator
    have innerPositive := targetDims_positive register.positive (window.qudits.map Qudit.index)
    rcases addressable_or_refused innerPositive with inner | refused
    · exact inner.room
    · rw [operator_refused_of_valid within some valid covered refused] at built
      cases built
  · intro room
    obtain ⟨u, built, _⟩ := operator_exists_of_valid within some valid covered gates room
    exact ⟨u, built⟩

end Placed

/-- A window on distinct qudits has an operator if and only if these are some and have room for
their matrices. Embedded on the qudits of the window, the operator is the one of the circuit of the
window's instructions on all qudits of the register; if the register has no room for its matrices,
both fail in the same way. -/
theorem operator_seen_from_register [Exponential ℝ] (register : Register) (window : Window ℝ)
    (name : String) (within : ∀ qudit ∈ window.qudits, qudit.index < register.size)
    (distinct : window.qudits.Nodup)
    (valid : ∀ instruction ∈ window.instructions, instruction.validate register = .ok ())
    (gates : ∀ instruction ∈ window.instructions, instruction.isGate = true)
    (covered : ∀ instruction ∈ window.instructions, ∀ qudit ∈ instruction.allQudits,
      qudit ∈ window.qudits) :
    let positions := window.qudits.map Qudit.index
    let inner := product (Axis.targetDims register.dims positions)
    let size := product register.dims
    let whole : Except Error (Operator ℝ) := do
      (← (Circuit.empty name register).withInstructions window.instructions).operator
    (window.qudits = [] → window.operator register = .error .emptyRegister) ∧
    (window.qudits ≠ [] →
      ((∃ u, window.operator register = .ok u) ↔
        inner * inner * Operator.amplitudeBytes < byteLimit) ∧
      (do (← window.operator register).embed register.dims positions []) = whole ∧
      (size * size * Operator.amplitudeBytes < byteLimit →
        ∃ u full, window.operator register = .ok u ∧ u.dim = inner ∧
          u.embed register.dims positions [] = .ok full ∧ full.dim = size ∧
          whole = .ok full)) := by
  intro positions inner size whole
  have accepted : ∀ instruction ∈ window.instructions, instruction.Valid register :=
    fun instruction member => Instruction.validate_eq_ok_iff.mp (valid instruction member)
  have unmeasured : ∀ instruction ∈ window.instructions, instruction.isMeasure = false := by
    intro instruction member
    simpa [instruction.isGate_eq_not_isMeasure] using gates instruction member
  have made : whole = Circuit.operator ⟨name, register, window.instructions⟩ := by
    have appended : (Circuit.empty name register).withInstructions window.instructions =
        .ok ⟨name, register, window.instructions⟩ :=
      Circuit.withInstructions_eq_ok_iff.mpr ⟨accepted, rfl⟩
    simp only [whole, appended, Outcome.ok_bind]
  refine ⟨fun none => ?_, fun some => ⟨?_, ?_, fun room => ?_⟩⟩
  · rw [operator_eq_localized, none]
    rfl
  · rw [operator_exists_iff within some accepted unmeasured covered]
    exact checkCapacity_eq_ok_iff
  · rw [made]
    exact placed_eq_operator within distinct some accepted unmeasured covered name
  · have addressable : Addressable register.dims :=
      Register.addressable (checkCapacity_eq_ok_iff.mpr room)
    obtain ⟨u, full, built, dim, embedded, fullDim, performs⟩ :=
      (faithful_of_valid addressable within distinct some accepted unmeasured covered).factor
    refine ⟨u, full, built, dim, embedded, fullDim, made.trans ?_⟩
    exact Performs.operator_eq performs addressable fullDim

/-- A window in the opposite order of the register, with an exchange and with a shift of the
qutrit that the last qubit controls. -/
theorem operator_seen_from_register_backwards :
    let _ : Exponential ℝ := .taylor
    let register : Register := ⟨[2, 3, 2], by decide, by decide⟩
    let exchange : Instruction ℝ := .ofGate (.cex 1 0 2 0) [⟨2⟩, ⟨1⟩]
    let shift : Instruction ℝ := ⟨.gate .x, [⟨1⟩], some ⟨[⟨2⟩], [1]⟩⟩
    exchange.validate register = .ok () ∧ shift.validate register = .ok () ∧
      ∃ u full, Window.operator ⟨[⟨2⟩, ⟨1⟩], [exchange, shift], false⟩ register = .ok u ∧
        u.dim = 6 ∧ u.embed [2, 3, 2] [2, 1] [] = .ok full ∧ full.dim = 12 ∧
        (do (← (Circuit.empty "c" register).withInstructions [exchange, shift]).operator) =
          .ok full := by
  intro taylor register exchange shift
  have both : ∀ {property : Instruction ℝ → Prop}, property exchange → property shift →
      ∀ instruction ∈ [exchange, shift], property instruction :=
    fun first second => List.forall_mem_cons.mpr ⟨first, List.forall_mem_singleton.mpr second⟩
  obtain ⟨_, placed⟩ := operator_seen_from_register register
    ⟨[⟨2⟩, ⟨1⟩], [exchange, shift], false⟩ "c" (by decide) (by decide) (both rfl rfl)
    (both rfl rfl) (both (by decide) (by decide))
  obtain ⟨_, _, built⟩ := placed (List.cons_ne_nil _ _)
  exact ⟨rfl, rfl, built (by decide)⟩

/-- A window on no qudits has no operator, nor has one whose qudits have no room for it. A window on
the qubit of a register without room has one, but it cannot be embedded, and the circuit of its
instructions on the register has none. -/
theorem operator_unseen_from_register :
    let _ : Exponential ℝ := .taylor
    let register : Register := ⟨[2, 1073741824], by decide, by decide⟩
    let gate : Instruction ℝ := .ofGate (.unitary "u" (.zero 2)) [⟨0⟩]
    let window : Window ℝ := ⟨[⟨0⟩], [gate], false⟩
    operator (⟨[], [], false⟩ : Window ℝ) register = .error .emptyRegister ∧
      operator (⟨[⟨0⟩, ⟨1⟩], [gate], false⟩ : Window ℝ) register = .error .outOfRange ∧
      gate.validate register = .ok () ∧ (∃ u, window.operator register = .ok u ∧ u.dim = 2) ∧
      (do (← window.operator register).embed [2, 1073741824] [0] []) = .error .outOfRange ∧
      (do (← (Circuit.empty "c" register).withInstructions [gate]).operator) =
        .error .outOfRange := by
  intro taylor register gate window
  have valid : gate.Valid register := Instruction.validate_eq_ok_iff.mp rfl
  have accepted : ∀ instruction ∈ [gate], instruction.Valid register :=
    List.forall_mem_singleton.mpr valid
  have gates : ∀ instruction ∈ [gate], instruction.isMeasure = false :=
    List.forall_mem_singleton.mpr rfl
  have refused : Operator.checkDim (product [2, 1073741824]) = .error .outOfRange := rfl
  have appended : (Circuit.empty "c" register).withInstructions [gate] =
      .ok ⟨"c", register, [gate]⟩ := Circuit.withInstructions_eq_ok_iff.mpr ⟨accepted, rfl⟩
  refine ⟨rfl, ?_, rfl, ?_, ?_, ?_⟩
  · exact operator_refused_of_valid (by decide) (List.cons_ne_nil _ _) accepted
      (List.forall_mem_singleton.mpr (by decide)) refused
  · exact operator_exists_of_valid (by decide) (List.cons_ne_nil _ _) accepted
      (List.forall_mem_singleton.mpr (by decide)) gates rfl
  · exact placed_refused (by decide) (by decide) (List.cons_ne_nil _ _) accepted gates
      (List.forall_mem_singleton.mpr (by decide)) refused
  · rw [appended, Outcome.ok_bind]
    exact Circuit.operator_refused refused

end Window
end QuditSynth
