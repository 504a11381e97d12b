import QuditSynth.Circuit
import QuditSynth.Proofs.Gate.Operator
import QuditSynth.Proofs.Instruction.Validity

namespace QuditSynth

/-! # Operators of valid circuits

Validation is checked once, when an instruction enters a circuit. Everything
that is checked again while the operator is built follows from it: a circuit of
valid gates has an operator, and the only obstacle that is left is a measurement.
-/

theorem Register.addressable {register : Register}
    (room : Operator.checkDim (product register.dims) = .ok ()) : Addressable register.dims :=
  ⟨register.positive, room⟩

theorem Register.totalDimension_eq {register : Register}
    (addressable : Addressable register.dims) :
    register.totalDimension = .ok (product register.dims) :=
  addressable.wordProduct_eq

/-- The identity that products start from exists on addressable registers only: a total dimension
that does not fit in a word has no room for it either. -/
theorem Register.identityOn_totalDimension {R : Type} [Scalar R] (register : Register) :
    (register.totalDimension >>= Operator.identityOn (R := R)) =
      Operator.identityOn (product register.dims) := by
  rw [totalDimension, wordProduct_eq register.positive]
  by_cases fits : product register.dims < wordLimit
  · rw [word_of_lt fits, Outcome.ok_bind]
  · have refused : Operator.checkDim (product register.dims) = .error .outOfRange :=
      (Operator.checkDim_cases _).resolve_left fun room =>
        fits (Operator.lt_wordLimit_of_checkDim room)
    rw [word_refused fits, Operator.identityOn, refused, Outcome.error_bind, Outcome.error_bind]

theorem Register.addressable_of_identityOn {R : Type} [Scalar R] {register : Register}
    {start : Operator R} (made : Operator.identityOn (product register.dims) = .ok start) :
    Addressable register.dims ∧ start.dim = product register.dims := by
  obtain ⟨room, identity⟩ := Outcome.check_bind_eq_ok_iff.mp made
  obtain rfl := Except.ok.inj identity
  exact ⟨Register.addressable room, Operator.dim_identity _⟩

namespace Instruction

variable {R : Type} {instruction : Instruction R} {register : Register} {gate : Gate R}

theorem isMeasure_eq_true_iff : instruction.isMeasure = true ↔ instruction.action = .measure := by
  cases action : instruction.action <;> simp [isMeasure, gate?, action]

theorem isMeasure_eq_false_iff :
    instruction.isMeasure = false ↔ ∃ gate, instruction.action = .gate gate := by
  cases action : instruction.action <;> simp [isMeasure, gate?, action]

variable [Scalar R] [Exponential R]

/-- What happens to a valid gate on its way to the operator of a circuit. -/
theorem Valid.operator_stages (valid : instruction.Valid register)
    (addressable : Addressable register.dims) (acts : instruction.action = .gate gate) :
    ∃ inner u full,
      register.select instruction.qudits = .ok inner ∧
      inner.dims = Axis.targetDims register.dims (instruction.qudits.map Qudit.index) ∧
      gate.checkLevels inner.dims = .ok () ∧
      gate.operator inner.dims = .ok u ∧
      u.dim = product inner.dims ∧
      u.embed register.dims (instruction.qudits.map Qudit.index) instruction.controlPairs =
        .ok full ∧
      full.dim = product register.dims := by
  obtain ⟨inner, selected, dims, levels⟩ := valid.select_exists acts
  have innerAddressable : Addressable inner.dims := dims ▸ addressable.atTargets valid.positions
  obtain ⟨u, built, dim⟩ := Gate.operator_exists innerAddressable inner.two_le_of_mem levels
  obtain ⟨full, embedded, fullDim, _⟩ :=
    Operator.embed_exists addressable valid.positions valid.controlsFit (dims ▸ dim)
  exact ⟨inner, u, full, selected, dims, levels, built, dim, embedded, fullDim⟩

theorem Valid.operator_eq (valid : instruction.Valid register)
    (acts : instruction.action = .gate gate) {inner : Register}
    (selected : register.select instruction.qudits = .ok inner) {u : Operator R}
    (built : gate.operator inner.dims = .ok u) :
    instruction.operator register =
      u.embed register.dims (instruction.qudits.map Qudit.index) instruction.controlPairs := by
  have validated := validate_eq_ok_iff.mpr valid
  simp [operator, localOperator, gateOrError, gate?, acts, validated, selected, built]

theorem Valid.operator_exists (valid : instruction.Valid register)
    (addressable : Addressable register.dims) (gate : instruction.isMeasure = false) :
    ∃ full, instruction.operator register = .ok full ∧ full.dim = product register.dims := by
  obtain ⟨gate, acts⟩ := isMeasure_eq_false_iff.mp gate
  obtain ⟨inner, u, full, selected, _, _, built, _, embedded, fullDim⟩ :=
    valid.operator_stages addressable acts
  exact ⟨full, (valid.operator_eq acts selected built).trans embedded, fullDim⟩

theorem Valid.operator_measure (valid : instruction.Valid register)
    (measured : instruction.isMeasure = true) :
    instruction.operator register = .error (.nonUnitary "measure") := by
  have acts := isMeasure_eq_true_iff.mp measured
  have validated := validate_eq_ok_iff.mpr valid
  simp [operator, localOperator, gateOrError, gate?, name, acts, validated]

end Instruction

namespace Circuit

variable {R : Type} {circuit : Circuit R}

/-- Every instruction of the circuit is valid on its register. -/
def WellFormed (circuit : Circuit R) : Prop :=
  ∀ instruction ∈ circuit.instructions, instruction.Valid circuit.register

theorem withInstructions_eq_ok_iff {instructions : List (Instruction R)} {result : Circuit R} :
    circuit.withInstructions instructions = .ok result ↔
      (∀ instruction ∈ instructions, instruction.Valid circuit.register) ∧
        result = { circuit with instructions } := by
  simp only [withInstructions, Outcome.check_bind_eq_ok_iff, Outcome.forM_eq_ok_iff,
    Instruction.validate_eq_ok_iff, Outcome.pure_eq_ok, Except.ok.injEq]
  exact and_congr_right fun _ => eq_comm

variable [Scalar R] [Exponential R]

/-- The operator after some more instructions. -/
def applyAll (register : Register) (instructions : List (Instruction R)) (total : Operator R) :
    Except Error (Operator R) :=
  instructions.foldlM (fun total instruction => do
    (← instruction.operator register).compose total) total

theorem operator_eq_applyAll (circuit : Circuit R) :
    circuit.operator = (do
      applyAll circuit.register circuit.instructions
        (← Operator.identityOn (product circuit.register.dims))) := by
  rw [← Register.identityOn_totalDimension, bind_assoc]
  rfl

theorem applyAll_cons {register : Register} {instruction : Instruction R} {full total : Operator R}
    (instructions : List (Instruction R)) (built : instruction.operator register = .ok full)
    (same : full.dim = total.dim) :
    applyAll register (instruction :: instructions) total =
      applyAll register instructions (full * total) := by
  simp [applyAll, List.foldlM_cons, built, Operator.compose_eq_ok same]

theorem dim_of_applyAll {register : Register} {instructions : List (Instruction R)}
    {total result : Operator R} (applied : applyAll register instructions total = .ok result) :
    result.dim = total.dim := by
  induction instructions generalizing total with
  | nil =>
      cases applied
      rfl
  | cons instruction instructions ih =>
      rw [applyAll, List.foldlM_cons] at applied
      obtain ⟨next, stepped, applied⟩ := Outcome.bind_eq_ok_iff.mp applied
      obtain ⟨full, _, composed⟩ := Outcome.bind_eq_ok_iff.mp stepped
      exact (ih applied).trans (Operator.dim_of_compose composed)

/-- Valid instructions either all act, or the first measurement among them is reported. -/
theorem applyAll_outcome {register : Register} (addressable : Addressable register.dims)
    {instructions : List (Instruction R)}
    (valid : ∀ instruction ∈ instructions, instruction.Valid register) {total : Operator R}
    (dim : total.dim = product register.dims) :
    (instructions.any (·.isMeasure) = false ∧ ∃ result,
      applyAll register instructions total = .ok result ∧ result.dim = product register.dims) ∨
    (instructions.any (·.isMeasure) = true ∧
      applyAll register instructions total = .error (.nonUnitary "measure")) := by
  induction instructions generalizing total with
  | nil => exact Or.inl ⟨rfl, total, rfl, dim⟩
  | cons instruction instructions ih =>
      have first := valid instruction (by simp)
      cases kind : instruction.isMeasure with
      | true =>
          refine Or.inr ⟨by simp [kind], ?_⟩
          simp [applyAll, List.foldlM_cons, first.operator_measure kind]
      | false =>
          obtain ⟨full, built, fullDim⟩ := first.operator_exists addressable kind
          rw [applyAll_cons instructions built (fullDim.trans dim.symm), List.any_cons, kind,
            Bool.false_or]
          exact ih (fun other member => valid other (by simp [member])) fullDim

theorem operator_eq (addressable : Addressable circuit.register.dims) :
    circuit.operator = applyAll circuit.register circuit.instructions
      (Operator.identity (product circuit.register.dims)) := by
  simp [operator_eq_applyAll, Operator.identityOn, addressable.room]

/-- Without room for a matrix not even the operator of an empty circuit exists. -/
theorem operator_refused
    (refused : Operator.checkDim (product circuit.register.dims) = .error .outOfRange) :
    circuit.operator = .error .outOfRange := by
  simp [operator_eq_applyAll, Operator.identityOn, refused]

theorem operator_unaddressable
    (large : ¬ product circuit.register.dims * product circuit.register.dims * 16 < 2 ^ 63) :
    circuit.operator = .error .outOfRange :=
  operator_refused (if_neg large)

theorem dim_of_operator {u : Operator R} (built : circuit.operator = .ok u) :
    Addressable circuit.register.dims ∧ u.dim = product circuit.register.dims := by
  rw [operator_eq_applyAll] at built
  obtain ⟨start, made, applied⟩ := Outcome.bind_eq_ok_iff.mp built
  obtain ⟨addressable, dim⟩ := Register.addressable_of_identityOn made
  exact ⟨addressable, (dim_of_applyAll applied).trans dim⟩

theorem addressable_of_operator {u : Operator R} (built : circuit.operator = .ok u) :
    Addressable circuit.register.dims :=
  (dim_of_operator built).1

theorem operator_exists (wellFormed : circuit.WellFormed)
    (addressable : Addressable circuit.register.dims) (gates : circuit.hasMeasurement = false) :
    ∃ u, circuit.operator = .ok u ∧ u.dim = product circuit.register.dims := by
  rw [operator_eq addressable]
  rcases applyAll_outcome addressable wellFormed (Operator.dim_identity _) with
    ⟨_, built⟩ | ⟨measured, _⟩
  · exact built
  · exact absurd (gates.symm.trans measured) Bool.false_ne_true

theorem operator_measured (wellFormed : circuit.WellFormed)
    (addressable : Addressable circuit.register.dims) (measured : circuit.hasMeasurement = true) :
    circuit.operator = .error (.nonUnitary "measure") := by
  rw [operator_eq addressable]
  rcases applyAll_outcome addressable wellFormed (Operator.dim_identity _) with
    ⟨gates, _⟩ | ⟨_, refused⟩
  · exact absurd (gates.symm.trans measured) Bool.false_ne_true
  · exact refused

end Circuit
end QuditSynth
