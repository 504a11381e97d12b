import QuditSynth.Proofs.Exact.Circuit
import QuditSynth.Proofs.Exact.Phase
import QuditSynth.Proofs.Instruction.Localized
import QuditSynth.Proofs.Resynthesis.Windows

namespace QuditSynth

/-! # The operators of windows

A window has an operator on its own qudits. Placed on the register it is what
the instructions of the window perform there, so a circuit that is cut into
windows has the product of their placed operators as its operator.
-/

namespace Window

variable {R : Type} [Scalar R] [Exponential R]

/-- The operator of a window on the whole register. -/
def placed (window : Window R) (register : Register) : Except Error (Operator R) := do
  (← window.operator register).embed register.dims (window.qudits.map Qudit.index) []

/-- Multiplies by the placed operators of windows from the left, one after the other. -/
def applyAll (register : Register) (windows : List (Window R)) (total : Operator R) :
    Except Error (Operator R) :=
  windows.foldlM (fun total window => do (← window.placed register).compose total) total

/-- The product of the placed operators of windows, the last one leftmost. -/
def composed (register : Register) (windows : List (Window R)) : Except Error (Operator R) := do
  applyAll register windows (← Operator.identityOn (← register.totalDimension))

/-- The same qudits with other instructions. -/
def replacedBy (window : Window R) (instructions : List (Instruction R)) : Window R :=
  { window with instructions }

theorem operator_eq_localized (window : Window R) (register : Register) :
    window.operator register = (do
      let inner ← register.select window.qudits
      let circuit ← (Circuit.empty "window" inner).withInstructions
        (window.instructions.map (·.remap (positionIn window.qudits)))
      circuit.operator) := rfl

section Alone

variable {window : Window R} {register : Register}
  (within : ∀ qudit ∈ window.qudits, qudit.index < register.size) (some : window.qudits ≠ [])
  (valid : ∀ instruction ∈ window.instructions, instruction.Valid register)
  (covered : ∀ instruction ∈ window.instructions, ∀ qudit ∈ instruction.allQudits,
    qudit ∈ window.qudits)

include within some valid covered

omit [Scalar R] [Exponential R] in
/-- Valid instructions are accepted on the qudits of their window alone. -/
theorem accepted_of_valid : ∃ inner, register.select window.qudits = .ok inner ∧
    inner.dims = Axis.targetDims register.dims (window.qudits.map Qudit.index) ∧
    (Circuit.empty "window" inner).withInstructions
        (window.instructions.map (·.remap (positionIn window.qudits))) =
      .ok ⟨"window", inner, window.instructions.map (·.remap (positionIn window.qudits))⟩ := by
  obtain ⟨inner, selected, innerDims⟩ := Register.select_exists within some
  refine ⟨inner, selected, innerDims, Circuit.withInstructions_eq_ok_iff.mpr ⟨?_, rfl⟩⟩
  rw [List.forall_mem_map]
  intro instruction member
  exact (Instruction.valid_remap_iff selected (covered instruction member)).mpr
    (valid instruction member)

/-- The operator of a window is the one of a circuit on the qudits of the window. -/
theorem operator_eq_circuit : ∃ inner, register.select window.qudits = .ok inner ∧
    inner.dims = Axis.targetDims register.dims (window.qudits.map Qudit.index) ∧
    (∀ instruction ∈ window.instructions.map (·.remap (positionIn window.qudits)),
      instruction.Valid inner) ∧
    window.operator register =
      Circuit.operator
        ⟨"window", inner, window.instructions.map (·.remap (positionIn window.qudits))⟩ := by
  obtain ⟨inner, selected, innerDims, accepted⟩ := accepted_of_valid within some valid covered
  refine ⟨inner, selected, innerDims, (Circuit.withInstructions_eq_ok_iff.mp accepted).1, ?_⟩
  rw [operator_eq_localized, selected, Outcome.ok_bind, accepted, Outcome.ok_bind]

theorem operator_exists_of_valid
    (gates : ∀ instruction ∈ window.instructions, instruction.isMeasure = false)
    (room : Operator.checkDim
      (product (Axis.targetDims register.dims (window.qudits.map Qudit.index))) = .ok ()) :
    ∃ u, window.operator register = .ok u ∧
      u.dim = product (Axis.targetDims register.dims (window.qudits.map Qudit.index)) := by
  obtain ⟨inner, _, innerDims, moved, alone⟩ := operator_eq_circuit within some valid covered
  rw [alone, ← innerDims]
  rw [← innerDims] at room
  refine Circuit.operator_exists moved (Register.addressable room) ?_
  rw [Circuit.hasMeasurement, List.any_map]
  exact List.any_eq_false.mpr fun instruction member =>
    Bool.not_eq_true _ ▸ gates instruction member

theorem operator_refused_of_valid
    (refused : Operator.checkDim
      (product (Axis.targetDims register.dims (window.qudits.map Qudit.index))) =
        .error .outOfRange) :
    window.operator register = .error .outOfRange := by
  obtain ⟨inner, _, innerDims, _, alone⟩ := operator_eq_circuit within some valid covered
  rw [← innerDims] at refused
  rw [alone]
  exact Circuit.operator_refused refused

end Alone

end Window

variable [Exponential ℝ] {register : Register}

section Nested

variable {selection : List Qudit} {inner : Register} {instructions : List (Instruction ℝ)}

/-- Gates whose qudits are selected perform on the whole register what they perform on the
selected one, embedded. -/
theorem performs_nested (addressable : Addressable register.dims)
    (positions : Positions register.dims (selection.map Qudit.index))
    (selected : register.select selection = .ok inner)
    (valid : ∀ instruction ∈ instructions, instruction.Valid register)
    (gates : ∀ instruction ∈ instructions, instruction.isMeasure = false)
    (covered : ∀ instruction ∈ instructions, ∀ qudit ∈ instruction.allQudits, qudit ∈ selection) :
    ∃ small full : Operator ℝ, small.dim = product inner.dims ∧
      small.embed register.dims (selection.map Qudit.index) [] = .ok full ∧
      full.dim = product register.dims ∧
      Performs inner (instructions.map (·.remap (positionIn selection)))
        (small.toMatrix (product inner.dims)) ∧
      Performs register instructions (full.toMatrix (product register.dims)) := by
  obtain ⟨_, innerDims⟩ := Register.select_eq_ok_iff.mp selected
  have embeddable : ∀ small : Operator ℝ, small.dim = product inner.dims →
      small.dim = product (Axis.targetDims register.dims (selection.map Qudit.index)) :=
    fun small dim => dim.trans (by rw [innerDims])
  induction instructions with
  | nil =>
      refine ⟨.identity (product inner.dims), .identity (product register.dims),
        Operator.dim_identity _, ?_, Operator.dim_identity _, ?_, ?_⟩
      · rw [innerDims]
        exact Operator.embed_identity addressable positions Operator.controlsFit_nil
      · rw [Operator.toMatrix_identity]
        exact performs_nil
      · rw [Operator.toMatrix_identity]
        exact performs_nil
  | cons instruction instructions ih =>
      obtain ⟨validFirst, validRest⟩ := List.forall_mem_cons.mp valid
      obtain ⟨gateFirst, gatesRest⟩ := List.forall_mem_cons.mp gates
      obtain ⟨coveredFirst, coveredRest⟩ := List.forall_mem_cons.mp covered
      obtain ⟨first, built, firstDim, nested⟩ := validFirst.operator_nested selected coveredFirst
        Operator.honestZero_exact addressable positions gateFirst
      obtain ⟨firstFull, firstBuilt, firstFullDim⟩ :=
        validFirst.operator_exists addressable gateFirst
      obtain ⟨rest, restFull, restDim, restEmbedded, restFullDim, performsRest, performsRestFull⟩ :=
        ih validRest gatesRest coveredRest
      refine ⟨rest * first, restFull * firstFull, restDim, ?_, restFullDim, ?_, ?_⟩
      · exact Operator.embed_mul addressable positions Operator.controlsFit_nil
          (embeddable rest restDim) (embeddable first firstDim) restEmbedded
          (nested.trans firstBuilt)
      · rw [Operator.toMatrix_mul restDim]
        exact (performs_single built firstDim).append performsRest
      · rw [Operator.toMatrix_mul restFullDim]
        exact (performs_single firstBuilt firstFullDim).append performsRestFull

end Nested

namespace Window

variable {window : Window ℝ}

/-- The window has an operator, which placed on the register is what its instructions perform
there. -/
structure Faithful (window : Window ℝ) (register : Register) : Prop where
  positions : Positions register.dims (window.qudits.map Qudit.index)
  factor : ∃ small full, window.operator register = .ok small ∧
    small.dim = product (Axis.targetDims register.dims (window.qudits.map Qudit.index)) ∧
    small.embed register.dims (window.qudits.map Qudit.index) [] = .ok full ∧
    full.dim = product register.dims ∧
    Performs register window.instructions (full.toMatrix (product register.dims))

theorem faithful_of_valid (addressable : Addressable register.dims)
    (within : ∀ qudit ∈ window.qudits, qudit.index < register.size)
    (distinct : window.qudits.Nodup) (some : window.qudits ≠ [])
    (valid : ∀ instruction ∈ window.instructions, instruction.Valid register)
    (gates : ∀ instruction ∈ window.instructions, instruction.isMeasure = false)
    (covered : ∀ instruction ∈ window.instructions, ∀ qudit ∈ instruction.allQudits,
      qudit ∈ window.qudits) : window.Faithful register := by
  obtain ⟨inner, selected, innerDims, _, alone⟩ := operator_eq_circuit within some valid covered
  have positions : Positions register.dims (window.qudits.map Qudit.index) :=
    ⟨List.forall_mem_map.mpr within, (List.nodup_map_iff Qudit.index_injective).mpr distinct⟩
  obtain ⟨small, full, smallDim, embedded, fullDim, performsInner, performs⟩ :=
    performs_nested addressable positions selected valid gates covered
  have innerAddressable : Addressable inner.dims := innerDims ▸ addressable.atTargets positions
  have built : window.operator register = .ok small :=
    alone.trans (performsInner.operator_eq innerAddressable smallDim)
  exact ⟨positions, small, full, built, smallDim.trans (by rw [innerDims]), embedded, fullDim,
    performs⟩

theorem placed_eq_ok {small full : Operator ℝ} (built : window.operator register = .ok small)
    (embedded : small.embed register.dims (window.qudits.map Qudit.index) [] = .ok full) :
    window.placed register = .ok full := by
  rw [placed, built, Outcome.ok_bind, embedded]

theorem applyAll_cons {full total : Operator ℝ} (windows : List (Window ℝ))
    (placed : window.placed register = .ok full) (same : full.dim = total.dim) :
    applyAll register (window :: windows) total = applyAll register windows (full * total) := by
  simp [applyAll, List.foldlM_cons, placed, Operator.compose_eq_ok same]

/-- Running the instructions of windows multiplies by their placed operators. -/
theorem applyAll_eq {windows : List (Window ℝ)}
    (faithful : ∀ window ∈ windows, window.Faithful register) {total : Operator ℝ}
    (dim : total.dim = product register.dims) :
    Circuit.applyAll register (windows.flatMap Window.instructions) total =
      applyAll register windows total := by
  induction windows generalizing total with
  | nil => rfl
  | cons window windows ih =>
      obtain ⟨first, others⟩ := List.forall_mem_cons.mp faithful
      obtain ⟨small, full, built, _, embedded, fullDim, performs⟩ := first.factor
      obtain ⟨result, run, resultDim, matrix⟩ := performs total dim
      have productDim : (full * total).dim = product register.dims := fullDim
      have multiplied : result = full * total :=
        Operator.eq_of_toMatrix resultDim productDim
          (matrix.trans (Operator.toMatrix_mul fullDim).symm)
      have placed : window.placed register = .ok full := placed_eq_ok built embedded
      rw [applyAll_cons windows placed (fullDim.trans dim.symm), ← ih others productDim,
        ← multiplied, List.flatMap_cons, Circuit.applyAll, List.foldlM_append]
      exact congrArg (· >>= _) run

theorem composed_eq_applyAll (register : Register) (windows : List (Window ℝ)) :
    composed register windows = (do
      applyAll register windows (← Operator.identityOn (product register.dims))) := by
  rw [← Register.identityOn_totalDimension, bind_assoc]
  rfl

/-- A circuit in windows is the product of its windows, and fails as that product does. -/
theorem operator_eq_composed {circuit : Circuit ℝ} {windows : List (Window ℝ)}
    (pieces : windows.flatMap Window.instructions = circuit.instructions)
    (faithful : Addressable circuit.register.dims →
      ∀ window ∈ windows, window.Faithful circuit.register) :
    circuit.operator = composed circuit.register windows := by
  rw [Circuit.operator_eq_applyAll, composed_eq_applyAll]
  cases made : Operator.identityOn (R := ℝ) (product circuit.register.dims) with
  | error cause => rfl
  | ok start =>
      obtain ⟨addressable, dim⟩ := Register.addressable_of_identityOn made
      rw [Outcome.ok_bind, Outcome.ok_bind, ← pieces]
      exact applyAll_eq (faithful addressable) dim

theorem applyAll_exists {windows : List (Window ℝ)}
    (faithful : ∀ window ∈ windows, window.Faithful register) {total : Operator ℝ}
    (dim : total.dim = product register.dims) : ∃ u, applyAll register windows total = .ok u := by
  induction windows generalizing total with
  | nil => exact ⟨total, rfl⟩
  | cons window windows ih =>
      obtain ⟨first, others⟩ := List.forall_mem_cons.mp faithful
      obtain ⟨small, full, built, _, embedded, fullDim, _⟩ := first.factor
      rw [applyAll_cons windows (placed_eq_ok built embedded) (fullDim.trans dim.symm)]
      exact ih others fullDim

theorem composed_exists (addressable : Addressable register.dims) {windows : List (Window ℝ)}
    (faithful : ∀ window ∈ windows, window.Faithful register) :
    ∃ u, composed register windows = .ok u := by
  have start : Operator.identityOn (product register.dims) =
      .ok (Operator.identity (R := ℝ) (product register.dims)) := by
    simp [Operator.identityOn, addressable.room]
  rw [composed_eq_applyAll, start, Outcome.ok_bind]
  exact applyAll_exists faithful (Operator.dim_identity _)

/-- Operators of windows that agree up to a phase still do so once they are placed. -/
theorem placed_agree {other : Window ℝ} (addressable : Addressable register.dims)
    (faithful : window.Faithful register) (otherFaithful : other.Faithful register)
    (qudits : other.qudits = window.qudits)
    (agree : AgreeUpToPhase (window.operator register) (other.operator register)) :
    ∃ full otherFull, window.placed register = .ok full ∧ other.placed register = .ok otherFull ∧
      full.dim = product register.dims ∧ full.SameUpToPhase otherFull := by
  obtain ⟨small, full, built, dim, embedded, fullDim, _⟩ := faithful.factor
  obtain ⟨otherSmall, otherFull, otherBuilt, _, otherEmbedded, _⟩ := otherFaithful.factor
  rw [built, otherBuilt] at agree
  refine ⟨full, otherFull, placed_eq_ok built embedded, placed_eq_ok otherBuilt otherEmbedded,
    fullDim, ?_⟩
  rw [qudits] at otherEmbedded
  exact Operator.SameUpToPhase.embed agree addressable faithful.positions dim embedded otherEmbedded

/-- Two windows on the same qudits whose operators agree up to a phase. -/
def Alike (register : Register) (window other : Window ℝ) : Prop :=
  window.Faithful register ∧ other.Faithful register ∧ other.qudits = window.qudits ∧
    AgreeUpToPhase (window.operator register) (other.operator register)

theorem applyAll_agree (addressable : Addressable register.dims) {windows others : List (Window ℝ)}
    (alike : List.Forall₂ (Alike register) windows others) {total other : Operator ℝ}
    (dim : total.dim = product register.dims) (same : total.SameUpToPhase other) :
    AgreeUpToPhase (applyAll register windows total) (applyAll register others other) := by
  induction alike generalizing total other with
  | nil => exact same
  | cons first _ ih =>
      obtain ⟨faithful, otherFaithful, qudits, agree⟩ := first
      obtain ⟨full, otherFull, placed, otherPlaced, fullDim, sameFull⟩ :=
        placed_agree addressable faithful otherFaithful qudits agree
      have fullTotal : full.dim = total.dim := fullDim.trans dim.symm
      rw [applyAll_cons _ placed fullTotal,
        applyAll_cons _ otherPlaced (sameFull.1.symm.trans (fullTotal.trans same.1))]
      exact ih fullDim (sameFull.mul same fullTotal)

theorem composed_agree {windows others : List (Window ℝ)}
    (alike : Addressable register.dims → List.Forall₂ (Alike register) windows others) :
    AgreeUpToPhase (composed register windows) (composed register others) := by
  rw [composed_eq_applyAll, composed_eq_applyAll]
  cases made : Operator.identityOn (R := ℝ) (product register.dims) with
  | error cause => exact AgreeUpToPhase.refl _
  | ok start =>
      obtain ⟨addressable, dim⟩ := Register.addressable_of_identityOn made
      exact applyAll_agree addressable (alike addressable) dim (.refl start)

end Window
end QuditSynth
