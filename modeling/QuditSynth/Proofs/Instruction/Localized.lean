import QuditSynth.Proofs.Circuit.Operator
import QuditSynth.Proofs.Operator.Nesting

namespace QuditSynth

/-! # Instructions seen from a selection of qudits

An instruction whose qudits are among some selected ones is moved to their
register by naming each qudit by its position in the selection. It is valid
there exactly when it is valid on the whole register, and embedding its operator
through the selection gives the operator on the whole register.
-/

variable {R : Type} {register inner : Register} {selection : List Qudit}
  {instruction : Instruction R}

/-- The position of a qudit in a selection, as a qudit of the selected register. -/
def positionIn (selection : List Qudit) (qudit : Qudit) : Qudit :=
  ⟨(selection.findIdx? (· = qudit)).getD 0⟩

theorem positionIn_spec {qudit : Qudit} (member : qudit ∈ selection) :
    selection[(positionIn selection qudit).index]? = some qudit := by
  have found : selection.findIdx? (· = qudit) = some (selection.findIdx (· = qudit)) :=
    List.findIdx?_eq_some_of_exists ⟨qudit, member, by simp⟩
  have within : selection.findIdx (· = qudit) < selection.length :=
    List.findIdx_lt_length_of_exists ⟨qudit, member, by simp⟩
  have there : selection[selection.findIdx (· = qudit)] = qudit := by
    simpa using List.findIdx_getElem (w := within)
  simp [positionIn, found, there, within]

theorem positionIn_lt {qudit : Qudit} (member : qudit ∈ selection) :
    (positionIn selection qudit).index < selection.length :=
  (List.getElem?_eq_some_iff.mp (positionIn_spec member)).1

theorem positionIn_inj {first second : Qudit} (firstIn : first ∈ selection)
    (secondIn : second ∈ selection)
    (same : positionIn selection first = positionIn selection second) : first = second := by
  have atFirst := positionIn_spec firstIn
  rw [same, positionIn_spec secondIn] at atFirst
  exact (Option.some.inj atFirst).symm

/-- Going through the selection leads back to the qudit. -/
theorem getD_positionIn {qudit : Qudit} (member : qudit ∈ selection) :
    (selection.map Qudit.index).getD (positionIn selection qudit).index 0 = qudit.index := by
  rw [List.getD_eq_getElem?_getD, List.getElem?_map, positionIn_spec member]
  rfl

/-- A selected qudit keeps its dimension. -/
theorem dims_positionIn (dims : List Nat) {qudit : Qudit} (member : qudit ∈ selection) :
    (Axis.targetDims dims (selection.map Qudit.index)).getD (positionIn selection qudit).index 1 =
      dims.getD qudit.index 1 := by
  rw [Axis.targetDims, List.map_map, List.getD_eq_getElem?_getD, List.getElem?_map,
    positionIn_spec member]
  rfl

theorem through_positionIn {qudits : List Qudit} (covered : ∀ qudit ∈ qudits, qudit ∈ selection) :
    through (selection.map Qudit.index) ((qudits.map (positionIn selection)).map Qudit.index) =
      qudits.map Qudit.index := by
  rw [through, List.map_map, List.map_map]
  exact List.map_congr_left fun qudit member => getD_positionIn (covered qudit member)

theorem targetDims_positionIn (dims : List Nat) {qudits : List Qudit}
    (covered : ∀ qudit ∈ qudits, qudit ∈ selection) :
    Axis.targetDims (Axis.targetDims dims (selection.map Qudit.index))
        ((qudits.map (positionIn selection)).map Qudit.index) =
      Axis.targetDims dims (qudits.map Qudit.index) := by
  simp only [Axis.targetDims, List.map_map]
  refine List.map_congr_left fun qudit member => ?_
  rw [← List.map_map]
  exact dims_positionIn dims (covered qudit member)

namespace Instruction

theorem allQudits_remap (instruction : Instruction R) (f : Qudit → Qudit) :
    (instruction.remap f).allQudits = instruction.allQudits.map f := by
  cases present : instruction.controls <;>
    simp [remap, allQudits, controlQudits, Controls.map, present]

theorem isControlled_remap (instruction : Instruction R) (f : Qudit → Qudit) :
    (instruction.remap f).isControlled = instruction.isControlled := by
  cases present : instruction.controls <;>
    simp [remap, isControlled, controlQudits, Controls.map, present]

theorem throughControls_remap
    (covered : ∀ qudit ∈ instruction.allQudits, qudit ∈ selection) :
    throughControls (selection.map Qudit.index)
        (instruction.remap (positionIn selection)).controlPairs = instruction.controlPairs := by
  cases present : instruction.controls with
  | none => simp [remap, controlPairs, present, throughControls]
  | some controls =>
      simp only [throughControls, controlPairs, remap, present, Option.map_some, Option.getD_some,
        Controls.map, Controls.pairs, List.zip_map_left, List.map_map]
      refine List.map_congr_left fun control member => Prod.ext ?_ rfl
      have isControl : control.1 ∈ instruction.controlQudits := by
        simpa [controlQudits, present] using (List.of_mem_zip member).1
      exact getD_positionIn (covered control.1 (List.mem_append_right _ isControl))

section Selected

variable (selected : register.select selection = .ok inner)
  (covered : ∀ qudit ∈ instruction.allQudits, qudit ∈ selection)

include selected covered

/-- The checks of an instruction come out alike on the selected and on the whole register. -/
theorem valid_remap_iff :
    (instruction.remap (positionIn selection)).Valid inner ↔ instruction.Valid register := by
  obtain ⟨selectionWithin, innerDims⟩ := Register.select_eq_ok_iff.mp selected
  have coveredTargets : ∀ qudit ∈ instruction.qudits, qudit ∈ selection :=
    fun qudit member => covered qudit (List.mem_append_left _ member)
  have targetDims : Axis.targetDims inner.dims
      ((instruction.remap (positionIn selection)).qudits.map Qudit.index) =
        Axis.targetDims register.dims (instruction.qudits.map Qudit.index) := by
    rw [innerDims]
    exact targetDims_positionIn register.dims coveredTargets
  have innerWithin : ∀ qudit ∈ (instruction.remap (positionIn selection)).allQudits,
      qudit.index < inner.size := by
    rw [allQudits_remap, List.forall_mem_map]
    intro qudit member
    simpa [Register.size, innerDims] using positionIn_lt (covered qudit member)
  have distinct : (instruction.remap (positionIn selection)).allQudits.Nodup ↔
      instruction.allQudits.Nodup := by
    rw [allQudits_remap]
    refine ⟨List.Nodup.of_map _, fun distinct => distinct.map_on ?_⟩
    intro first firstIn second secondIn
    exact positionIn_inj (covered first firstIn) (covered second secondIn)
  have levelled : (∀ controls, (instruction.remap (positionIn selection)).controls = some controls →
      controls.qudits.length = controls.levels.length ∧
        ∀ control ∈ controls.qudits.zip controls.levels,
          control.2 < inner.dims.getD control.1.index 1) ↔
      ∀ controls, instruction.controls = some controls →
        controls.qudits.length = controls.levels.length ∧
          ∀ control ∈ controls.qudits.zip controls.levels,
            control.2 < register.dims.getD control.1.index 1 := by
    cases present : instruction.controls with
    | none => simp [remap, present]
    | some controls =>
        simp only [remap, present, Option.map_some, Option.some.injEq, forall_eq', Controls.map,
          List.length_map, List.zip_map_left, List.forall_mem_map]
        refine and_congr_right fun _ => forall₂_congr fun control member => ?_
        have isControl : control.1 ∈ instruction.controlQudits := by
          simpa [controlQudits, present] using (List.of_mem_zip member).1
        rw [innerDims]
        exact iff_of_eq (congrArg (control.2 < ·) (dims_positionIn register.dims
          (covered control.1 (List.mem_append_right _ isControl))))
  constructor
  · intro valid
    refine ⟨fun qudit member => selectionWithin qudit (covered qudit member),
      distinct.mp valid.distinct, levelled.mp valid.levelled, ?_⟩
    cases action : instruction.action with
    | gate gate =>
        obtain ⟨operands, levels⟩ := valid.gate_suited action
        rw [targetDims] at levels
        exact ⟨by simpa [remap] using operands, levels⟩
    | measure =>
        have suited := valid.suited
        rw [show (instruction.remap (positionIn selection)).action = .measure from action,
          isControlled_remap] at suited
        simpa [remap] using suited
  · intro valid
    refine ⟨innerWithin, distinct.mpr valid.distinct, levelled.mpr valid.levelled, ?_⟩
    rw [show (instruction.remap (positionIn selection)).action = instruction.action from rfl]
    cases action : instruction.action with
    | gate gate =>
        obtain ⟨operands, levels⟩ := valid.gate_suited action
        rw [← targetDims] at levels
        exact ⟨by simpa [remap] using operands, levels⟩
    | measure =>
        have suited := valid.suited
        rw [action] at suited
        rw [isControlled_remap]
        simpa [remap] using suited

/-- Embedded through the selection, the operator on the selected register is the operator on the
whole register. -/
theorem Valid.operator_nested [Scalar R] [Exponential R] (honest : Operator.HonestZero R)
    (valid : instruction.Valid register) (addressable : Addressable register.dims)
    (positions : Positions register.dims (selection.map Qudit.index))
    (gate : instruction.isMeasure = false) :
    ∃ small, (instruction.remap (positionIn selection)).operator inner = .ok small ∧
      small.dim = product inner.dims ∧
      small.embed register.dims (selection.map Qudit.index) [] = instruction.operator register := by
  obtain ⟨gate, acts⟩ := isMeasure_eq_false_iff.mp gate
  obtain ⟨_, innerDims⟩ := Register.select_eq_ok_iff.mp selected
  have coveredTargets : ∀ qudit ∈ instruction.qudits, qudit ∈ selection :=
    fun qudit member => covered qudit (List.mem_append_left _ member)
  have moved := (valid_remap_iff selected covered).mpr valid
  have small := addressable.atTargets positions
  rw [← innerDims] at small
  obtain ⟨operands, u, _, chosen, dims, _, built, dim, _⟩ :=
    valid.operator_stages addressable acts
  obtain ⟨movedOperands, _, _, movedChosen, movedDims, _⟩ := moved.operator_stages small acts
  have sameDims : movedOperands.dims = operands.dims := by
    rw [movedDims, dims, innerDims]
    exact targetDims_positionIn register.dims coveredTargets
  rw [valid.operator_eq acts chosen built,
    moved.operator_eq acts movedChosen (sameDims.symm ▸ built)]
  have movedPositions := moved.positions
  have movedControls := moved.controlsFit
  rw [innerDims] at movedPositions movedControls ⊢
  have targets : through (selection.map Qudit.index)
      ((instruction.remap (positionIn selection)).qudits.map Qudit.index) =
        instruction.qudits.map Qudit.index := through_positionIn coveredTargets
  rw [← targets, ← throughControls_remap covered]
  exact Operator.embed_embed honest addressable positions movedPositions movedControls
    (by rw [dim, ← sameDims, movedDims, innerDims])

end Selected
end Instruction
end QuditSynth
