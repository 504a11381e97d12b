import QuditSynth.Instruction
import QuditSynth.Proofs.Operator.Embedding

namespace QuditSynth

/-! # Valid instructions

`Instruction.validate` runs its checks one after another and reports the first
that fails. `Instruction.Valid` says what it means that none does, and the
checks of selection and embedding follow from it.
-/

theorem Qudit.index_injective : Function.Injective Qudit.index := by
  rintro ⟨first⟩ ⟨second⟩ equal
  exact congrArg Qudit.mk equal

namespace Register

variable {register : Register} {dims : List Nat} {qudit : Qudit} {qudits : List Qudit}

theorem positive (register : Register) : ∀ dim ∈ register.dims, 0 < dim :=
  fun dim member => Nat.lt_of_lt_of_le Nat.zero_lt_two (register.two_le_of_mem dim member)

theorem ofDims_eq_ok_iff : ofDims dims = .ok register ↔ register.dims = dims := by
  constructor
  · intro accepted
    unfold ofDims at accepted
    split at accepted
    · cases accepted
    · split at accepted
      · cases accepted
      · cases accepted
        rfl
  · rintro rfl
    unfold ofDims
    rw [dif_neg register.dims_ne_nil]
    split
    · next dim found =>
      have small := List.find?_some found
      have large := register.two_le_of_mem dim (List.mem_of_find?_eq_some found)
      simp only [decide_eq_true_eq] at small
      omega
    · rfl

theorem dimensionOf_eq_ok_iff {dim : Nat} :
    register.dimensionOf qudit = .ok dim ↔
      qudit.index < register.size ∧ register.dims.getD qudit.index 1 = dim := by
  unfold dimensionOf size
  by_cases within : qudit.index < register.dims.length
  · simp [within]
  · simp [within]

theorem mapM_dimensionOf_eq_ok_iff :
    qudits.mapM register.dimensionOf = .ok dims ↔
      (∀ qudit ∈ qudits, qudit.index < register.size) ∧
        Axis.targetDims register.dims (qudits.map Qudit.index) = dims := by
  rw [Outcome.mapM_eq_ok_iff]
  induction qudits generalizing dims with
  | nil => simp [eq_comm]
  | cons qudit qudits ih =>
      rw [List.forall₂_cons_left_iff, List.forall_mem_cons, List.map_cons, Axis.targetDims_cons]
      constructor
      · rintro ⟨dim, rest, found, others, rfl⟩
        obtain ⟨within, rfl⟩ := dimensionOf_eq_ok_iff.mp found
        obtain ⟨othersWithin, rfl⟩ := ih.mp others
        exact ⟨⟨within, othersWithin⟩, rfl⟩
      · rintro ⟨⟨within, othersWithin⟩, rfl⟩
        exact ⟨_, _, dimensionOf_eq_ok_iff.mpr ⟨within, rfl⟩, ih.mpr ⟨othersWithin, rfl⟩, rfl⟩

theorem select_eq_ok_iff {inner : Register} :
    register.select qudits = .ok inner ↔
      (∀ qudit ∈ qudits, qudit.index < register.size) ∧
        inner.dims = Axis.targetDims register.dims (qudits.map Qudit.index) := by
  simp only [select, Outcome.bind_eq_ok_iff, mapM_dimensionOf_eq_ok_iff, ofDims_eq_ok_iff]
  constructor
  · rintro ⟨dims, ⟨within, targetDims⟩, innerDims⟩
    exact ⟨within, innerDims.trans targetDims.symm⟩
  · rintro ⟨within, innerDims⟩
    exact ⟨_, ⟨within, rfl⟩, innerDims⟩

/-- Qudits of a register can be selected as soon as there are any. -/
theorem select_exists (within : ∀ qudit ∈ qudits, qudit.index < register.size)
    (some : qudits ≠ []) :
    ∃ inner, register.select qudits = .ok inner ∧
      inner.dims = Axis.targetDims register.dims (qudits.map Qudit.index) := by
  let inner : Register :=
    { dims := Axis.targetDims register.dims (qudits.map Qudit.index)
      dims_ne_nil := by simpa [Axis.targetDims] using some
      two_le_of_mem := by
        intro dim member
        simp only [Axis.targetDims, List.map_map, List.mem_map, Function.comp_apply] at member
        obtain ⟨qudit, selected, rfl⟩ := member
        rw [List.getD_eq_getElem _ _ (within qudit selected)]
        exact register.two_le_of_mem _ (List.getElem_mem _) }
  exact ⟨inner, select_eq_ok_iff.mpr ⟨within, rfl⟩, rfl⟩

end Register

namespace Instruction

variable {R : Type} {instruction : Instruction R} {register : Register} {name : String}

/-- The operands of instructions are checked as the targets of operators are. -/
theorem checkQudits_eq_ok_iff {size : Nat} {seen qudits : List Qudit} :
    checkQudits name size seen qudits = .ok () ↔
      Operator.checkTargets size (seen.map Qudit.index) (qudits.map Qudit.index) = .ok () := by
  induction qudits generalizing seen with
  | nil => simp [checkQudits, Operator.checkTargets]
  | cons qudit qudits ih =>
      have sameMember : qudit.index ∈ seen.map Qudit.index ↔ qudit ∈ seen :=
        List.mem_map_of_injective Qudit.index_injective
      simp only [checkQudits, List.map_cons, Operator.checkTargets, sameMember]
      split
      · simp
      · split
        · simp
        · exact ih

theorem checkControls_eq_ok_iff {controls : Controls} :
    checkControls name register controls = .ok () ↔
      controls.qudits.length = controls.levels.length ∧
        ∀ control ∈ controls.qudits.zip controls.levels,
          control.1.index < register.size ∧ control.2 < register.dims.getD control.1.index 1 := by
  by_cases levelled : controls.qudits.length = controls.levels.length
  · simp only [checkControls, levelled, ne_eq, not_true_eq_false, ↓reduceIte, Outcome.pure_eq_ok,
      Outcome.forM_eq_ok_iff, true_and]
    refine forall₂_congr fun control _ => ?_
    rw [Outcome.bind_eq_ok_iff]
    constructor
    · rintro ⟨dim, found, inside⟩
      obtain ⟨within, rfl⟩ := Register.dimensionOf_eq_ok_iff.mp found
      refine ⟨within, Nat.lt_of_not_le fun outside => ?_⟩
      rw [if_pos outside] at inside
      cases inside
    · rintro ⟨within, inside⟩
      refine ⟨_, Register.dimensionOf_eq_ok_iff.mpr ⟨within, rfl⟩, ?_⟩
      rw [if_neg (Nat.not_le.mpr inside)]
  · simp [checkControls, levelled]

/-- What the checks of an instruction ask for. -/
structure Valid (instruction : Instruction R) (register : Register) : Prop where
  within : ∀ qudit ∈ instruction.allQudits, qudit.index < register.size
  distinct : instruction.allQudits.Nodup
  levelled : ∀ controls, instruction.controls = some controls →
    controls.qudits.length = controls.levels.length ∧
      ∀ control ∈ controls.qudits.zip controls.levels,
        control.2 < register.dims.getD control.1.index 1
  suited : match instruction.action with
    | .gate gate => instruction.qudits ≠ [] ∧
        gate.checkLevels (Axis.targetDims register.dims (instruction.qudits.map Qudit.index)) =
          .ok ()
    | .measure => instruction.qudits.length = 1 ∧ instruction.isControlled = false

theorem checkGate_eq_ok_iff {gate : Gate R} {qudits : List Qudit}
    (within : ∀ qudit ∈ qudits, qudit.index < register.size) :
    checkGate register gate qudits = .ok () ↔
      qudits ≠ [] ∧
        gate.checkLevels (Axis.targetDims register.dims (qudits.map Qudit.index)) = .ok () := by
  by_cases none : qudits = []
  · simp [checkGate, none]
  · obtain ⟨inner, selected, dims⟩ := Register.select_exists within none
    simp [checkGate, none, selected, dims]

theorem validate_eq_ok_iff :
    instruction.validate register = .ok () ↔ instruction.Valid register := by
  have operands : checkQudits instruction.name register.size [] instruction.allQudits = .ok () ↔
      (∀ qudit ∈ instruction.allQudits, qudit.index < register.size) ∧
        instruction.allQudits.Nodup := by
    rw [checkQudits_eq_ok_iff, Operator.checkTargets_eq_ok_iff,
      List.nodup_map_iff Qudit.index_injective]
    simp
  have controls : instruction.controls.forM (checkControls instruction.name register) = .ok () ↔
      ∀ controls, instruction.controls = some controls →
        checkControls instruction.name register controls = .ok () := by
    cases instruction.controls with
    | none => simp
    | some controls => simp
  unfold validate
  rw [Outcome.check_bind_eq_ok_iff, Outcome.check_bind_eq_ok_iff, operands, controls]
  constructor
  · rintro ⟨⟨within, distinct⟩, levelled, suited⟩
    refine ⟨within, distinct, fun controls present => ?_, ?_⟩
    · obtain ⟨lengths, levels⟩ := checkControls_eq_ok_iff.mp (levelled controls present)
      exact ⟨lengths, fun control member => (levels control member).2⟩
    · cases action : instruction.action with
      | gate gate =>
          rw [action] at suited
          exact (checkGate_eq_ok_iff fun qudit member =>
            within qudit (List.mem_append_left _ member)).mp suited
      | measure =>
          rw [action] at suited
          simpa using suited
  · rintro ⟨within, distinct, levelled, suited⟩
    refine ⟨⟨within, distinct⟩, fun controls present => ?_, ?_⟩
    · obtain ⟨lengths, levels⟩ := levelled controls present
      refine checkControls_eq_ok_iff.mpr ⟨lengths, fun control member =>
        ⟨within control.1 (List.mem_append_right _ ?_), levels control member⟩⟩
      simpa [controlQudits, present] using (List.of_mem_zip member).1
    · cases action : instruction.action with
      | gate gate =>
          rw [action] at suited
          exact (checkGate_eq_ok_iff fun qudit member =>
            within qudit (List.mem_append_left _ member)).mpr suited
      | measure =>
          rw [action] at suited
          simp [suited]

namespace Valid

variable (valid : instruction.Valid register)

include valid

theorem within_targets : ∀ qudit ∈ instruction.qudits, qudit.index < register.size :=
  fun qudit member => valid.within qudit (List.mem_append_left _ member)

theorem positions : Positions register.dims (instruction.qudits.map Qudit.index) where
  within := by
    intro position member
    obtain ⟨qudit, isTarget, rfl⟩ := List.mem_map.mp member
    exact valid.within_targets qudit isTarget
  distinct := (List.nodup_map_iff Qudit.index_injective).mpr
    (List.nodup_append.mp valid.distinct).1

theorem controlsFit :
    Operator.ControlsFit register.dims (instruction.qudits.map Qudit.index)
      instruction.controlPairs := by
  intro control member
  cases present : instruction.controls with
  | none => simp [controlPairs, present] at member
  | some controls =>
      simp only [controlPairs, present, Option.map_some, Option.getD_some, Controls.pairs,
        List.zip_map_left, List.mem_map] at member
      obtain ⟨source, isControl, rfl⟩ := member
      have inControls : source.1 ∈ instruction.controlQudits := by
        simpa [controlQudits, present] using (List.of_mem_zip isControl).1
      refine ⟨valid.within source.1 (List.mem_append_right _ inControls), ?_,
        (valid.levelled controls present).2 source isControl⟩
      change source.1.index ∉ _
      rw [List.mem_map_of_injective Qudit.index_injective]
      exact fun isTarget => (List.nodup_append.mp valid.distinct).2.2 _ isTarget _ inControls rfl

theorem gate_suited {gate : Gate R} (acts : instruction.action = .gate gate) :
    instruction.qudits ≠ [] ∧
      gate.checkLevels (Axis.targetDims register.dims (instruction.qudits.map Qudit.index)) =
        .ok () := by
  have suited := valid.suited
  rwa [acts] at suited

/-- Selecting the operands of a valid gate gives the dimensions that the gate was checked on. -/
theorem select_exists {gate : Gate R} (acts : instruction.action = .gate gate) :
    ∃ inner, register.select instruction.qudits = .ok inner ∧
      inner.dims = Axis.targetDims register.dims (instruction.qudits.map Qudit.index) ∧
      gate.checkLevels inner.dims = .ok () := by
  obtain ⟨some, levels⟩ := valid.gate_suited acts
  obtain ⟨inner, selected, dims⟩ := Register.select_exists valid.within_targets some
  exact ⟨inner, selected, dims, dims ▸ levels⟩

end Valid
end Instruction
end QuditSynth
