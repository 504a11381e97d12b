import QuditSynth.Document.Circuit
import QuditSynth.Proofs.Circuit.Operator
import QuditSynth.Proofs.Document.Gate

namespace QuditSynth

/-! # Circuits that are written and read

A circuit is read from the document that it is written as, provided that its
numbers have the sizes of the machine and its doubles are finite.
-/

theorem Register.ofDocument?_toDocument {register : Register}
    (small : ∀ dim ∈ register.dims, dim < wordLimit) :
    ofDocument? register.toDocument = some register := by
  have dims : dims? register.toDocument = some register.dims :=
    Document.asList_ofList fun dim member => Document.asNat_ofNat (small dim member)
  rw [ofDocument?, dims, Option.bind_eq_bind, Option.bind_some, ofDims_eq_ok_iff.mpr rfl]
  rfl

theorem Register.legible_toDocument {register : Register}
    (small : ∀ dim ∈ register.dims, dim < wordLimit) : register.toDocument.Legible :=
  Document.legible_ofList.mpr fun dim member => Document.legible_ofNat (small dim member)

theorem Qudit.asList_toDocument {qudits : List Qudit}
    (small : ∀ qudit ∈ qudits, qudit.index < Qudit.limit) :
    (Document.ofList Qudit.toDocument qudits).asList Qudit.ofDocument? = some qudits :=
  Document.asList_ofList fun qudit member => by
    rw [toDocument, ofDocument?, Document.asNat_ofNat (small qudit member), Option.map_some]

theorem Qudit.legible_list {qudits : List Qudit}
    (small : ∀ qudit ∈ qudits, qudit.index < Qudit.limit) :
    (Document.ofList Qudit.toDocument qudits).Legible :=
  Document.legible_ofList.mpr fun qudit member =>
    Document.legible_ofNat (Nat.lt_trans (small qudit member) (by decide))

/-! ## Instructions -/

theorem Gate.levels_lt {R : Type} {gate : Gate R} {dims : List Nat} {limit : Nat}
    (suits : gate.Suits dims) (small : ∀ dim ∈ dims, dim < limit) :
    ∀ level ∈ gate.levels, level < limit := by
  cases gate with
  | r _ _ a b | rz _ a b =>
      obtain ⟨dim, rfl, _, aBound, bBound⟩ := suits
      simp_all [levels]
      omega
  | virtRz _ level =>
      obtain ⟨dim, rfl, bound⟩ := suits
      simp_all [levels]
      omega
  | cex control a b _ =>
      obtain ⟨controlDim, dim, rfl, controlBound, _, aBound, bBound⟩ := suits
      simp_all [levels]
      omega
  | ms | h | x | csum | unitary => simp [levels]

namespace Controls

/-- Positions and levels have the size of their types. -/
structure Sized (controls : Controls) : Prop where
  qudits : ∀ qudit ∈ controls.qudits, qudit.index < Qudit.limit
  levels : ∀ level ∈ controls.levels, level < wordLimit

variable {controls : Controls}

theorem ofDocument?_toDocument (sized : controls.Sized) :
    ofDocument? controls.toDocument = some controls := by
  have qudits := Qudit.asList_toDocument sized.qudits
  have levels : (Document.ofList Document.ofNat controls.levels).asList
      (Document.asNat wordLimit) = some controls.levels :=
    Document.asList_ofList fun level member => Document.asNat_ofNat (sized.levels level member)
  have required : controls.toDocument.required ["qudits", "levels"] =
      some [.ofList Qudit.toDocument controls.qudits, .ofList .ofNat controls.levels] :=
    Document.required_ofFields (by simp)
  simp [ofDocument?, required, qudits, levels]

theorem legible_toDocument (sized : controls.Sized) : controls.toDocument.Legible := by
  have qudits := Qudit.legible_list sized.qudits
  have levels : (Document.ofList Document.ofNat controls.levels).Legible :=
    Document.legible_ofList.mpr fun level member =>
      Document.legible_ofNat (sized.levels level member)
  rw [toDocument, Document.legible_ofFields]
  simp [qudits, levels]

end Controls

namespace Instruction

/-- All angles and entries. -/
def doubles (instruction : Instruction Float) : List Float :=
  (instruction.gate?.map Gate.doubles).getD []

/-- The numbers of the instruction have the size of their types. -/
structure Sized (instruction : Instruction Float) : Prop where
  qudits : ∀ qudit ∈ instruction.qudits, qudit.index < Qudit.limit
  gate : ∀ gate, instruction.action = .gate gate → gate.Sized
  controls : ∀ controls, instruction.controls = some controls → controls.Sized

variable {instruction : Instruction Float}

theorem doubles_of_gate {gate : Gate Float} (acts : instruction.action = .gate gate) :
    instruction.doubles = gate.doubles := by
  simp [doubles, gate?, acts]

theorem ofDocument?_action {outer : Nat} (shallow : outer + 5 ≤ Gate.depthLimit)
    (sized : instruction.Sized) (finite : ∀ x ∈ instruction.doubles, x.isFinite = true) :
    Action.ofDocument? outer instruction.action.toDocument = some instruction.action := by
  cases acts : instruction.action with
  | measure => rfl
  | gate gate =>
      rw [doubles_of_gate acts] at finite
      have read : Gate.ofDocument? (outer + 1) gate.toDocument = some gate :=
        Gate.ofDocument?_toDocument (by omega) (sized.gate gate acts) finite
      change (Gate.ofDocument? (outer + 1) gate.toDocument).map Action.gate = _
      rw [read, Option.map_some]

theorem controls?_toDocument {controls : Option Controls}
    (sized : ∀ present, controls = some present → present.Sized) :
    controls? (controls.map Controls.toDocument) = some controls := by
  cases controls with
  | none => rfl
  | some present =>
      change (Controls.ofDocument? present.toDocument).map some = _
      rw [Controls.ofDocument?_toDocument (sized present rfl), Option.map_some]

theorem fields_toDocument (instruction : Instruction Float) :
    instruction.toDocument.fields ["kind", "qudits", "controls"] =
      some [some instruction.action.toDocument,
        some (.ofList Qudit.toDocument instruction.qudits),
        instruction.controls.map Controls.toDocument] := by
  rw [toDocument, Document.fields_ofFields]
  · cases instruction.controls <;> simp [List.lookup_cons]
  · cases instruction.controls <;> simp

theorem ofDocument?_toDocument {outer : Nat} (shallow : outer + 6 ≤ Gate.depthLimit)
    (sized : instruction.Sized) (finite : ∀ x ∈ instruction.doubles, x.isFinite = true) :
    ofDocument? outer instruction.toDocument = some instruction := by
  have action : Action.ofDocument? (outer + 1) instruction.action.toDocument =
      some instruction.action := ofDocument?_action (by omega) sized finite
  have qudits := Qudit.asList_toDocument sized.qudits
  have controls := controls?_toDocument sized.controls
  simp [ofDocument?, fields_toDocument, action, qudits, controls]

theorem legible_toDocument (sized : instruction.Sized)
    (back : ∀ x ∈ instruction.doubles, Document.ReadsBack x) : instruction.toDocument.Legible := by
  have action : instruction.action.toDocument.Legible := by
    cases acts : instruction.action with
    | measure => trivial
    | gate gate =>
        rw [doubles_of_gate acts] at back
        exact Document.legible_ofFields.mpr (by
          simp [Gate.legible_toDocument (sized.gate gate acts) back])
  have qudits := Qudit.legible_list sized.qudits
  have controls (present : Controls) (some : instruction.controls = some present) :
      present.toDocument.Legible := Controls.legible_toDocument (sized.controls present some)
  rw [toDocument, Document.legible_ofFields]
  cases present : instruction.controls with
  | none => simp [action, qudits]
  | some present => simp_all

end Instruction

/-! ## Circuits -/

namespace Circuit

/-- All angles and entries. -/
def doubles (circuit : Circuit Float) : List Float :=
  circuit.instructions.flatMap Instruction.doubles

/-- Dimensions and positions are words of the machine, and operators are matrices that it can
hold. -/
structure Representable (circuit : Circuit Float) : Prop where
  dims : ∀ dim ∈ circuit.register.dims, dim < wordLimit
  qudits : ∀ instruction ∈ circuit.instructions, ∀ qudit ∈ instruction.allQudits,
    qudit.index < Qudit.limit
  operators : ∀ instruction ∈ circuit.instructions, ∀ name u,
    instruction.action = .gate (.unitary name u) → u.dim * u.dim < 2 ^ 63

variable {circuit : Circuit Float}

theorem Representable.getD_lt (representable : circuit.Representable) (position : Nat) :
    circuit.register.dims.getD position 1 < wordLimit := by
  by_cases within : position < circuit.register.dims.length
  · rw [List.getD_eq_getElem _ _ within]
    exact representable.dims _ (List.getElem_mem within)
  · rw [List.getD_eq_default _ _ (Nat.le_of_not_lt within)]
    decide

theorem Representable.sized (representable : circuit.Representable)
    (wellFormed : circuit.WellFormed) {instruction : Instruction Float}
    (member : instruction ∈ circuit.instructions) : instruction.Sized := by
  have valid := wellFormed instruction member
  have qudits := representable.qudits instruction member
  refine ⟨fun qudit target => qudits qudit (List.mem_append_left _ target), fun gate acts => ?_,
    fun controls present => ⟨fun qudit control => qudits qudit ?_, fun level named => ?_⟩⟩
  · refine ⟨?_, ?_⟩
    · have suits := Gate.checkLevels_eq_ok_iff.mp (valid.gate_suited acts).2
      refine Gate.levels_lt suits fun dim target => ?_
      obtain ⟨position, _, rfl⟩ := List.mem_map.mp target
      exact representable.getD_lt position
    · rintro name u rfl
      exact representable.operators instruction member name u acts
  · exact List.mem_append_right _ (by simpa [Instruction.controlQudits, present] using control)
  · obtain ⟨lengths, bounds⟩ := valid.levelled controls present
    rw [← List.map_snd_zip lengths.ge] at named
    obtain ⟨control, paired, rfl⟩ := List.mem_map.mp named
    exact Nat.lt_trans (bounds control paired) (representable.getD_lt _)

theorem doubles_of_mem {good : Float → Prop} (all : ∀ x ∈ circuit.doubles, good x)
    {instruction : Instruction Float} (member : instruction ∈ circuit.instructions) :
    ∀ x ∈ instruction.doubles, good x :=
  fun x inside => all x (List.mem_flatMap.mpr ⟨instruction, member, inside⟩)

theorem ofDocument?_toDocument (representable : circuit.Representable)
    (wellFormed : circuit.WellFormed) (finite : ∀ x ∈ circuit.doubles, x.isFinite = true) :
    ofDocument? circuit.toDocument = some circuit := by
  have fields : circuit.toDocument.fields ["name", "dims", "instructions"] =
      some [some (.text circuit.name), some circuit.register.toDocument,
        some (.ofList Instruction.toDocument circuit.instructions)] := by
    rw [toDocument, Document.fields_ofFields (by simp)]
    simp [List.lookup_cons]
  have register := Register.ofDocument?_toDocument representable.dims
  have instructions :
      instructions? (some (.ofList Instruction.toDocument circuit.instructions)) =
        some circuit.instructions :=
    Document.asList_ofList fun instruction member =>
      Instruction.ofDocument?_toDocument (by decide) (representable.sized wellFormed member)
        (doubles_of_mem finite member)
  simp [ofDocument?, fields, register, instructions, Document.asText]

theorem legible_toDocument (representable : circuit.Representable)
    (wellFormed : circuit.WellFormed) (back : ∀ x ∈ circuit.doubles, Document.ReadsBack x) :
    circuit.toDocument.Legible := by
  have register := Register.legible_toDocument representable.dims
  have instructions : (Document.ofList Instruction.toDocument circuit.instructions).Legible :=
    Document.legible_ofList.mpr fun instruction member =>
      Instruction.legible_toDocument (representable.sized wellFormed member)
        (doubles_of_mem back member)
  rw [toDocument, Document.legible_ofFields]
  simp [register, instructions, Document.Legible]

end Circuit
end QuditSynth
