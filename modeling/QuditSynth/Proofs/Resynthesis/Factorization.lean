import QuditSynth.Proofs.Resynthesis.Shifts

namespace QuditSynth

/-! # Compilation factors over the windows

A circuit without measurements and the circuit it is compiled to are products
over the same windows: of the operators of the windows in the one case and of
the operators of what stands for them in the other. If these agree up to phases,
so do the two circuits.
-/

namespace Window

variable {R : Type} [Scalar R] [Exponential R] {window : Window R} {register : Register}

/-- The operator of a window exists only if its instructions are valid on the register. -/
theorem valid_of_operator (sound : window.Sound) {u : Operator R}
    (built : window.operator register = .ok u) :
    ∀ instruction ∈ window.instructions, instruction.Valid register := by
  rw [operator_eq_localized] at built
  obtain ⟨inner, selected, built⟩ := Outcome.bind_eq_ok_iff.mp built
  obtain ⟨circuit, accepted, _⟩ := Outcome.bind_eq_ok_iff.mp built
  obtain ⟨valid, _⟩ := Circuit.withInstructions_eq_ok_iff.mp accepted
  intro instruction member
  exact (Instruction.valid_remap_iff selected (sound.covered instruction member)).mp
    (valid _ (List.mem_map_of_mem member))

omit [Scalar R] [Exponential R] in
/-- The qudits of a window of valid gates are operands of one of them. -/
theorem Sound.operands (sound : window.Sound)
    (valid : ∀ instruction ∈ window.instructions, instruction.Valid register) :
    (∀ qudit ∈ window.qudits, qudit.index < register.size) ∧ window.qudits.Nodup ∧
      window.qudits ≠ [] := by
  obtain ⟨instruction, member, spans⟩ := sound.spanned
  obtain ⟨gate, acts⟩ := Instruction.isMeasure_eq_false_iff.mp (sound.gates instruction member)
  have accepted := valid instruction member
  rw [spans]
  refine ⟨accepted.within, accepted.distinct, fun none => ?_⟩
  exact (accepted.gate_suited acts).1 (List.append_eq_nil_iff.mp none).1

end Window

namespace Resynthesis

theorem compile_eq_ok {R : Type} [Scalar R] [Exponential R] {target : Target R}
    {circuit out : Circuit R} (compiled : compile target circuit = .ok out) :
    ∃ sequences, List.Forall₂ (fun segment sequence => realizeSegment
        (Search.synthesizeWith target.config) target circuit.register segment = .ok sequence)
        (cut target.native circuit.instructions) sequences ∧
      (∀ instruction ∈ sequences.flatten, instruction.Valid circuit.register) ∧
      out = { circuit with instructions := sequences.flatten } := by
  obtain ⟨sequences, realized, accepted⟩ := Outcome.bind_eq_ok_iff.mp compiled
  obtain ⟨valid, result⟩ :=
    Circuit.withInstructions_eq_ok_iff.mp ((Delivers.lift _).value accepted)
  exact ⟨sequences, Outcome.mapM_eq_ok_iff.mp realized, valid, result⟩

/-- The windows of a circuit without measurements, each with what stands for it. -/
theorem compile_steps {R : Type} [Scalar R] [Exponential R] {target : Target R}
    {circuit out : Circuit R} (unmeasured : circuit.hasMeasurement = false)
    (compiled : compile target circuit = .ok out) :
    ∃ steps : List (Window R × List (Instruction R)),
      cut target.native circuit.instructions = steps.map (fun step => .window step.1) ∧
      (∀ step ∈ steps, realize (Search.synthesizeWith target.config) target circuit.register
        step.1 = .ok step.2) ∧
      (steps.flatMap fun step => step.1.instructions) = circuit.instructions ∧
      (∀ step ∈ steps, ∀ instruction ∈ step.2, instruction.Valid circuit.register) ∧
      out = { circuit with instructions := steps.flatMap fun step => step.2 } := by
  obtain ⟨sequences, realized, valid, result⟩ := compile_eq_ok compiled
  have gates : ∀ instruction ∈ circuit.instructions, instruction.isMeasure = false := by
    simpa [Circuit.hasMeasurement] using unmeasured
  obtain ⟨windows, cutOff⟩ := cut_windows target.native gates
  rw [cutOff, List.forall₂_map_left_iff] at realized
  have firsts : (windows.zip sequences).map Prod.fst = windows :=
    List.map_fst_zip realized.length_eq.le
  have seconds : (windows.zip sequences).map Prod.snd = sequences :=
    List.map_snd_zip realized.length_eq.ge
  have emitted : ((windows.zip sequences).flatMap fun step => step.2) = sequences.flatten := by
    rw [List.flatMap_def, seconds]
  refine ⟨windows.zip sequences, ?_, fun step member => ?_, ?_, fun step member => ?_, ?_⟩
  · rw [cutOff]
    conv_lhs => rw [← firsts]
    rw [List.map_map]
    rfl
  · exact List.forall₂_zip realized member
  · rw [← cut_instructions target.native circuit.instructions, cutOff, List.flatMap_map]
    conv_rhs => rw [← firsts]
    rw [List.flatMap_map]
    rfl
  · intro instruction inside
    refine valid instruction (List.mem_flatten.mpr ⟨step.2, ?_, inside⟩)
    rw [← seconds]
    exact List.mem_map_of_mem member
  · rw [result, emitted]

section Exact

variable [Exponential ℝ] {target : Target ℝ} {register : Register} {window : Window ℝ}
  {sequence : List (Instruction ℝ)}

/-- A window and what stands for it have operators on the window's qudits that are what the
instructions perform on the register. -/
theorem Stands.faithful (stands : Stands target register window sequence)
    (addressable : Addressable register.dims) (sound : window.Sound)
    (accepted : ∀ instruction ∈ sequence, instruction.Valid register) :
    window.Faithful register ∧ (window.replacedBy sequence).Faithful register := by
  have valid : ∀ instruction ∈ window.instructions, instruction.Valid register := by
    cases stands with
    | kept same _ => exact same ▸ accepted
    | replaced built _ _ =>
        obtain ⟨u, built⟩ := built
        exact Window.valid_of_operator sound built
  have gates : ∀ instruction ∈ sequence, instruction.isMeasure = false := by
    cases stands with
    | kept same _ => exact same ▸ sound.gates
    | replaced _ pulses _ => exact fun instruction member => (pulses instruction member).gate
  have covered : ∀ instruction ∈ sequence, ∀ qudit ∈ instruction.allQudits,
      qudit ∈ window.qudits := by
    cases stands with
    | kept same _ => exact same ▸ sound.covered
    | replaced _ _ inside => exact inside
  obtain ⟨within, distinct, some⟩ := sound.operands valid
  exact ⟨Window.faithful_of_valid addressable within distinct some valid sound.gates sound.covered,
    Window.faithful_of_valid addressable within distinct some accepted gates covered⟩

/-- Every circuit without measurements and the circuit it is compiled to are products over the same
windows, and agree up to a phase as soon as the replaced windows do. Both have operators if the
register has room for them, and otherwise neither has. -/
theorem compile_factors (target : Target ℝ) (circuit out : Circuit ℝ)
    (unmeasured : circuit.hasMeasurement = false)
    (compiled : compile target circuit = .ok out) :
    ∃ steps : List (Window ℝ × List (Instruction ℝ)),
      cut target.native circuit.instructions = steps.map (fun step => .window step.1) ∧
      (∀ step ∈ steps, realize (Search.synthesizeWith target.config) target circuit.register
        step.1 = .ok step.2) ∧
      (steps.flatMap fun step => step.1.instructions) = circuit.instructions ∧
      (steps.flatMap fun step => step.2) = out.instructions ∧
      circuit.operator =
        Window.composed circuit.register (steps.map fun step => step.1) ∧
      out.operator =
        Window.composed circuit.register (steps.map fun step => step.1.replacedBy step.2) ∧
      (∀ step ∈ steps,
        (∀ instruction ∈ step.1.instructions, target.native.isNative instruction = true) →
          (step.1.replacedBy step.2).placed circuit.register = step.1.placed circuit.register) ∧
      ((∀ step ∈ steps,
        (∃ instruction ∈ step.1.instructions, target.native.isNative instruction = false) →
          AgreeUpToPhase (step.1.operator circuit.register)
            ((step.1.replacedBy step.2).operator circuit.register)) →
        AgreeUpToPhase circuit.operator out.operator) ∧
      (product circuit.register.dims * product circuit.register.dims * 16 < 2 ^ 63 →
        ∃ u v, circuit.operator = .ok u ∧ out.operator = .ok v) ∧
      (¬ product circuit.register.dims * product circuit.register.dims * 16 < 2 ^ 63 →
        circuit.operator = .error .outOfRange ∧ out.operator = .error .outOfRange) := by
  obtain ⟨steps, cutOff, realized, pieces, valid, rfl⟩ := compile_steps unmeasured compiled
  have faithful : Addressable circuit.register.dims → ∀ step ∈ steps,
      step.1.Faithful circuit.register ∧ (step.1.replacedBy step.2).Faithful circuit.register := by
    intro addressable step member
    have inCut : .window step.1 ∈ cut target.native circuit.instructions := by
      rw [cutOff]
      exact List.mem_map_of_mem member
    have stands := (realize_delivers target circuit.register step.1).value (realized step member)
    exact stands.faithful addressable (sound_of_mem_cut inCut) (valid step member)
  have before : circuit.operator =
      Window.composed circuit.register (steps.map fun step => step.1) := by
    refine Window.operator_eq_composed (by rwa [List.flatMap_map]) fun addressable => ?_
    exact List.forall_mem_map.mpr fun step member => (faithful addressable step member).1
  have after : Circuit.operator { circuit with instructions := steps.flatMap fun step => step.2 } =
      Window.composed circuit.register (steps.map fun step => step.1.replacedBy step.2) := by
    refine Window.operator_eq_composed ?_ fun addressable => ?_
    · rw [List.flatMap_map]
      rfl
    · exact List.forall_mem_map.mpr fun step member => (faithful addressable step member).2
  have kept : ∀ step ∈ steps,
      (∀ instruction ∈ step.1.instructions, target.native.isNative instruction = true) →
        step.1.replacedBy step.2 = step.1 := by
    intro step member isNative
    have same : step.1.instructions = step.2 :=
      Except.ok.inj ((realize_native _ isNative).symm.trans (realized step member))
    rw [← same]
    rfl
  refine ⟨steps, cutOff, realized, pieces, rfl, before, after, fun step member isNative => ?_,
    fun agree => ?_, fun room => ?_, fun large => ?_⟩
  · rw [kept step member isNative]
  · rw [before, after]
    refine Window.composed_agree fun addressable => ?_
    rw [List.forall₂_map_left_iff, List.forall₂_map_right_iff, List.forall₂_same]
    intro step member
    obtain ⟨faithfulBefore, faithfulAfter⟩ := faithful addressable step member
    refine ⟨faithfulBefore, faithfulAfter, rfl, ?_⟩
    by_cases isNative : ∀ instruction ∈ step.1.instructions,
        target.native.isNative instruction = true
    · rw [kept step member isNative]
      exact AgreeUpToPhase.refl _
    · exact agree step member (by simpa using isNative)
  · have addressable : Addressable circuit.register.dims :=
      Register.addressable (checkCapacity_eq_ok_iff.mpr room)
    obtain ⟨u, builtBefore⟩ := Window.composed_exists addressable
      (List.forall_mem_map.mpr fun step member => (faithful addressable step member).1)
    obtain ⟨v, builtAfter⟩ := Window.composed_exists addressable
      (List.forall_mem_map.mpr fun step member => (faithful addressable step member).2)
    exact ⟨u, v, before.trans builtBefore, after.trans builtAfter⟩
  · exact ⟨Circuit.operator_unaddressable large, Circuit.operator_unaddressable large⟩

end Exact

/-- A shift is replaced; an exchange after it, controlled by the second qudit, stays. -/
theorem compile_factors_shift :
    let _ : Exponential ℝ := .taylor
    let target : Target ℝ := { config := .standard }
    let register : Register := ⟨[3, 2], by decide, by decide⟩
    let exchange : Instruction ℝ := .ofGate (.cex 1 0 2 0) [⟨1⟩, ⟨0⟩]
    let circuit : Circuit ℝ := ⟨"c", register, [.ofGate .x [⟨0⟩], exchange]⟩
    circuit.hasMeasurement = false ∧
      ∃ out u v, compile target circuit = .ok out ∧
        circuit.operator = .ok u ∧ out.operator = .ok v ∧
        Window.composed register
          [.shifts ⟨0⟩ 1 true, ⟨[⟨1⟩, ⟨0⟩], [exchange], false⟩] = .ok u := by
  intro taylor target register exchange circuit
  let windows : List (Window ℝ) := [.shifts ⟨0⟩ 1 true, ⟨[⟨1⟩, ⟨0⟩], [exchange], false⟩]
  have segments : cut target.native circuit.instructions = windows.map .window := rfl
  have kept : realize (Search.synthesizeWith target.config) target register
      ⟨[⟨1⟩, ⟨0⟩], [exchange], false⟩ = .ok [exchange] :=
    realize_native _ (List.forall_mem_singleton.mpr rfl)
  have compiles : ∃ out, compile target circuit = .ok out := by
    refine compile_exists ?_
    rw [segments]
    simp only [windows, List.map_cons, List.map_nil, List.forall_mem_cons]
    refine ⟨realize_shifts_exists target (by decide) rfl 1 true, ⟨_, kept, ?_⟩, by simp⟩
    exact List.forall_mem_singleton.mpr (Instruction.validate_eq_ok_iff.mp rfl)
  obtain ⟨out, compiled⟩ := compiles
  obtain ⟨steps, cutOff, _, _, _, before, _, _, _, built, _⟩ :=
    compile_factors target circuit out rfl compiled
  obtain ⟨u, v, builtBefore, builtAfter⟩ := built (by decide)
  have firsts : steps.map (fun step => step.1) = windows := by
    rw [segments] at cutOff
    apply List.map_injective_iff.mpr (fun _ _ same => Segment.window.inj same)
    rw [cutOff, List.map_map]
    rfl
  refine ⟨rfl, out, u, v, compiled, builtBefore, builtAfter, ?_⟩
  rw [← builtBefore, before, firsts]

/-- On a register without room for matrices a shift of its qubit is compiled, and has an operator on
the qubit alone. But neither the circuit nor what it is compiled to nor the product of the windows
has an operator. -/
theorem compiled_without_operator :
    let _ : Exponential ℝ := .taylor
    let target : Target ℝ := { config := .standard }
    let register : Register := ⟨[2, 1073741824], by decide, by decide⟩
    let circuit : Circuit ℝ := ⟨"c", register, [.ofGate .x [⟨0⟩]]⟩
    let window : Window ℝ := .shifts ⟨0⟩ 1 true
    circuit.hasMeasurement = false ∧
      cut target.native circuit.instructions = [.window window] ∧
      (∃ u, window.operator register = .ok u ∧ u.dim = 2) ∧
      circuit.operator = .error .outOfRange ∧
      Window.composed register [window] = .error .outOfRange ∧
      ∃ out, compile target circuit = .ok out ∧ out.operator = .error .outOfRange := by
  intro taylor target register circuit window
  have within : (⟨0⟩ : Qudit).index < register.size := by decide
  have refused : Operator.checkDim (product [2, 1073741824]) = .error .outOfRange := rfl
  have segments : cut target.native circuit.instructions = [.window window] := rfl
  obtain ⟨u, built, dim, _⟩ := Window.shifts_operator within rfl 1 true
  have compiles : ∃ out, compile target circuit = .ok out := by
    refine compile_exists ?_
    rw [segments]
    exact List.forall_mem_singleton.mpr (realize_shifts_exists target within rfl 1 true)
  obtain ⟨out, compiled⟩ := compiles
  obtain ⟨_, _, _, replaced⟩ := compile_eq_ok compiled
  have sameRegister : out.register = register := by rw [replaced]
  refine ⟨rfl, segments, ⟨u, built, dim⟩, Circuit.operator_refused refused, ?_, out, compiled,
    Circuit.operator_refused (sameRegister ▸ refused)⟩
  rw [Window.composed_eq_applyAll, Operator.identityOn, refused]
  rfl

end Resynthesis
end QuditSynth
