import QuditSynth.Proofs.Resynthesis.Shifts

namespace QuditSynth.Resynthesis

/-! # Stability of compiled circuits

What the passes of the standard pipeline promise each other: compilation leaves
nothing for a second compilation to do, and nothing for the verification to find.
-/

variable {R : Type} [Scalar R] [Exponential R]

/-- On a device that knows all pulses, compiled circuits are native, pass the verification and are
compiled to themselves. The standard pipeline blames no gate, and it leaves native circuits
alone. -/
theorem compiled_native_stable (target : Target R)
    (complete : ∀ name ∈ ["r", "rz", "virtrz", "cex", "ms"],
      target.native.contains name = true) :
    (∀ circuit out : Circuit R, compile target circuit = .ok out →
      (∀ instruction ∈ out.instructions, instruction.isGate = true →
        target.native.isNative instruction = true) ∧
      (Pass.resynthesis target).shouldRun out = false ∧
      (Pass.verification target).run out = .ok out ∧
      compile target out = .ok out ∧
      out.name = circuit.name ∧ out.register = circuit.register) ∧
    (∀ verify circuit instruction,
      (Pipeline.standard target verify).run circuit ≠ .error (.notNative instruction)) ∧
    (∀ circuit : Circuit R,
      (∀ instruction ∈ circuit.instructions, instruction.isGate = true →
        target.native.isNative instruction = true) →
      (∀ verify, (Pipeline.standard target verify).run circuit = .ok circuit) ∧
      (circuit.WellFormed → compile target circuit = .ok circuit)) := by
  refine ⟨fun circuit out compiled => ?_, fun verify circuit => ?_, fun circuit isNative => ?_⟩
  · obtain ⟨isNative, wellFormed, name, register⟩ :=
      (compile_delivers complete circuit).value compiled
    exact ⟨isNative, Pass.resynthesis_shouldRun_eq_false_iff.mpr isNative,
      Pass.verification_run_eq_ok isNative, compileWith_native _ isNative wellFormed, name,
      register⟩
  · have delivers : Delivers (Circuit.IsNative target.native)
        ((Pipeline.standard target verify).run circuit) := by
      rw [Pipeline.standard_run]
      refine (Pass.resynthesis_apply_delivers complete circuit).bind fun compiled isNative => ?_
      cases verify with
      | false => exact isNative
      | true =>
          rw [if_pos rfl, Pass.verification_apply_native isNative]
          exact isNative
    exact delivers.ne_notNative
  · refine ⟨fun verify => ?_, compileWith_native _ isNative⟩
    rw [Pipeline.standard_run, Pass.resynthesis_apply_native isNative, Outcome.ok_bind]
    cases verify with
    | false => rfl
    | true => rw [if_pos rfl, Pass.verification_apply_native isNative]

/-- A shift, which is no pulse, after a native gate and a measurement. -/
theorem compiled_native_stable_shift :
    let _ : Exponential ℝ := .taylor
    let target : Target ℝ := { config := .standard }
    let register : Register := ⟨[3, 2], by decide, by decide⟩
    let circuit : Circuit ℝ := ⟨"c", register, [.ofGate (.rz 1 0 2) [⟨0⟩], .measure ⟨1⟩,
      .ofGate .x [⟨0⟩]]⟩
    (∀ name ∈ ["r", "rz", "virtrz", "cex", "ms"], target.native.contains name = true) ∧
      (Pass.resynthesis target).shouldRun circuit = true ∧
      ∃ out, compile target circuit = .ok out ∧
        (Pass.resynthesis target).shouldRun out = false ∧
        (Pass.verification target).run out = .ok out ∧
        compile target out = .ok out := by
  intro taylor target register circuit
  have complete : ∀ name ∈ ["r", "rz", "virtrz", "cex", "ms"],
      target.native.contains name = true := by decide
  have segments : cut target.native circuit.instructions =
      [.window ⟨[⟨0⟩], [.ofGate (.rz 1 0 2) [⟨0⟩]], false⟩, .measurement (.measure ⟨1⟩),
        .window (.shifts ⟨0⟩ 1 true)] := rfl
  have kept : realize (Search.synthesizeWith target.config) target register
      ⟨[⟨0⟩], [.ofGate (.rz 1 0 2) [⟨0⟩]], false⟩ = .ok [.ofGate (.rz 1 0 2) [⟨0⟩]] :=
    realize_native _ (List.forall_mem_singleton.mpr rfl)
  have compiles : ∃ out, compile target circuit = .ok out := by
    refine compile_exists ?_
    rw [segments]
    simp only [List.forall_mem_cons]
    refine ⟨⟨_, kept, ?_⟩, ⟨_, rfl, ?_⟩,
      realize_shifts_exists target (by decide) rfl 1 true, by simp⟩
    · exact List.forall_mem_singleton.mpr (Instruction.validate_eq_ok_iff.mp rfl)
    · exact List.forall_mem_singleton.mpr (Instruction.validate_eq_ok_iff.mp rfl)
  obtain ⟨out, compiled⟩ := compiles
  obtain ⟨_, unneeded, verified, again, _⟩ :=
    (compiled_native_stable target complete).1 circuit out compiled
  exact ⟨complete, rfl, out, compiled, unneeded, verified, again⟩

end QuditSynth.Resynthesis
