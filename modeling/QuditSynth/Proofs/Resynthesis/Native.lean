import QuditSynth.Pipeline
import QuditSynth.Proofs.Circuit.Operator
import QuditSynth.Proofs.Resynthesis.Windows
import QuditSynth.Proofs.Synthesis.Native

namespace QuditSynth

/-! # Nativeness of compiled circuits

On a device that knows all pulses, compiling leaves native gates only. Native
gates are left alone however they are cut into windows, so a compiled circuit is
a fixed point: neither a second run nor the verification objects to it.
-/

variable {R : Type}

/-- Every gate of the circuit can run as it is. -/
def Circuit.IsNative (native : NativeSet) (circuit : Circuit R) : Prop :=
  ∀ instruction ∈ circuit.instructions, instruction.isGate = true →
    native.isNative instruction = true

theorem Instruction.isGate_eq_not_isMeasure (instruction : Instruction R) :
    instruction.isGate = !instruction.isMeasure := by
  simp [isGate, isMeasure]

namespace NativeSet

variable {native : NativeSet} {circuit : Circuit R}

theorem isForeign_eq_false_iff {instruction : Instruction R} :
    native.isForeign instruction = false ↔
      (instruction.isGate = true → native.isNative instruction = true) := by
  cases gate : instruction.isGate <;> simp [isForeign, gate]

theorem any_isForeign_eq_false_iff :
    circuit.instructions.any native.isForeign = false ↔ circuit.IsNative native := by
  rw [List.any_eq_false]
  exact forall₂_congr fun instruction _ => by rw [Bool.not_eq_true, isForeign_eq_false_iff]

end NativeSet

theorem Pass.verification_run_eq_ok {target : Target R} {circuit : Circuit R}
    (isNative : circuit.IsNative target.native) :
    (Pass.verification target).run circuit = .ok circuit := by
  have accepted : circuit.instructions.find? target.native.isForeign = none :=
    List.find?_eq_none.mpr (List.any_eq_false.mp
      (NativeSet.any_isForeign_eq_false_iff.mpr isNative))
  simp [verification, accepted]

variable [Scalar R] [Exponential R]

namespace Resynthesis

variable {target : Target R} {circuit : Circuit R} {register : Register} {window : Window R}

/-- A window of native gates stands for itself. -/
theorem realize_native (synthesizer : Synthesizer R)
    (isNative : ∀ instruction ∈ window.instructions, target.native.isNative instruction = true) :
    realize synthesizer target register window = .ok window.instructions := by
  have none : window.instructions.find? (!target.native.isNative ·) = none := by
    simpa using isNative
  simp [realize, none]

/-- How the gates that stand for a window come about. -/
inductive Stands (target : Target R) (register : Register) (window : Window R)
    (sequence : List (Instruction R)) : Prop
  /-- A window of native gates stands for itself. -/
  | kept (same : sequence = window.instructions)
      (isNative : ∀ instruction ∈ sequence, target.native.isNative instruction = true)
  /-- Any other window has an operator and is replaced by pulses on its own qudits. -/
  | replaced (built : ∃ u, window.operator register = .ok u) (pulses : AllPulses sequence)
      (inside : ∀ instruction ∈ sequence, ∀ qudit ∈ instruction.allQudits, qudit ∈ window.qudits)

theorem realize_delivers (target : Target R) (register : Register) (window : Window R) :
    Delivers (Stands target register window)
      (realize (Search.synthesizeWith target.config) target register window) := by
  unfold realize
  split
  case h_1 none => exact .kept rfl (by simpa using none)
  case h_2 =>
      split
      case h_1 qudit alone =>
          refine (Delivers.lift _).bind fun operator built => ?_
          refine (decomposeSingleQudit_delivers operator qudit).mono ?_
          rintro sequence ⟨pulses, onto⟩
          refine .replaced ⟨operator, built⟩ pulses fun instruction member touched among => ?_
          rwa [alone, ← onto instruction member]
      case h_2 first second pair =>
          refine (Delivers.lift _).bind fun operator built => ?_
          refine (Delivers.lift _).bind fun firstDim _ => ?_
          refine (Delivers.lift _).bind fun secondDim _ => ?_
          refine (Search.synthesizeWith_pulses _ _ _ _).bind fun synthesis pulses => ?_
          refine .replaced ⟨operator, built⟩ (fun instruction member => ?_) ?_
          · obtain ⟨source, emitted, rfl⟩ := List.mem_map.mp member
            exact (pulses source emitted).remap _
          · rw [pair]
            exact synthesis.mem_of_remapped first second
      case h_3 => nofun

/-- Segments are replaced by native gates and measurements. -/
theorem realizeSegment_delivers
    (complete : ∀ name ∈ NativeSet.standard.names, target.native.contains name = true)
    {segment : Segment R} (cutOff : segment ∈ cut target.native circuit.instructions) :
    Delivers (fun sequence => ∀ instruction ∈ sequence, instruction.isGate = true →
        target.native.isNative instruction = true)
      (realizeSegment (Search.synthesizeWith target.config) target register segment) := by
  cases segment with
  | measurement instruction =>
      refine List.forall_mem_singleton.mpr fun gate => ?_
      have measured := measure_of_mem_cut cutOff
      rw [instruction.isGate_eq_not_isMeasure, measured] at gate
      cases gate
  | window window =>
      refine (realize_delivers target register window).mono fun sequence stands => ?_
      intro instruction member _
      cases stands with
      | kept _ isNative => exact isNative instruction member
      | replaced _ pulses _ => exact (pulses instruction member).isNative complete

theorem compile_delivers
    (complete : ∀ name ∈ NativeSet.standard.names, target.native.contains name = true)
    (circuit : Circuit R) :
    Delivers (fun out => out.IsNative target.native ∧ out.WellFormed ∧ out.name = circuit.name ∧
        out.register = circuit.register) (compile target circuit) := by
  refine (Delivers.mapM fun segment cutOff => realizeSegment_delivers complete cutOff).bind ?_
  intro sequences isNative
  refine (Delivers.lift _).mono ?_
  intro out accepted
  obtain ⟨valid, rfl⟩ := Circuit.withInstructions_eq_ok_iff.mp accepted
  refine ⟨fun instruction member => ?_, valid, rfl, rfl⟩
  obtain ⟨sequence, emitted, inside⟩ := List.mem_flatten.mp member
  exact isNative sequence emitted instruction inside

/-- A circuit compiles as soon as each of its segments is realized by valid instructions. -/
theorem compile_exists
    (realized : ∀ segment ∈ cut target.native circuit.instructions, ∃ sequence,
      realizeSegment (Search.synthesizeWith target.config) target circuit.register segment =
        .ok sequence ∧ ∀ instruction ∈ sequence, instruction.Valid circuit.register) :
    ∃ out, compile target circuit = .ok out := by
  obtain ⟨sequences, replaced, valid⟩ := Outcome.mapM_exists realized
  have accepted : circuit.withInstructions sequences.flatten =
      .ok { circuit with instructions := sequences.flatten } := by
    refine Circuit.withInstructions_eq_ok_iff.mpr ⟨fun instruction member => ?_, rfl⟩
    obtain ⟨sequence, emitted, inside⟩ := List.mem_flatten.mp member
    exact valid sequence emitted instruction inside
  refine ⟨{ circuit with instructions := sequences.flatten }, ?_⟩
  rw [compile, compileWith, replaced, Outcome.ok_bind, accepted]
  rfl

/-- Native gates are compiled to themselves, whatever stands between them. -/
theorem compileWith_native (synthesizer : Synthesizer R) (isNative : circuit.IsNative target.native)
    (wellFormed : circuit.WellFormed) : compileWith synthesizer target circuit = .ok circuit := by
  have kept : (cut target.native circuit.instructions).mapM
      (realizeSegment synthesizer target circuit.register) =
        .ok ((cut target.native circuit.instructions).map Segment.instructions) := by
    rw [Outcome.mapM_eq_ok_iff, List.forall₂_map_right_iff, List.forall₂_same]
    intro segment cutOff
    cases segment with
    | measurement instruction => rfl
    | window window =>
        refine realize_native synthesizer fun instruction member => ?_
        refine isNative instruction (mem_of_mem_cut cutOff member) ?_
        rw [instruction.isGate_eq_not_isMeasure,
          (sound_of_mem_cut cutOff).gates instruction member]
        rfl
  have revalidated : circuit.withInstructions circuit.instructions = .ok circuit :=
    Circuit.withInstructions_eq_ok_iff.mpr ⟨wellFormed, rfl⟩
  rw [compileWith, kept, Outcome.ok_bind, ← List.flatMap_def, cut_instructions, revalidated]
  rfl

end Resynthesis

namespace Pass

variable {target : Target R} {circuit : Circuit R}

theorem resynthesis_shouldRun_eq_false_iff :
    (resynthesis target).shouldRun circuit = false ↔ circuit.IsNative target.native :=
  NativeSet.any_isForeign_eq_false_iff

theorem resynthesis_apply_native (isNative : circuit.IsNative target.native) :
    (resynthesis target).apply circuit = .ok circuit := by
  rw [apply, resynthesis_shouldRun_eq_false_iff.mpr isNative]
  rfl

theorem resynthesis_apply_delivers
    (complete : ∀ name ∈ NativeSet.standard.names, target.native.contains name = true)
    (circuit : Circuit R) :
    Delivers (Circuit.IsNative target.native) ((resynthesis target).apply circuit) := by
  cases needed : (resynthesis target).shouldRun circuit with
  | false =>
      have isNative := resynthesis_shouldRun_eq_false_iff.mp needed
      rw [resynthesis_apply_native isNative]
      exact isNative
  | true =>
      rw [apply, needed]
      exact (Resynthesis.compile_delivers complete circuit).mono fun out compiled => compiled.1

omit [Scalar R] [Exponential R] in
theorem verification_apply_native (isNative : circuit.IsNative target.native) :
    (verification target).apply circuit = .ok circuit := by
  change ((verification target).run circuit >>= fun _ => pure circuit) = .ok circuit
  rw [verification_run_eq_ok isNative]
  rfl

end Pass

namespace Pipeline

theorem standard_run (target : Target R) (verify : Bool) (circuit : Circuit R) :
    (standard target verify).run circuit = (do
      let compiled ← (Pass.resynthesis target).apply circuit
      if verify then (Pass.verification target).apply compiled else pure compiled) := by
  cases verify with
  | false => rfl
  | true => simp only [run, standard, if_true, List.foldlM_cons, List.foldlM_nil, bind_pure]

end Pipeline

end QuditSynth
