import QuditSynth.Proofs.Generator.Families
import QuditSynth.Proofs.Synthesis.Decomposition
import QuditSynth.Proofs.Synthesis.Layout
import QuditSynth.Proofs.Synthesis.Native

namespace QuditSynth

/-! # Validity of what is synthesised

Layers name levels that exist and entanglers the two lowest levels, so whatever
a search emits is valid on its two qudits, and still is once it is moved onto two
qudits of the same dimensions in a larger register.
-/

variable {R : Type}

namespace Instruction

variable {instruction : Instruction R}

/-- Moving forth and back again changes nothing. -/
theorem remap_remap {f g : Qudit → Qudit}
    (inverse : ∀ qudit ∈ instruction.allQudits, g (f qudit) = qudit) :
    (instruction.remap f).remap g = instruction := by
  have back : ∀ qudits ⊆ instruction.allQudits, (qudits.map f).map g = qudits := by
    intro qudits inside
    rw [List.map_map]
    exact (List.map_congr_left fun qudit member => inverse qudit (inside member)).trans
      (List.map_id qudits)
  obtain ⟨action, qudits, controls⟩ := instruction
  have targets := back qudits (List.subset_append_left _ _)
  cases controls with
  | none => simp only [remap, targets, Option.map_none]
  | some controls =>
      have moved := back controls.qudits (List.subset_append_right _ _)
      simp only [remap, targets, Option.map_some, Controls.map, moved]

end Instruction

namespace Synthesis

variable {register : Register} {first second : Qudit}

/-- Instructions that are valid on two qudits stay valid on two qudits of the same dimensions. -/
theorem valid_remapped {synthesis : Synthesis R} (apart : first ≠ second)
    (firstWithin : first.index < register.size) (secondWithin : second.index < register.size)
    (valid : ∀ inner : Register,
      inner.dims = [register.dims.getD first.index 1, register.dims.getD second.index 1] →
        ∀ instruction ∈ synthesis.instructions, instruction.Valid inner) :
    ∀ instruction ∈ synthesis.remapped first second, instruction.Valid register := by
  have within : ∀ qudit ∈ [first, second], qudit.index < register.size := by
    simp [firstWithin, secondWithin]
  obtain ⟨inner, selected, innerDims⟩ := Register.select_exists within (by simp)
  intro instruction member
  have covered := synthesis.mem_of_remapped first second instruction member
  obtain ⟨source, emitted, rfl⟩ := List.mem_map.mp member
  have sourceValid := valid inner innerDims source emitted
  refine (Instruction.valid_remap_iff selected covered).mp ?_
  rw [Instruction.remap_remap]
  · exact sourceValid
  · rintro ⟨index⟩ operand
    have small : index < 2 := by
      simpa [Register.size, innerDims] using sourceValid.within _ operand
    have either : index = 0 ∨ index = 1 := by omega
    rcases either with rfl | rfl
    · simp [Generator.localFirst, positionIn, List.findIdx?_cons]
    · simp [Generator.localFirst, positionIn, List.findIdx?_cons, apart]

end Synthesis

variable {register : Register}

namespace LocalLayer

theorem suits_gates {layer : LocalLayer} {params : List R} {gates : List (Gate R)}
    (made : layer.gates params = .ok gates) : ∀ gate ∈ gates, gate.Suits [layer.dim] := by
  obtain ⟨⟨phases, rotations⟩, split, listed⟩ := Outcome.bind_eq_ok_iff.mp made
  obtain ⟨_, angles, rest, _, count, rfl, rfl⟩ := split_eq_ok_iff.mp split
  cases listed
  intro gate member
  rcases List.mem_append.mp member with phase | rotation
  · obtain ⟨⟨theta, level⟩, listed, rfl⟩ := List.mem_map.mp phase
    have bound : level < angles.length := List.snd_lt_of_mem_zipIdx listed
    exact ⟨layer.dim, rfl, by omega, by omega, by omega⟩
  · obtain ⟨⟨⟨a, b⟩, theta, phi⟩, listed, rfl⟩ := List.mem_map.mp rotation
    have pair : (a, b) ∈ layer.pairs := (List.of_mem_zip listed).1
    obtain ⟨below, bound⟩ := mem_eliminationOrder_iff.mp (List.mem_reverse.mp pair)
    exact ⟨layer.dim, rfl, by omega, by omega, bound⟩

variable [Scalar R]

theorem valid_instructions {layer : LocalLayer} {params : List R} {qudit : Qudit}
    {emitted : List (Instruction R)} (within : qudit.index < register.size)
    (dim : register.dims.getD qudit.index 1 = layer.dim)
    (emits : layer.instructions params qudit = .ok emitted) :
    ∀ instruction ∈ emitted, instruction.Valid register := by
  obtain ⟨gates, made, assembled⟩ := Outcome.bind_eq_ok_iff.mp emits
  cases assembled
  refine valid_emit within ?_
  rw [dim]
  exact suits_gates made

end LocalLayer

variable [Scalar R]

theorem Ansatz.valid_localInstructions {ansatz : Ansatz R} {params : List R}
    {emitted : List (Instruction R)}
    (dims : register.dims = [ansatz.generator.dims.1, ansatz.generator.dims.2])
    (emits : ansatz.localInstructions params = .ok emitted) :
    ∀ instruction ∈ emitted, instruction.Valid register := by
  obtain ⟨⟨p, q⟩, _, continued⟩ := Outcome.bind_eq_ok_iff.mp emits
  obtain ⟨first, firstEmits, continued⟩ := Outcome.bind_eq_ok_iff.mp continued
  obtain ⟨second, secondEmits, assembled⟩ := Outcome.bind_eq_ok_iff.mp continued
  cases assembled
  refine List.forall_mem_append.mpr ⟨LocalLayer.valid_instructions ?_ ?_ firstEmits,
    LocalLayer.valid_instructions ?_ ?_ secondEmits⟩
  all_goals simp [Register.size, dims, Generator.localFirst, Generator.localSecond, Ansatz.first,
    Ansatz.second]

namespace Search

theorem synthesizeWith_valid {config : Config R} {family : Family} {target : Operator R}
    {dims : Nat × Nat} {synthesis : Synthesis R}
    (found : synthesizeWith config family target dims = .ok synthesis)
    (registerDims : register.dims = [dims.1, dims.2]) :
    ∀ instruction ∈ synthesis.instructions, instruction.Valid register := by
  refine (synthesizeWith_delivers config family target dims ?_).value found
  intro generator made layers params
  obtain ⟨levels, rfl⟩ := Family.generator_eq_ok_iff.mp made
  refine Ansatz.instructions_delivers (fun angle phase => ?_) (fun _ _ placed => ?_) params
  · obtain ⟨pulses, sequenced, valid⟩ := Family.sequence_exists levels angle phase
    rw [sequenced]
    exact valid register registerDims
  · exact Ansatz.valid_localInstructions (by simpa using registerDims) placed

end Search
end QuditSynth
