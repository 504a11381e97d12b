import QuditSynth.Proofs.Circuit.Reachable
import QuditSynth.Proofs.Document.Decoding

namespace QuditSynth

/-! # Round trips of circuits

A circuit that edits can produce is read back from its text, and a text is
accepted only if it describes a circuit whose instructions are all valid.
-/

theorem Document.readsBack_of_toFloat? {x : Float} (literal : Literal)
    (read : Literal.read (skipSpace (documentStyle.text x).toList) = some (literal, []))
    (pointed : literal.isWhole = false) (value : literal.toFloat? = some x) : ReadsBack x := by
  rw [ReadsBack, parse, readValue_literal read]
  simp [Literal.toDocument, pointed, value]

/-- The text of a circuit is read as the circuit. -/
theorem Circuit.read_write {circuit : Circuit Float} (representable : circuit.Representable)
    (wellFormed : circuit.WellFormed) (finite : ∀ x ∈ circuit.doubles, x.isFinite = true)
    (back : ∀ x ∈ circuit.doubles, Document.ReadsBack x) : read circuit.write = .ok circuit := by
  have parsed : Document.parse circuit.write = some (circuit.toDocument, []) :=
    Document.parse_render Document.neutral_spread 0
      (legible_toDocument representable wellFormed back)
  have decoded := ofDocument?_toDocument representable wellFormed finite
  exact read_eq_ok_iff.mpr ⟨circuit.toDocument, [], parsed, rfl, decoded, wellFormed⟩

namespace Workspace

/-- Whatever edits led to it, the text of a circuit is read as the same circuit, provided that its
doubles are finite and survive in texts. A circuit that was read has finite doubles only. It is
read exactly from the texts that name a valid register and instructions that are valid on it. -/
theorem history_text_round_trip :
    (∀ edits : List Edit, ∀ held ∈ (history edits).held, held.circuit.Representable →
      (∀ x ∈ held.circuit.doubles, x.isFinite = true ∧ Document.ReadsBack x) →
      Circuit.read held.circuit.write = .ok held.circuit) ∧
    (∀ (text : String) (circuit : Circuit Float), Circuit.read text = .ok circuit →
      circuit.Representable ∧ (∀ x ∈ circuit.doubles, x.isFinite = true) ∧
      ((∀ x ∈ circuit.doubles, Document.ReadsBack x) →
        Circuit.read circuit.write = .ok circuit)) ∧
    ∀ (text : String) (circuit : Circuit Float), Circuit.read text = .ok circuit ↔
      ∃ document rest name dims listed sizes,
        Document.parse text = some (document, rest) ∧ Document.skipSpace rest = [] ∧
        document.fields ["name", "dims", "instructions"] = some [some name, some dims, listed] ∧
        name.asText = some circuit.name ∧
        (Register.dims? dims = some sizes ∧ sizes ≠ [] ∧ (∀ size ∈ sizes, 2 ≤ size) ∧
          circuit.register.dims = sizes) ∧
        Circuit.instructions? listed = some circuit.instructions ∧
        ∀ instruction ∈ circuit.instructions,
          instruction.validate circuit.register = .ok () := by
  refine ⟨fun edits held reached representable doubles => ?_, fun text circuit read => ?_,
    fun text circuit => ?_⟩
  · have wellFormed := wellFormed_history edits held reached
    exact Circuit.read_write representable wellFormed (fun x member => (doubles x member).1)
      fun x member => (doubles x member).2
  · obtain ⟨document, rest, parsed, _, decoded, wellFormed⟩ := Circuit.read_eq_ok_iff.mp read
    obtain ⟨representable, finite⟩ :=
      Circuit.representable_of_ofDocument? (Document.bounded_parse parsed) decoded
    exact ⟨representable, finite, Circuit.read_write representable wellFormed finite⟩
  · rw [Circuit.read_eq_ok_iff]
    simp only [Circuit.ofDocument?_eq_some_iff, Instruction.validate_eq_ok_iff]
    constructor
    · rintro ⟨document, rest, parsed, ended, ⟨name, dims, listed, found, named, sized, made⟩,
        wellFormed⟩
      exact ⟨document, rest, name, dims, listed, _, parsed, ended, found, named,
        ⟨sized, circuit.register.dims_ne_nil, circuit.register.two_le_of_mem, rfl⟩, made,
        wellFormed⟩
    · rintro ⟨document, rest, name, dims, listed, _, parsed, ended, found, named,
        ⟨sized, _, _, rfl⟩, made, wellFormed⟩
      exact ⟨document, rest, parsed, ended, ⟨name, dims, listed, found, named, sized, made⟩,
        wellFormed⟩

/-- Rotations, a matrix, absent and empty and proper controls, and a measurement. -/
theorem history_text_round_trip_controlled :
    let register : Register := ⟨[2, 3], by decide, by decide⟩
    let matrix : Operator Float := ⟨2, #[⟨0.5, 0.0⟩, ⟨-0.25, 0.5⟩, ⟨0.0, 0.0⟩, ⟨0.5, 0.5⟩], rfl⟩
    let instructions : List (Instruction Float) := [
      .ofGate (.r 0.5 (-0.25) 0 1) [⟨0⟩],
      ⟨.gate (.unitary "u \"2\"" matrix), [⟨0⟩], some ⟨[], []⟩⟩,
      ⟨.gate .x, [⟨1⟩], some ⟨[⟨0⟩], [1]⟩⟩,
      .measure ⟨1⟩]
    let edits : List Edit := [.create "c" [2, 3], .replace 0 instructions]
    let circuit : Circuit Float := ⟨"c", register, instructions⟩
    (history edits).held = [⟨⟨"c", register, []⟩, 0⟩, ⟨circuit, 1⟩] ∧
      Circuit.read circuit.write = .ok circuit := by
  intro register matrix instructions edits circuit
  have held : (history edits).held = [⟨⟨"c", register, []⟩, 0⟩, ⟨circuit, 1⟩] := rfl
  have doubles : circuit.doubles = [0.5, -0.25, 0.5, 0.0, -0.25, 0.5, 0.0, 0.0, 0.5, 0.5] := rfl
  have half : Document.ReadsBack 0.5 :=
    Document.readsBack_of_toFloat? ⟨false, ['0'], ['5'], 0, false⟩ (by decide +kernel) rfl
      (by decide +kernel)
  have quarter : Document.ReadsBack (-0.25) :=
    Document.readsBack_of_toFloat? ⟨true, ['0'], ['2', '5'], 0, false⟩ (by decide +kernel) rfl
      (by decide +kernel)
  have zero : Document.ReadsBack 0.0 :=
    Document.readsBack_of_toFloat? ⟨false, ['0'], ['0'], 0, false⟩ (by decide +kernel) rfl
      (by decide +kernel)
  have representable : circuit.Representable := by
    refine ⟨by decide, by decide, ?_⟩
    simp [circuit, instructions, matrix, Instruction.ofGate, Instruction.measure]
  have finite : ∀ x ∈ circuit.doubles, x.isFinite = true := by
    rw [doubles]
    decide +kernel
  have back : ∀ x ∈ circuit.doubles, Document.ReadsBack x := by
    simp [doubles, half, quarter, zero]
  exact ⟨held, history_text_round_trip.1 edits ⟨circuit, 1⟩ (by simp [held]) representable
    fun x member => ⟨finite x member, back x member⟩⟩

end Workspace
end QuditSynth
