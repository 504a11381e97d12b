import QuditSynth.Proofs.Circuit.Reachable
import QuditSynth.Proofs.Resynthesis.Barriers
import QuditSynth.Proofs.Synthesis.Outcomes

namespace QuditSynth

/-! # How compilation can fail

Compilation stops at the first window that it cannot replace. Windows on three or
more qudits always begin with the gate that spans them, so the gate that is
reported is the first one of the circuit that is too wide. Smaller windows of a
circuit of valid instructions are valid on their own qudits, and so are the gates
that stand for them: what is left are operators that are not unitary, searches
that fail, and tables that do not fit into memory.
-/

variable {R : Type}

theorem Gate.length_le_two {gate : Gate R} {dims : List Nat} (known : gate.isCustom = false)
    (suited : gate.checkLevels dims = .ok ()) : dims.length ≤ 2 := by
  have counted := (Outcome.check_bind_eq_ok_iff.mp suited).1
  cases gate with
  | unitary name operator => cases known
  | r | rz | virtRz | h | x | cex | ms | csum =>
      simp only [checkArity, arity] at counted
      split at counted
      · next same => simp [same]
      · cases counted

/-- Native gates act on at most two qudits. -/
theorem NativeSet.quditCount_le_two {native : NativeSet} {instruction : Instruction R}
    {register : Register} (valid : instruction.Valid register)
    (isNative : native.isNative instruction = true) : instruction.quditCount ≤ 2 := by
  cases acts : instruction.action with
  | measure => simp [NativeSet.isNative, Instruction.gate?, acts] at isNative
  | gate gate =>
      simp only [NativeSet.isNative, Instruction.gate?, acts, Bool.and_eq_true,
        Bool.not_eq_true'] at isNative
      obtain ⟨⟨known, free⟩, _⟩ := isNative
      have none : instruction.controlQudits = [] := by
        simpa [Instruction.isControlled] using free
      have few := Gate.length_le_two known (valid.gate_suited acts).2
      simpa [Instruction.quditCount, Instruction.allQudits, none] using few

/-- What holds of the window of a single gate and is kept when a gate joins holds of every window
of a cut. -/
theorem window_of_cut {native : NativeSet} {instructions : List (Instruction R)}
    (property : Window R → Prop)
    (single : ∀ instruction, property (.ofInstruction native instruction))
    (joins : ∀ window joined instruction, property window →
      window.join native instruction = some joined → property joined) :
    ∀ window, .window window ∈ cut native instructions → property window := by
  have run : ∀ cutting : Cutting R, (∀ window, .window window ∈ cutting.segments →
      property window) → ∀ window,
        .window window ∈ (instructions.foldl (Cutting.step native) cutting).segments →
          property window := by
    induction instructions with
    | nil => exact fun _ held => held
    | cons instruction instructions ih =>
        intro cutting held
        refine ih (cutting.step native instruction) fun window member => ?_
        rcases Cutting.step_cases native cutting instruction with
          ⟨_, stepped⟩ | ⟨_, old, joined, current, accepted, stepped⟩ | ⟨_, stepped⟩
        · rw [stepped] at member
          exact held window (by simpa [Cutting.segments] using member)
        · rw [stepped] at member
          simp only [Cutting.segments, Option.toList_some, List.map_cons, List.map_nil,
            List.mem_append, List.mem_singleton, Segment.window.injEq] at member
          rcases member with closed | rfl
          · exact held window (by simp [Cutting.segments, closed])
          · exact joins old window instruction (held old (by simp [Cutting.segments, current]))
              accepted
        · rw [stepped] at member
          simp only [Cutting.segments, Cutting.reopen, Option.toList_some, List.map_cons,
            List.map_nil, List.mem_append, List.mem_singleton, Segment.window.injEq] at member
          rcases member with closed | rfl
          · exact held window (by simpa [Cutting.segments] using closed)
          · exact single instruction
  exact run {} (by simp [Cutting.segments])

namespace Window

/-- A window on three or more qudits begins with a gate on all of them. -/
def Headed (window : Window R) : Prop :=
  3 ≤ window.qudits.length → ∃ first rest, window.instructions = first :: rest ∧
    first.allQudits = window.qudits

theorem headed_of_mem_cut {native : NativeSet} {instructions : List (Instruction R)}
    {window : Window R} (cutOff : .window window ∈ cut native instructions) : window.Headed := by
  refine window_of_cut Headed (fun instruction _ => ⟨instruction, [], rfl, rfl⟩) ?_ window cutOff
  intro window joined instruction headed accepted broad
  obtain ⟨extended, widened⟩ := join_eq_some accepted
  unfold widen at widened
  split at widened
  · obtain same := Option.some.inj widened
    rw [← same] at broad
    obtain ⟨first, rest, held, spans⟩ := headed broad
    exact ⟨first, rest ++ [instruction], by simp [extended, held], spans.trans same⟩
  · -- A window grows from one qudit to two and no further.
    split at widened
    · next pair =>
      split at widened
      · obtain same := Option.some.inj widened
        rw [← same, pair] at broad
        simp at broad
      · cases widened
    · cases widened

/-- The dimensions of the qudits of a window. -/
def dims (window : Window R) (register : Register) : List Nat :=
  Axis.targetDims register.dims (window.qudits.map Qudit.index)

section Valid

variable {window : Window R} {register : Register} (sound : window.Sound)
  (valid : ∀ instruction ∈ window.instructions, instruction.Valid register)

include sound valid

/-- The instructions of a window are accepted on the qudits of the window alone. -/
theorem accepted_alone : ∃ inner, register.select window.qudits = .ok inner ∧
    inner.dims = window.dims register ∧
    (Circuit.empty "window" inner).withInstructions
        (window.instructions.map (·.remap (positionIn window.qudits))) =
      .ok ⟨"window", inner, window.instructions.map (·.remap (positionIn window.qudits))⟩ := by
  obtain ⟨within, _, some⟩ := sound.operands valid
  exact accepted_of_valid within some valid sound.covered

variable [Scalar R] [Exponential R]

theorem operator_exists
    (room : product (window.dims register) * product (window.dims register) * 16 < 2 ^ 63) :
    ∃ u, window.operator register = .ok u ∧ u.dim = product (window.dims register) := by
  obtain ⟨within, _, some⟩ := sound.operands valid
  exact operator_exists_of_valid within some valid sound.covered sound.gates
    (checkCapacity_eq_ok_iff.mpr room)

theorem operator_unaddressable
    (large : ¬ product (window.dims register) * product (window.dims register) * 16 < 2 ^ 63) :
    window.operator register = .error .outOfRange := by
  obtain ⟨within, _, some⟩ := sound.operands valid
  exact operator_refused_of_valid within some valid sound.covered (if_neg large)

end Valid

end Window

namespace Resynthesis

variable [Scalar R] [Exponential R] {target : Target R} {circuit : Circuit R}
  {register : Register} {window : Window R}

/-- Why a window on one or two qudits may be refused. -/
inductive Refusal (target : Target R) (register : Register) (window : Window R) :
    CompileError R → Prop
  /-- A window on one qudit whose operator is too far from a unitary one. -/
  | notUnitary {qudit : Qudit} {u : Operator R} (alone : window.qudits = [qudit])
      (built : window.operator register = .ok u)
      (far : u.isUnitary (Operator.unitarityTolerance * 1e3) = false) :
      Refusal target register window
        (.circuit (.nonUnitary s!"{u.dim}x{u.dim} block on {qudit.text}"))
  /-- A window on two qudits whose search fails. -/
  | search {first second : Qudit} {cause : CompileError R} (pair : window.qudits = [first, second])
      (failed : Search.Failure target.config ((target.familyFor first second).entangler
        (register.dims.getD first.index 1, register.dims.getD second.index 1)) cause) :
      Refusal target register window cause
  /-- An operator that does not fit into memory. -/
  | unaddressable (narrow : window.qudits.length ≤ 2)
      (large : ¬ product (window.dims register) * product (window.dims register) * 16 < 2 ^ 63) :
      Refusal target register window (.circuit .outOfRange)

section Foreign

variable {offender : Instruction R}
  (found : window.instructions.find? (!target.native.isNative ·) = some offender)

include found

theorem realize_one {qudit : Qudit} (synthesizer : Synthesizer R)
    (alone : window.qudits = [qudit]) :
    realize synthesizer target register window = (do
      let operator ← window.operator register
      decomposeSingleQudit operator qudit) := by
  rw [realize, found]
  simp only [alone]

theorem realize_two {first second : Qudit} (synthesizer : Synthesizer R)
    (pair : window.qudits = [first, second]) :
    realize synthesizer target register window = (do
      let operator ← window.operator register
      let dims := (← register.dimensionOf first, ← register.dimensionOf second)
      let synthesis ← synthesizer (target.familyFor first second) operator dims
      return synthesis.remapped first second) := by
  rw [realize, found]
  simp only [pair]

end Foreign

section Narrow

variable {u : Operator R} {offender : Instruction R}
  (found : window.instructions.find? (!target.native.isNative ·) = some offender)
  (built : window.operator register = .ok u)

include found built

end Narrow

section Circuit

variable (wellFormed : circuit.WellFormed)

include wellFormed

omit [Scalar R] [Exponential R] in
theorem valid_of_mem_cut {native : NativeSet} {segment : Segment R}
    (cutOff : segment ∈ cut native circuit.instructions) :
    ∀ instruction ∈ segment.instructions, instruction.Valid circuit.register :=
  fun instruction member => wellFormed instruction (mem_of_mem_cut cutOff member)

end Circuit

end Resynthesis

end QuditSynth
