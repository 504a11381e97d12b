import QuditSynth.Proofs.Resynthesis.Barriers
import QuditSynth.Proofs.Resynthesis.Entanglers

namespace QuditSynth

/-! # One pass over a circuit

Windows can be realized as soon as they close, in one pass over the instructions
that keeps nothing but what it has emitted and the window that is still open.
That is how a circuit is compiled, and at every point of the pass the segments
emitted so far and the open window are the cut of the instructions seen so far.
-/

variable {R : Type}

namespace Window

variable {native : NativeSet} {window : Window R} {instructions : List (Instruction R)}

/-- What holds of a window from the moment it is opened. -/
structure Kept (native : NativeSet) (window : Window R) : Prop extends window.Sound where
  nonempty : window.instructions ≠ []
  distinct : window.qudits.Nodup
  flag : window.foreign = true ↔
    ∃ instruction ∈ window.instructions, native.isNative instruction = false
  wide : 3 ≤ window.qudits.length → ∃ first rest, window.instructions = first :: rest ∧
    native.isNative first = false ∧ first.allQudits = window.qudits
  /-- Every operand has a position among the qudits of the window. -/
  located : ∀ instruction ∈ window.instructions, ∀ qudit ∈ instruction.allQudits,
    ∃ position, window.qudits.findIdx? (· = qudit) = some position

theorem kept_of_mem_cut {register : Register}
    (valid : ∀ instruction ∈ instructions, instruction.Valid register)
    (cutOff : .window window ∈ cut native instructions) : window.Kept native := by
  have sound := sound_of_mem_cut cutOff
  have accepted : ∀ instruction ∈ window.instructions, instruction.Valid register :=
    fun instruction member => valid instruction (mem_of_mem_cut cutOff member)
  refine ⟨sound, ?_, (sound.operands accepted).2.1, ?_, fun broad => ?_, ?_⟩
  · obtain ⟨instruction, member, _⟩ := sound.spanned
    exact List.ne_nil_of_mem member
  · rw [(led_of_mem_cut cutOff).flag]
    simp
  · obtain ⟨first, rest, held, spans⟩ := headed_of_mem_cut cutOff broad
    refine ⟨first, rest, held, ?_, spans⟩
    -- A native gate would lie on at most two qudits.
    by_contra isNative
    have few := NativeSet.quditCount_le_two (accepted first (by simp [held]))
      (by simpa using isNative)
    rw [Instruction.quditCount, spans] at few
    omega
  · intro instruction member qudit operand
    have inside := sound.covered instruction member qudit operand
    exact ⟨_, List.findIdx?_eq_some_of_exists ⟨qudit, inside, by simp⟩⟩

end Window

theorem closed_prefix_cut (native : NativeSet) (seen ahead : List (Instruction R)) :
    (seen.foldl (Cutting.step native) {}).closed <+: cut native (seen ++ ahead) := by
  let cutting := seen.foldl (Cutting.step native) {}
  have apart : Cutting.behind cutting.closed { current := cutting.current } = cutting := by
    simp [Cutting.behind]
  have later : ahead.foldl (Cutting.step native)
      (Cutting.behind cutting.closed { current := cutting.current }) = _ :=
    Cutting.run_behind cutting.closed ahead { current := cutting.current }
  rw [apart] at later
  rw [cut, List.foldl_append, later, Cutting.segments_behind]
  exact List.prefix_append _ _

namespace Resynthesis

/-- What a pass has emitted, and the window that is still open. -/
structure Progress (R : Type) where
  emitted : List (Instruction R) := []
  current : Option (Window R) := none

def Progress.pending (progress : Progress R) : List (Instruction R) :=
  (progress.current.map Window.instructions).getD []

theorem segments_pending (cutting : Cutting R) (emitted : List (Instruction R)) :
    cutting.closed.flatMap Segment.instructions ++ Progress.pending ⟨emitted, cutting.current⟩ =
      cutting.segments.flatMap Segment.instructions := by
  cases isOpen : cutting.current <;>
    simp [Cutting.segments, Progress.pending, Segment.instructions, isOpen]

variable [Scalar R] [Exponential R]

section Pass

variable (synthesizer : Synthesizer R) (target : Target R) (register : Register)

def flush (progress : Progress R) : Except (CompileError R) (List (Instruction R)) :=
  match progress.current with
  | none => .ok progress.emitted
  | some window => do return progress.emitted ++ (← realize synthesizer target register window)

def advance (progress : Progress R) (instruction : Instruction R) :
    Except (CompileError R) (Progress R) :=
  if instruction.isMeasure then do
    return { emitted := (← flush synthesizer target register progress) ++ [instruction] }
  else
    match progress.current.bind (·.join target.native instruction) with
    | some window => .ok { progress with current := some window }
    | none => do
        let emitted ← flush synthesizer target register progress
        return { emitted, current := some (.ofInstruction target.native instruction) }

/-- The point of a pass where the instructions seen so far are cut in a certain way. -/
def progressAt (cutting : Cutting R) : Except (CompileError R) (Progress R) := do
  let sequences ← cutting.closed.mapM (realizeSegment synthesizer target register)
  return { emitted := sequences.flatten, current := cutting.current }

theorem flush_progressAt (cutting : Cutting R) :
    progressAt synthesizer target register cutting >>= flush synthesizer target register =
      cutting.segments.mapM (realizeSegment synthesizer target register) >>=
        fun sequences => .ok sequences.flatten := by
  cases cutting with
  | mk closed current =>
      cases current with
      | none => simp [progressAt, flush, Cutting.segments]
      | some window => simp [progressAt, flush, Cutting.segments, realizeSegment]

/-- One instruction further, the cut is one instruction longer. -/
theorem advance_progressAt (cutting : Cutting R) (instruction : Instruction R) :
    (progressAt synthesizer target register cutting >>=
        fun progress => advance synthesizer target register progress instruction) =
      progressAt synthesizer target register (cutting.step target.native instruction) := by
  have flushed := flush_progressAt synthesizer target register cutting
  cases kind : instruction.isMeasure with
  | true =>
      simp only [advance, kind, ↓reduceIte, ← bind_assoc, flushed]
      simp [progressAt, Cutting.step, kind, realizeSegment]
  | false =>
      cases joins : cutting.current.bind (·.join target.native instruction) with
      | some joined => simp [progressAt, advance, Cutting.step, kind, joins]
      | none =>
          simp only [progressAt, bind_assoc, pure_bind] at flushed
          simp only [progressAt, bind_assoc, pure_bind, advance, kind, joins, Bool.false_eq_true,
            ↓reduceIte, Cutting.step, Cutting.reopen]
          rw [← bind_assoc, flushed]
          simp

theorem run_progressAt (instructions : List (Instruction R)) (cutting : Cutting R) :
    (progressAt synthesizer target register cutting >>=
        instructions.foldlM (advance synthesizer target register)) =
      progressAt synthesizer target register
        (instructions.foldl (Cutting.step target.native) cutting) := by
  induction instructions generalizing cutting with
  | nil => exact bind_pure _
  | cons instruction instructions ih =>
      rw [List.foldl_cons, ← ih, ← advance_progressAt, bind_assoc]
      rfl

/-- A pass stands at the cut of the instructions it has seen. -/
theorem pass_eq_progressAt (seen : List (Instruction R)) :
    seen.foldlM (advance synthesizer target register) {} =
      progressAt synthesizer target register (seen.foldl (Cutting.step target.native) {}) :=
  run_progressAt synthesizer target register seen {}

theorem compileWith_eq_pass (circuit : Circuit R) :
    compileWith synthesizer target circuit = (do
      let last ← circuit.instructions.foldlM (advance synthesizer target circuit.register) {}
      circuit.withInstructions (← flush synthesizer target circuit.register last)) := by
  rw [pass_eq_progressAt, ← bind_assoc, flush_progressAt, compileWith, cut]
  simp

/-- A point of a pass over a circuit. Some segments of its cut have been realized one after the
other, and together with the open window they hold what has been seen. -/
structure PassesThrough (circuit : Circuit R) (seen : List (Instruction R))
    (progress : Progress R) : Prop where
  flushed : ∃ closed sequences, closed <+: cut target.native circuit.instructions ∧
    closed.mapM (realizeSegment synthesizer target circuit.register) = .ok sequences ∧
    progress.emitted = sequences.flatten ∧
    closed.flatMap Segment.instructions ++ progress.pending = seen ∧
    ∀ window, .window window ∈ closed → window.Kept target.native
  current : ∀ window, progress.current = some window → window.Kept target.native

theorem passesThrough_of_seen {circuit : Circuit R} (wellFormed : circuit.WellFormed)
    {seen ahead : List (Instruction R)} (split : circuit.instructions = seen ++ ahead)
    {progress : Progress R}
    (reached : seen.foldlM (advance synthesizer target circuit.register) {} = .ok progress) :
    PassesThrough synthesizer target circuit seen progress := by
  let cutting := seen.foldl (Cutting.step target.native) {}
  have valid : ∀ instruction ∈ seen, instruction.Valid circuit.register :=
    fun instruction member => wellFormed instruction (by simp [split, member])
  have kept : ∀ window, .window window ∈ cutting.segments → window.Kept target.native :=
    fun window member => Window.kept_of_mem_cut valid member
  rw [pass_eq_progressAt] at reached
  obtain ⟨sequences, realized, stands⟩ := Outcome.bind_eq_ok_iff.mp reached
  obtain rfl := Except.ok.inj stands
  refine ⟨⟨cutting.closed, sequences, ?_, realized, rfl, ?_, ?_⟩, ?_⟩
  · rw [split]
    exact closed_prefix_cut target.native seen ahead
  · exact (segments_pending cutting _).trans (cut_instructions target.native seen)
  · exact fun window member => kept window (by simp [Cutting.segments, member])
  · intro window isOpen
    have here : cutting.current = some window := isOpen
    exact kept window (by simp [Cutting.segments, here])

end Pass

/-- A circuit that edits can produce is compiled in one pass, and at every point of the pass the
open window is a stretch of gates on the qudits of one of them. Everything before it has been
emitted, or the compilation has failed. -/
theorem compile_in_one_pass (target : Target Float) (edits : List Edit) (held : Held Float)
    (reached : held ∈ (Workspace.history edits).held) :
    let circuit := held.circuit
    let synthesizer := Search.synthesizeWith target.config
    let step := advance synthesizer target circuit.register
    (compile target circuit = do
      let last ← circuit.instructions.foldlM step {}
      circuit.withInstructions (← flush synthesizer target circuit.register last)) ∧
    ∀ seen ahead, circuit.instructions = seen ++ ahead →
      (∀ progress, seen.foldlM step {} = .ok progress →
        PassesThrough synthesizer target circuit seen progress) ∧
      ∀ cause, seen.foldlM step {} = .error cause → compile target circuit = .error cause := by
  intro circuit synthesizer step
  have wellFormed : circuit.WellFormed := Workspace.wellFormed_history edits held reached
  have pass : compile target circuit = (do
      let last ← circuit.instructions.foldlM step {}
      circuit.withInstructions (← flush synthesizer target circuit.register last)) :=
    compileWith_eq_pass synthesizer target circuit
  refine ⟨pass, fun seen ahead split => ⟨fun progress point => ?_, fun cause failed => ?_⟩⟩
  · exact passesThrough_of_seen synthesizer target wellFormed split point
  · rw [pass, split, List.foldlM_append, failed]
    rfl

/-- A foreign gate on three qudits opens a window of its own, behind a native gate that has been
emitted by then. -/
theorem compile_in_one_pass_wide :
    let target : Target Float := { config := .standard }
    let register : Register := ⟨[2, 3, 2], by decide, by decide⟩
    let turn : Instruction Float := .ofGate (.rz 0.5 0 1) [⟨0⟩]
    let wide : Instruction Float := ⟨.gate .x, [⟨1⟩], some ⟨[⟨0⟩, ⟨2⟩], [1, 0]⟩⟩
    let held : Held Float := ⟨⟨"c", register, [turn, wide, turn]⟩, 3⟩
    let edits : List Edit := [.create "c" [2, 3, 2], .append 0 turn, .append 0 wide,
      .append 0 turn]
    let window : Window Float := ⟨[⟨1⟩, ⟨0⟩, ⟨2⟩], [wide], true⟩
    held ∈ (Workspace.history edits).held ∧
      [turn, wide].foldlM (advance (Search.synthesizeWith target.config) target register) {} =
        .ok ⟨[turn], some window⟩ ∧
      PassesThrough (Search.synthesizeWith target.config) target held.circuit [turn, wide]
        ⟨[turn], some window⟩ ∧
      window.Kept target.native := by
  intro target register turn wide held edits window
  have reached : held ∈ (Workspace.history edits).held := List.mem_singleton.mpr rfl
  have point : [turn, wide].foldlM (advance (Search.synthesizeWith target.config) target register)
      {} = .ok ⟨[turn], some window⟩ := rfl
  have passes := ((compile_in_one_pass target edits held reached).2 [turn, wide] [turn] rfl).1
    _ point
  exact ⟨reached, point, passes, passes.current window rfl⟩

end Resynthesis
end QuditSynth
