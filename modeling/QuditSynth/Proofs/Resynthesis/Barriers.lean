import QuditSynth.Proofs.Resynthesis.Factorization
import QuditSynth.Proofs.Synthesis.Validity

namespace QuditSynth

/-! # Measurements are barriers

A measurement closes the open window, and no window reaches back over it. What
stands before it and what stands after it are therefore compiled on their own,
and since compilation never objects to its own output, so is a circuit that is
put together around a measurement.
-/

variable {R : Type}

namespace Cutting

variable {native : NativeSet} {instruction : Instruction R}

/-- The same cutting after some more segments that are closed already. -/
def behind (front : List (Segment R)) (cutting : Cutting R) : Cutting R :=
  { cutting with closed := front ++ cutting.closed }

theorem segments_behind (front : List (Segment R)) (cutting : Cutting R) :
    (cutting.behind front).segments = front ++ cutting.segments := by
  simp [behind, segments]

theorem step_behind (front : List (Segment R)) (cutting : Cutting R) :
    (cutting.behind front).step native instruction =
      (cutting.step native instruction).behind front := by
  cases kind : instruction.isMeasure with
  | true => simp [step, kind, segments, behind]
  | false =>
      cases joins : cutting.current.bind (·.join native instruction) with
      | none => simp [step, kind, joins, reopen, segments, behind]
      | some joined => simp [step, kind, joins, behind]

/-- Closed segments stay in front of whatever follows and have no part in it. -/
theorem run_behind (front : List (Segment R)) (instructions : List (Instruction R))
    (cutting : Cutting R) :
    instructions.foldl (step native) (cutting.behind front) =
      (instructions.foldl (step native) cutting).behind front := by
  induction instructions generalizing cutting with
  | nil => rfl
  | cons instruction instructions ih => rw [List.foldl_cons, step_behind, ih, List.foldl_cons]

end Cutting

/-- The segments before a measurement, the measurement, and the segments after it. -/
theorem cut_barrier (native : NativeSet) (before after : List (Instruction R))
    {barrier : Instruction R} (measures : barrier.isMeasure = true) :
    cut native (before ++ [barrier] ++ after) =
      cut native before ++ [.measurement barrier] ++ cut native after := by
  have closed : (before.foldl (Cutting.step native) {}).step native barrier =
      Cutting.behind (cut native before ++ [.measurement barrier]) {} := by
    simp [Cutting.step, measures, Cutting.behind, cut]
  rw [cut, List.foldl_append, List.foldl_append, List.foldl_cons, List.foldl_nil, closed,
    Cutting.run_behind, Cutting.segments_behind]
  rfl

variable [Scalar R] [Exponential R]

/-- The operator of a window on one qudit has no more levels than the qudit. -/
theorem Window.dim_operator_le {window : Window R} {register : Register} {qudit : Qudit}
    {u : Operator R} (alone : window.qudits = [qudit])
    (built : window.operator register = .ok u) : u.dim ≤ register.dims.getD qudit.index 1 := by
  rw [operator_eq_localized] at built
  obtain ⟨inner, selected, built⟩ := Outcome.bind_eq_ok_iff.mp built
  obtain ⟨circuit, accepted, built⟩ := Outcome.bind_eq_ok_iff.mp built
  obtain ⟨_, rfl⟩ := Circuit.withInstructions_eq_ok_iff.mp accepted
  obtain ⟨_, innerDims⟩ := Register.select_eq_ok_iff.mp selected
  have size : product inner.dims = register.dims.getD qudit.index 1 := by
    rw [innerDims, alone]
    exact product_single _
  exact ((Circuit.dim_of_operator built).2.trans size).le

namespace Resynthesis

variable {target : Target R} {circuit : Circuit R} {register : Register} {window : Window R}
  {sequence : List (Instruction R)}

theorem realize_valid (sound : window.Sound)
    (valid : ∀ instruction ∈ window.instructions, instruction.Valid register)
    (realized : realize (Search.synthesizeWith target.config) target register window =
      .ok sequence) : ∀ instruction ∈ sequence, instruction.Valid register := by
  obtain ⟨within, distinct, _⟩ := sound.operands valid
  unfold realize at realized
  split at realized
  case h_1 =>
      cases realized
      exact valid
  case h_2 =>
      split at realized
      case h_1 qudit alone =>
          obtain ⟨u, built, decomposed⟩ := Outcome.bind_eq_ok_iff.mp realized
          have operator := (Delivers.lift _).value built
          exact decomposeSingleQudit_valid decomposed (within qudit (by simp [alone]))
            (Window.dim_operator_le alone operator)
      case h_2 first second pair =>
          obtain ⟨u, _, realized⟩ := Outcome.bind_eq_ok_iff.mp realized
          obtain ⟨firstDim, firstFound, realized⟩ := Outcome.bind_eq_ok_iff.mp realized
          obtain ⟨secondDim, secondFound, realized⟩ := Outcome.bind_eq_ok_iff.mp realized
          obtain ⟨synthesis, found, assembled⟩ := Outcome.bind_eq_ok_iff.mp realized
          cases assembled
          obtain ⟨firstWithin, rfl⟩ :=
            Register.dimensionOf_eq_ok_iff.mp ((Delivers.lift _).value firstFound)
          obtain ⟨secondWithin, rfl⟩ :=
            Register.dimensionOf_eq_ok_iff.mp ((Delivers.lift _).value secondFound)
          have apart : first ≠ second := by simpa [pair] using distinct
          exact Synthesis.valid_remapped apart firstWithin secondWithin
            fun inner innerDims => Search.synthesizeWith_valid found innerDims
      case h_3 => cases realized

theorem realizeSegment_valid (wellFormed : circuit.WellFormed) {segment : Segment R}
    (cutOff : segment ∈ cut target.native circuit.instructions)
    (realized : realizeSegment (Search.synthesizeWith target.config) target circuit.register
      segment = .ok sequence) :
    ∀ instruction ∈ sequence, instruction.Valid circuit.register := by
  have valid : ∀ instruction ∈ segment.instructions, instruction.Valid circuit.register :=
    fun instruction member => wellFormed instruction (mem_of_mem_cut cutOff member)
  cases segment with
  | measurement instruction =>
      cases realized
      exact valid
  | window window => exact realize_valid (sound_of_mem_cut cutOff) valid realized

/-- The compiled instructions of a circuit of valid instructions are accepted as they are. -/
theorem compiled_accepted (wellFormed : circuit.WellFormed)
    {sequences : List (List (Instruction R))}
    (realized : (cut target.native circuit.instructions).mapM
      (realizeSegment (Search.synthesizeWith target.config) target circuit.register) =
        .ok sequences) :
    circuit.withInstructions sequences.flatten =
      .ok { circuit with instructions := sequences.flatten } := by
  refine Circuit.withInstructions_eq_ok_iff.mpr ⟨fun instruction member => ?_, rfl⟩
  obtain ⟨sequence, emitted, inside⟩ := List.mem_flatten.mp member
  exact Outcome.mapM_forall (fun segment cutOff sequence made =>
    realizeSegment_valid wellFormed cutOff made) realized sequence emitted instruction inside

theorem compile_wellFormed (wellFormed : circuit.WellFormed) :
    compile target circuit = (do
      let sequences ← (cut target.native circuit.instructions).mapM
        (realizeSegment (Search.synthesizeWith target.config) target circuit.register)
      return { circuit with instructions := sequences.flatten }) := by
  rw [compile, compileWith]
  cases realized : (cut target.native circuit.instructions).mapM
      (realizeSegment (Search.synthesizeWith target.config) target circuit.register) with
  | error cause => rfl
  | ok sequences =>
      rw [Outcome.ok_bind, compiled_accepted wellFormed realized]
      rfl

/-- A segment is replaced by as many measurements as it holds: itself, or none at all. -/
theorem realizeSegment_measurements {segment : Segment R}
    (cutOff : segment ∈ cut target.native circuit.instructions)
    (realized : realizeSegment (Search.synthesizeWith target.config) target register segment =
      .ok sequence) :
    sequence.filter (·.isMeasure) = segment.instructions.filter (·.isMeasure) := by
  cases segment with
  | measurement instruction =>
      cases realized
      rfl
  | window window =>
      have sound := sound_of_mem_cut cutOff
      have gates : ∀ instruction ∈ sequence, instruction.isMeasure = false := by
        cases (realize_delivers target register window).value realized with
        | kept same _ => exact same ▸ sound.gates
        | replaced _ pulses _ => exact fun instruction member => (pulses instruction member).gate
      have noneLeft : sequence.filter (·.isMeasure) = [] := by simpa using gates
      have noneThere : window.instructions.filter (·.isMeasure) = [] := by simpa using sound.gates
      exact noneLeft.trans noneThere.symm

/-- What every segment keeps of its instructions, the whole circuit keeps. -/
theorem compile_filter {out : Circuit R} {keep : Instruction R → Bool}
    (kept : ∀ segment ∈ cut target.native circuit.instructions, ∀ sequence,
      realizeSegment (Search.synthesizeWith target.config) target circuit.register segment =
        .ok sequence → sequence.filter keep = segment.instructions.filter keep)
    (compiled : compile target circuit = .ok out) :
    out.instructions.filter keep = circuit.instructions.filter keep := by
  obtain ⟨sequences, realized, _, rfl⟩ := compile_eq_ok compiled
  have same : List.Forall₂ (fun segment sequence =>
      segment.instructions.filter keep = sequence.filter keep)
      (cut target.native circuit.instructions) sequences := by
    refine ((List.forall₂_and_left _ _).mpr ⟨fun _ cutOff => cutOff, realized⟩).imp ?_
    rintro segment sequence ⟨cutOff, made⟩
    exact (kept segment cutOff sequence made).symm
  have held := congrArg (List.filter keep) (cut_instructions target.native circuit.instructions)
  rw [List.filter_flatMap, List.flatMap_def] at held
  rw [List.filter_flatten, ← held]
  congr 1
  exact (List.forall₂_eq_eq_eq ▸ List.forall₂_map_left_iff.mpr
    (List.forall₂_map_right_iff.mpr same)).symm

theorem compile_measurements {out : Circuit R} (compiled : compile target circuit = .ok out) :
    out.instructions.filter (·.isMeasure) = circuit.instructions.filter (·.isMeasure) :=
  compile_filter (fun _ cutOff _ realized => realizeSegment_measurements cutOff realized) compiled

/-- Compiling around a measurement is compiling what stands before it and what stands after it, in
this order: the first failure is the failure of the whole, and otherwise the compiled instructions
stand around the measurement. Measurements stay as they are and in their order. -/
theorem compile_barrier (target : Target R) (name : String) (register : Register)
    (before after : List (Instruction R)) (barrier : Instruction R)
    (beforeValid : ∀ instruction ∈ before, instruction.validate register = .ok ())
    (afterValid : ∀ instruction ∈ after, instruction.validate register = .ok ())
    (barrierValid : barrier.validate register = .ok ()) (measures : barrier.isMeasure = true) :
    compile target ⟨name, register, before ++ [barrier] ++ after⟩ = (do
      let first ← compile target ⟨name, register, before⟩
      let second ← compile target ⟨name, register, after⟩
      return ⟨name, register, first.instructions ++ [barrier] ++ second.instructions⟩) ∧
    ∀ out, compile target ⟨name, register, before ++ [barrier] ++ after⟩ = .ok out →
      out.instructions.filter (·.isMeasure) =
        before.filter (·.isMeasure) ++ [barrier] ++ after.filter (·.isMeasure) := by
  simp only [Instruction.validate_eq_ok_iff] at beforeValid afterValid barrierValid
  have whole : Circuit.WellFormed ⟨name, register, before ++ [barrier] ++ after⟩ := by
    intro instruction member
    simp only [List.mem_append, List.mem_singleton] at member
    rcases member with (early | rfl) | late
    · exact beforeValid instruction early
    · exact barrierValid
    · exact afterValid instruction late
  have front : Circuit.WellFormed ⟨name, register, before⟩ := beforeValid
  have back : Circuit.WellFormed ⟨name, register, after⟩ := afterValid
  constructor
  · rw [compile_wellFormed whole, compile_wellFormed front, compile_wellFormed back]
    simp only [cut_barrier target.native before after measures, List.mapM_append, List.mapM_cons,
      List.mapM_nil, realizeSegment]
    cases (cut target.native before).mapM
        (realizeSegment (Search.synthesizeWith target.config) target register) with
    | error cause => rfl
    | ok first =>
        cases (cut target.native after).mapM
            (realizeSegment (Search.synthesizeWith target.config) target register) with
        | error cause => rfl
        | ok second => simp
  · intro out compiled
    simpa [List.filter_append, measures] using compile_measurements compiled

/-- Shifts around measurements, and a gate on three qudits after one, which is refused. -/
theorem compile_barrier_shift :
    let _ : Exponential ℝ := .taylor
    let target : Target ℝ := { config := .standard }
    let register : Register := ⟨[3, 2, 2], by decide, by decide⟩
    let shift : Instruction ℝ := .ofGate .x [⟨0⟩]
    let wide : Instruction ℝ := .ofGate (.unitary "u" (.identity 12)) [⟨0⟩, ⟨1⟩, ⟨2⟩]
    let early : Instruction ℝ := .measure ⟨0⟩
    let late : Instruction ℝ := .measure ⟨1⟩
    (∃ first second : Circuit ℝ,
      compile target ⟨"c", register, [shift, early]⟩ = .ok first ∧
      compile target ⟨"c", register, [shift]⟩ = .ok second ∧
      compile target ⟨"c", register, [shift, early, late, shift]⟩ =
        .ok ⟨"c", register, first.instructions ++ [late] ++ second.instructions⟩ ∧
      (first.instructions ++ [late] ++ second.instructions).filter Instruction.isMeasure =
        [early, late]) ∧
    compile target ⟨"c", register, [shift, late, wide]⟩ =
      .error (.unsupportedInstruction "u" 3) := by
  intro taylor target register shift wide early late
  have realized : ∃ sequence, realize (Search.synthesizeWith target.config) target register
      (.shifts ⟨0⟩ 1 true) = .ok sequence ∧ ∀ instruction ∈ sequence, instruction.Valid register :=
    realize_shifts_exists target (by decide) rfl 1 true
  have single : ∃ second, compile target ⟨"c", register, [shift]⟩ = .ok second :=
    compile_exists (List.forall_mem_singleton.mpr realized)
  have measured : ∃ first, compile target ⟨"c", register, [shift, early]⟩ = .ok first := by
    refine compile_exists (List.forall_mem_cons.mpr ⟨realized, List.forall_mem_singleton.mpr
      ⟨_, rfl, ?_⟩⟩)
    exact List.forall_mem_singleton.mpr (Instruction.validate_eq_ok_iff.mp rfl)
  obtain ⟨second, compiledSecond⟩ := single
  obtain ⟨first, compiledFirst⟩ := measured
  have shiftValid : ∀ instruction ∈ [shift], instruction.validate register = .ok () :=
    List.forall_mem_singleton.mpr rfl
  have measuredValid : ∀ instruction ∈ [shift, early], instruction.validate register = .ok () :=
    List.forall_mem_cons.mpr ⟨rfl, List.forall_mem_singleton.mpr rfl⟩
  have wideValid : ∀ instruction ∈ [wide], instruction.validate register = .ok () :=
    List.forall_mem_singleton.mpr rfl
  obtain ⟨composed, measurements⟩ :=
    compile_barrier target "c" register [shift, early] [shift] late measuredValid shiftValid rfl rfl
  rw [compiledFirst, compiledSecond] at composed
  have refused : compile target ⟨"c", register, [wide]⟩ =
      .error (.unsupportedInstruction "u" 3) := rfl
  obtain ⟨failed, _⟩ :=
    compile_barrier target "c" register [shift] [wide] late shiftValid wideValid rfl rfl
  rw [compiledSecond, refused] at failed
  exact ⟨⟨first, second, compiledFirst, compiledSecond, composed, measurements _ composed⟩, failed⟩

end Resynthesis
end QuditSynth
