import QuditSynth.Resynthesis.Window
import Mathlib.Data.Set.List

namespace QuditSynth

/-! # The windows of a cut

Cutting goes through the instructions once. After every step the segments hold
the instructions seen so far, in order, and every window lies on the qudits of
one of its gates.
-/

variable {R : Type} {native : NativeSet} {instruction : Instruction R}

namespace Window

variable {window joined : Window R}

/-- A window holds gates only, and its qudits are those of a gate that covers all the others. -/
structure Sound (window : Window R) : Prop where
  gates : ∀ instruction ∈ window.instructions, instruction.isMeasure = false
  spanned : ∃ instruction ∈ window.instructions, window.qudits = instruction.allQudits
  covered : ∀ instruction ∈ window.instructions, ∀ qudit ∈ instruction.allQudits,
    qudit ∈ window.qudits

theorem sound_ofInstruction (gate : instruction.isMeasure = false) :
    (ofInstruction native instruction).Sound where
  gates := by simpa [ofInstruction] using gate
  spanned := ⟨instruction, by simp [ofInstruction], rfl⟩
  covered := by simp [ofInstruction]

/-- A gate joins a window inside the qudits of the window, or brings all of them with it. -/
theorem widen_eq_some {qudits wider : List Qudit} {isNative : Bool}
    (widened : window.widen qudits isNative = some wider) :
    (wider = window.qudits ∧ ∀ qudit ∈ qudits, qudit ∈ window.qudits) ∨
      (wider = qudits ∧ ∀ qudit ∈ window.qudits, qudit ∈ qudits) := by
  unfold widen at widened
  split at widened
  case isTrue inside =>
      exact Or.inl ⟨(Option.some.inj widened).symm, by simpa using inside⟩
  case isFalse =>
      split at widened
      case h_1 only first second alone _ =>
          split at widened
          case isTrue joins =>
              have covered : only = first ∨ only = second := by
                simp only [Bool.and_eq_true] at joins
                simpa using joins.1
              exact Or.inr ⟨(Option.some.inj widened).symm, by simpa [alone] using covered⟩
          case isFalse => cases widened
      case h_2 => cases widened

theorem join_eq_some (accepted : window.join native instruction = some joined) :
    joined.instructions = window.instructions ++ [instruction] ∧
      window.widen instruction.allQudits (native.isNative instruction) = some joined.qudits := by
  obtain ⟨qudits, widened, assembled⟩ := Option.bind_eq_some_iff.mp accepted
  obtain rfl := Option.some.inj assembled
  exact ⟨rfl, widened⟩

theorem Sound.join (sound : window.Sound) (gate : instruction.isMeasure = false)
    (accepted : window.join native instruction = some joined) : joined.Sound := by
  obtain ⟨extended, widened⟩ := join_eq_some accepted
  rcases widen_eq_some widened with ⟨same, inside⟩ | ⟨wider, brought⟩
  · obtain ⟨spanning, member, spans⟩ := sound.spanned
    refine ⟨?_, ⟨spanning, by simp [extended, member], same.trans spans⟩, ?_⟩
    · simpa [extended, or_imp, forall_and] using ⟨sound.gates, gate⟩
    · simpa [extended, same, or_imp, forall_and] using ⟨sound.covered, inside⟩
  · refine ⟨?_, ⟨instruction, by simp [extended], wider⟩, ?_⟩
    · simpa [extended, or_imp, forall_and] using ⟨sound.gates, gate⟩
    · have carried : ∀ other ∈ window.instructions, ∀ qudit ∈ other.allQudits,
          qudit ∈ instruction.allQudits :=
        fun other member qudit touched => brought qudit (sound.covered other member qudit touched)
      simpa [extended, wider, or_imp, forall_and] using carried

end Window

namespace Cutting

variable {cutting : Cutting R} {seen : List (Instruction R)}

/-- A measurement closes the open window, and a gate joins it or opens the next one. -/
theorem step_cases (native : NativeSet) (cutting : Cutting R) (instruction : Instruction R) :
    (instruction.isMeasure = true ∧ cutting.step native instruction =
      { closed := cutting.segments ++ [.measurement instruction] }) ∨
    (instruction.isMeasure = false ∧ ∃ window joined, cutting.current = some window ∧
      window.join native instruction = some joined ∧
      cutting.step native instruction = { cutting with current := some joined }) ∨
    (instruction.isMeasure = false ∧
      cutting.step native instruction = cutting.reopen native instruction) := by
  cases kind : instruction.isMeasure with
  | true => exact Or.inl ⟨rfl, by simp [step, kind]⟩
  | false =>
      cases joins : cutting.current.bind (·.join native instruction) with
      | none => exact Or.inr (Or.inr ⟨rfl, by simp [step, kind, joins]⟩)
      | some joined =>
          obtain ⟨window, current, accepted⟩ := Option.bind_eq_some_iff.mp joins
          exact Or.inr (Or.inl ⟨rfl, window, joined, current, accepted,
            by simp [step, kind, joins]⟩)

/-- The segments hold the given instructions, in order, in sound windows and measurements. -/
structure Covers (cutting : Cutting R) (seen : List (Instruction R)) : Prop where
  instructions : cutting.segments.flatMap Segment.instructions = seen
  windows : ∀ window, .window window ∈ cutting.segments → window.Sound
  measurements : ∀ instruction, .measurement instruction ∈ cutting.segments →
    instruction.isMeasure = true

theorem covers_step (covers : cutting.Covers seen) (native : NativeSet)
    (instruction : Instruction R) :
    (cutting.step native instruction).Covers (seen ++ [instruction]) := by
  have held := covers.instructions
  rcases step_cases native cutting instruction with
    ⟨measured, stepped⟩ | ⟨gate, window, joined, current, accepted, stepped⟩ | ⟨gate, stepped⟩
  · have segments : (cutting.step native instruction).segments =
        cutting.segments ++ [.measurement instruction] := by
      rw [stepped]
      simp [Cutting.segments]
    refine ⟨by simp [segments, held, Segment.instructions], fun window member => ?_,
      fun other member => ?_⟩
    · exact covers.windows window (by simpa [segments] using member)
    · rcases List.mem_append.mp (segments ▸ member) with earlier | last
      · exact covers.measurements other earlier
      · obtain rfl : other = instruction := by simpa using last
        exact measured
  · have before : cutting.segments = cutting.closed ++ [.window window] := by
      simp [Cutting.segments, current]
    have segments : (cutting.step native instruction).segments =
        cutting.closed ++ [.window joined] := by
      rw [stepped]
      simp [Cutting.segments]
    have sound : window.Sound := covers.windows window (by simp [before])
    rw [before] at held
    refine ⟨?_, fun other member => ?_, fun other member => ?_⟩
    · rw [segments, ← held]
      simp [Segment.instructions, (Window.join_eq_some accepted).1]
    · rcases List.mem_append.mp (segments ▸ member) with earlier | last
      · exact covers.windows other (by simp [before, earlier])
      · obtain rfl : other = joined := by simpa using last
        exact sound.join gate accepted
    · exact covers.measurements other (by simpa [segments, before] using member)
  · have segments : (cutting.step native instruction).segments =
        cutting.segments ++ [.window (.ofInstruction native instruction)] := by
      rw [stepped]
      simp [Cutting.segments, reopen]
    refine ⟨by simp [segments, held, Segment.instructions, Window.ofInstruction],
      fun window member => ?_, fun other member => ?_⟩
    · rcases List.mem_append.mp (segments ▸ member) with earlier | last
      · exact covers.windows window earlier
      · obtain rfl : window = .ofInstruction native instruction := by simpa using last
        exact Window.sound_ofInstruction gate
    · exact covers.measurements other (by simpa [segments] using member)

theorem covers_run (covers : cutting.Covers seen) (native : NativeSet)
    (instructions : List (Instruction R)) :
    (instructions.foldl (step native) cutting).Covers (seen ++ instructions) := by
  induction instructions generalizing cutting seen with
  | nil => simpa using covers
  | cons instruction instructions ih =>
      rw [List.foldl_cons, List.append_cons]
      exact ih (covers_step covers native instruction)

end Cutting

/-- What the cut of a whole list of instructions holds. -/
theorem cut_covers (native : NativeSet) (instructions : List (Instruction R)) :
    (instructions.foldl (Cutting.step native) {}).Covers instructions := by
  have start : Cutting.Covers (R := R) {} [] := ⟨rfl, by simp [Cutting.segments],
    by simp [Cutting.segments]⟩
  simpa using Cutting.covers_run start native instructions

theorem cut_instructions (native : NativeSet) (instructions : List (Instruction R)) :
    (cut native instructions).flatMap Segment.instructions = instructions :=
  (cut_covers native instructions).instructions

/-- A segment holds instructions of the list it was cut from. -/
theorem mem_of_mem_cut {instructions : List (Instruction R)} {segment : Segment R}
    (cutOff : segment ∈ cut native instructions) (member : instruction ∈ segment.instructions) :
    instruction ∈ instructions := by
  rw [← cut_instructions native instructions]
  exact List.mem_flatMap.mpr ⟨segment, cutOff, member⟩

theorem sound_of_mem_cut {instructions : List (Instruction R)} {window : Window R}
    (cutOff : .window window ∈ cut native instructions) : window.Sound :=
  (cut_covers native instructions).windows window cutOff

theorem measure_of_mem_cut {instructions : List (Instruction R)}
    (cutOff : .measurement instruction ∈ cut native instructions) : instruction.isMeasure = true :=
  (cut_covers native instructions).measurements instruction cutOff

/-- Where nothing is measured, all segments are windows. -/
theorem cut_windows (native : NativeSet) {instructions : List (Instruction R)}
    (gates : ∀ instruction ∈ instructions, instruction.isMeasure = false) :
    ∃ windows : List (Window R), cut native instructions = windows.map .window := by
  have isWindow : ∀ segment ∈ cut native instructions, ∃ window, Segment.window window = segment := by
    intro segment member
    cases segment with
    | window window => exact ⟨window, rfl⟩
    | measurement instruction =>
        have gate := gates instruction (mem_of_mem_cut member (by simp [Segment.instructions]))
        exact absurd (gate.symm.trans (measure_of_mem_cut member)) Bool.false_ne_true
  have mapped : cut native instructions ∈ Set.range (List.map (Segment.window (R := R))) := by
    rw [Set.range_list_map]
    exact isWindow
  obtain ⟨windows, mapped⟩ := mapped
  exact ⟨windows, mapped.symm⟩

end QuditSynth
