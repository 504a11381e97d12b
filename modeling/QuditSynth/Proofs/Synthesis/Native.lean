import QuditSynth.Synthesis.Decomposition
import QuditSynth.Synthesis.Search
import QuditSynth.Target
import QuditSynth.Proofs.Instruction.Localized

namespace QuditSynth

/-! # What synthesis emits

Whatever is synthesised is made of native pulses: rotations of one qudit and
entangling pulses, without extra controls. A synthesis may fail, but never by
blaming a gate for not being native.
-/

variable {R : Type}

/-- A successful computation has a good value, and a failed one blames no foreign gate. -/
def Delivers {α : Type} (good : α → Prop) : Except (CompileError R) α → Prop
  | .ok value => good value
  | .error cause => ∀ instruction, cause ≠ .notNative instruction

namespace Delivers

variable {α β : Type} {good : α → Prop} {best : β → Prop}

theorem ne_notNative {outcome : Except (CompileError R) α} (delivers : Delivers good outcome)
    (instruction : Instruction R) : outcome ≠ .error (.notNative instruction) := by
  rintro rfl
  exact delivers instruction rfl

theorem value {outcome : Except (CompileError R) α} (delivers : Delivers good outcome) {value : α}
    (succeeded : outcome = .ok value) : good value := by
  rw [succeeded] at delivers
  exact delivers

/-- What the value of a computation is may be kept in mind. -/
theorem known {outcome : Except (CompileError R) α} (delivers : Delivers good outcome) :
    Delivers (fun value => outcome = .ok value) outcome := by
  cases outcome with
  | error cause => exact delivers
  | ok value => exact (rfl : Except.ok value = .ok value)

theorem mono {fine : α → Prop} {outcome : Except (CompileError R) α}
    (delivers : Delivers good outcome) (weaker : ∀ value, good value → fine value) :
    Delivers fine outcome := by
  cases outcome with
  | error cause => exact delivers
  | ok value => exact weaker value delivers

theorem bind {first : Except (CompileError R) α} {next : α → Except (CompileError R) β}
    (delivers : Delivers good first)
    (continued : ∀ value, good value → Delivers best (next value)) :
    Delivers best (first >>= next) := by
  cases first with
  | error cause => exact delivers
  | ok value => exact continued value delivers

/-- Errors of circuits blame no gate. -/
theorem lift (outcome : Except Error α) :
    Delivers (R := R) (fun value => outcome = .ok value) (liftM outcome) := by
  cases outcome with
  | error cause =>
      nofun
  | ok value => exact (rfl : Except.ok value = .ok value)

theorem mapM {values : List α} {f : α → Except (CompileError R) β}
    (each : ∀ value ∈ values, Delivers best (f value)) :
    Delivers (fun results => ∀ result ∈ results, best result) (values.mapM f) := by
  induction values with
  | nil => exact List.forall_mem_nil best
  | cons value rest ih =>
      rw [List.mapM_cons]
      refine (each value (by simp)).bind fun result reached => ?_
      refine (ih fun other member => each other (by simp [member])).bind fun results others => ?_
      exact List.forall_mem_cons.mpr ⟨reached, others⟩

theorem foldlM {values : List α} {step : β → α → Except (CompileError R) β} {start : β}
    (initial : best start)
    (kept : ∀ state value, best state → Delivers best (step state value)) :
    Delivers best (values.foldlM step start) := by
  induction values generalizing start with
  | nil => exact initial
  | cons value rest ih => exact (kept start value initial).bind fun _ reached => ih reached

end Delivers

theorem Crot.check_delivers (crot : Crot) (control a b : Nat) :
    Delivers (R := R) (fun _ => True) (crot.check control a b) := by
  unfold check refuse
  split
  · nofun
  · split
    · nofun
    · trivial

theorem Pswap.check_delivers (pswap : Pswap) (a b : Nat) :
    Delivers (R := R) (fun _ => True) (pswap.check a b) := by
  unfold check
  dsimp only
  split
  · nofun
  · trivial

theorem Crot.ofDims_delivers (dims : Nat × Nat) :
    Delivers (R := R) (fun _ => True) (Crot.ofDims dims) :=
  (check_delivers ⟨dims⟩ 1 0 1).bind fun _ _ => trivial

theorem Pswap.ofDims_delivers (dims : Nat × Nat) :
    Delivers (R := R) (fun _ => True) (Pswap.ofDims dims) :=
  (check_delivers ⟨dims⟩ 0 1).bind fun _ _ => trivial

theorem Ms.ofDims_delivers (dims : Nat × Nat) :
    Delivers (R := R) (fun _ => True) (Ms.ofDims dims) := by
  unfold ofDims
  split
  · nofun
  · trivial

namespace Instruction

/-- A rotation of one qudit or an entangling pulse, without extra controls. -/
def IsPulse (instruction : Instruction R) : Prop :=
  ∃ gate qudits, instruction = .ofGate gate qudits ∧ gate.category ≠ .generic

theorem IsPulse.remap {instruction : Instruction R} (pulse : instruction.IsPulse)
    (f : Qudit → Qudit) : (instruction.remap f).IsPulse := by
  obtain ⟨gate, qudits, rfl, kind⟩ := pulse
  exact ⟨gate, qudits.map f, rfl, kind⟩

theorem IsPulse.gate {instruction : Instruction R} (pulse : instruction.IsPulse) :
    instruction.isMeasure = false := by
  obtain ⟨gate, qudits, rfl, _⟩ := pulse
  rfl

/-- A device that knows the names of all pulses executes them. -/
theorem IsPulse.isNative {instruction : Instruction R} (pulse : instruction.IsPulse)
    {native : NativeSet} (complete : ∀ name ∈ NativeSet.standard.names, native.contains name) :
    native.isNative instruction = true := by
  obtain ⟨gate, qudits, rfl, kind⟩ := pulse
  have known : gate.isCustom = false ∧ gate.name ∈ NativeSet.standard.names := by
    cases gate <;> simp_all [Gate.category, Gate.isCustom, Gate.name, NativeSet.standard]
  change (!gate.isCustom && true && native.contains gate.name) = true
  rw [known.1, complete gate.name known.2]
  rfl

end Instruction

/-- A list of native pulses. -/
def AllPulses (instructions : List (Instruction R)) : Prop :=
  ∀ instruction ∈ instructions, instruction.IsPulse

theorem AllPulses.append {first second : List (Instruction R)} (firstPulses : AllPulses first)
    (secondPulses : AllPulses second) : AllPulses (first ++ second) :=
  List.forall_mem_append.mpr ⟨firstPulses, secondPulses⟩

theorem AllPulses.framed {inside : List (Instruction R)} (insidePulses : AllPulses inside)
    {before after : Instruction R} (beforePulse : before.IsPulse) (afterPulse : after.IsPulse) :
    AllPulses (before :: inside ++ [after]) :=
  AllPulses.append (List.forall_mem_cons.mpr ⟨beforePulse, insidePulses⟩)
    (List.forall_mem_singleton.mpr afterPulse)

variable [Scalar R]

theorem Gate.category_canonicalize (gate : Gate R) :
    gate.canonicalize.category = gate.category := by
  cases gate <;> rfl

theorem isPulse_canonicalize {gate : Gate R} (kind : gate.category ≠ .generic)
    (qudits : List Qudit) : (Instruction.ofGate gate.canonicalize qudits).IsPulse :=
  ⟨gate.canonicalize, qudits, rfl, gate.category_canonicalize ▸ kind⟩

namespace LocalLayer

theorem allQudits_emit (qudit : Qudit) (gates : List (Gate R)) :
    ∀ instruction ∈ emit qudit gates, instruction.allQudits = [qudit] := by
  intro instruction member
  obtain ⟨gate, _, rfl⟩ := List.mem_map.mp member
  rfl

theorem pulses_emit (qudit : Qudit) {gates : List (Gate R)}
    (kinds : ∀ gate ∈ gates, gate.category ≠ .generic) : AllPulses (emit qudit gates) := by
  intro instruction member
  obtain ⟨gate, kept, rfl⟩ := List.mem_map.mp member
  exact isPulse_canonicalize (kinds gate (List.mem_of_mem_filter kept)) [qudit]

theorem pulses_instructions {layer : LocalLayer} {params : List R} {qudit : Qudit}
    {emitted : List (Instruction R)} (emits : layer.instructions params qudit = .ok emitted) :
    AllPulses emitted := by
  obtain ⟨gates, built, assembled⟩ := Outcome.bind_eq_ok_iff.mp emits
  obtain ⟨⟨phases, rotations⟩, _, listed⟩ := Outcome.bind_eq_ok_iff.mp built
  cases assembled
  cases listed
  refine pulses_emit qudit fun gate member => ?_
  rcases List.mem_append.mp member with phase | rotation
  · obtain ⟨⟨theta, level⟩, _, rfl⟩ := List.mem_map.mp phase
    simp [Gate.category]
  · obtain ⟨⟨⟨a, b⟩, theta, phi⟩, _, rfl⟩ := List.mem_map.mp rotation
    simp [Gate.category]

end LocalLayer

theorem Elimination.category_gates (state : Elimination.State R) :
    ∀ gate ∈ gates state, gate.category ≠ .generic := by
  intro gate member
  rcases List.mem_append.mp member with phase | rotation
  · obtain ⟨level, _, rfl⟩ := List.mem_map.mp phase
    simp [Gate.category]
  · obtain ⟨rotation, _, rfl⟩ := List.mem_map.mp rotation
    simp [Gate.category]

theorem decomposeSingleQudit_delivers (u : Operator R) (qudit : Qudit) :
    Delivers (fun emitted => AllPulses emitted ∧
        ∀ instruction ∈ emitted, instruction.allQudits = [qudit])
      (decomposeSingleQudit u qudit) := by
  unfold decomposeSingleQudit
  dsimp only
  split
  · nofun
  · split
    · nofun
    · exact ⟨LocalLayer.pulses_emit qudit (Elimination.category_gates _),
        LocalLayer.allQudits_emit qudit _⟩

namespace Generator

theorem pulses_controlledRotation (control target : Qudit) (level a b : Nat) (theta phi : R) :
    AllPulses (controlledRotation control target level a b theta phi) := by
  intro instruction member
  simp only [controlledRotation, List.mem_cons, List.not_mem_nil, or_false] at member
  rcases member with rfl | rfl | rfl | rfl
  all_goals exact isPulse_canonicalize (by simp [Gate.category]) _

theorem pulse_exchange (control a b : Nat) (phi : R) (first second : Qudit) :
    (exchange control a b phi first second).IsPulse :=
  isPulse_canonicalize (by simp [Gate.category]) _

theorem pulse_rotate (theta phi : R) (a b : Nat) (qudit : Qudit) :
    (rotate theta phi a b qudit).IsPulse :=
  isPulse_canonicalize (by simp [Gate.category]) _

/-- Every sequence of the generator is made of pulses. -/
def EmitsPulses (generator : Generator R) : Prop :=
  ∀ angle phase, Delivers AllPulses (generator.sequence angle phase)

end Generator

theorem Crot.emitsPulses (crot : Crot) : crot.generator (R := R).EmitsPulses := by
  intro angle phase
  exact (crot.check_delivers 1 0 1).bind fun _ _ =>
    Generator.pulses_controlledRotation _ _ _ _ _ _ _

theorem Pswap.emitsPulses (pswap : Pswap) : pswap.generator (R := R).EmitsPulses := by
  intro angle phase
  exact (pswap.check_delivers 0 1).bind fun _ _ =>
    (Generator.pulses_controlledRotation _ _ _ _ _ _ _).framed
      (Generator.pulse_exchange _ _ _ _ _ _) (Generator.pulse_exchange _ _ _ _ _ _)

theorem Ms.emitsPulses (ms : Ms) : ms.generator (R := R).EmitsPulses := by
  intro angle phase
  exact List.forall_mem_singleton.mpr (isPulse_canonicalize (by simp [Gate.category]) _)

theorem Family.generator_delivers (family : Family) (dims : Nat × Nat) :
    Delivers (R := R) Generator.EmitsPulses (family.generator dims) := by
  cases family with
  | ms => exact (Ms.ofDims_delivers dims).bind fun ms _ => ms.emitsPulses
  | crot => exact (Crot.ofDims_delivers dims).bind fun crot _ => crot.emitsPulses
  | pswap => exact (Pswap.ofDims_delivers dims).bind fun pswap _ => pswap.emitsPulses

namespace Ansatz

variable {ansatz : Ansatz R}

theorem pulses_localInstructions {params : List R} {emitted : List (Instruction R)}
    (emits : ansatz.localInstructions params = .ok emitted) : AllPulses emitted := by
  obtain ⟨⟨p, q⟩, _, continued⟩ := Outcome.bind_eq_ok_iff.mp emits
  obtain ⟨first, firstEmits, continued⟩ := Outcome.bind_eq_ok_iff.mp continued
  obtain ⟨second, secondEmits, assembled⟩ := Outcome.bind_eq_ok_iff.mp continued
  cases assembled
  exact (LocalLayer.pulses_instructions firstEmits).append
    (LocalLayer.pulses_instructions secondEmits)

section Emitted

variable {good : Instruction R → Prop}
  (sequenced : ∀ angle phase, Delivers (fun pulses => ∀ pulse ∈ pulses, good pulse)
    (ansatz.generator.sequence angle phase))

include sequenced

theorem entanglerInstructions_delivers (angles : List R) :
    Delivers (fun pulses => ∀ pulse ∈ pulses, good pulse)
      (ansatz.entanglerInstructions angles) := by
  unfold entanglerInstructions
  dsimp only
  split
  · exact sequenced _ _
  · exact List.forall_mem_nil _

/-- Whatever holds of the instructions of local layers and of entanglers holds of all. -/
theorem instructions_delivers
    (layered : ∀ params emitted, ansatz.localInstructions params = .ok emitted →
      ∀ instruction ∈ emitted, good instruction) (params : List R) :
    Delivers (fun emitted => ∀ instruction ∈ emitted, good instruction)
      (ansatz.instructions params) := by
  refine (Delivers.lift _).bind fun slices _ => ?_
  refine (Delivers.lift _).bind fun opening opened => ?_
  refine Delivers.foldlM (layered _ _ opened) fun emitted (angles, inner) before => ?_
  refine (entanglerInstructions_delivers sequenced angles).bind fun pulses entangled => ?_
  refine (Delivers.lift _).bind fun layer placed => ?_
  exact List.forall_mem_append.mpr
    ⟨List.forall_mem_append.mpr ⟨before, entangled⟩, layered _ _ placed⟩

end Emitted
end Ansatz

theorem Synthesis.mem_of_remapped {R : Type} (synthesis : Synthesis R) (first second : Qudit) :
    ∀ instruction ∈ synthesis.remapped first second, ∀ qudit ∈ instruction.allQudits,
      qudit ∈ [first, second] := by
  intro instruction member qudit touched
  obtain ⟨source, _, rfl⟩ := List.mem_map.mp member
  rw [Instruction.allQudits_remap] at touched
  obtain ⟨operand, _, rfl⟩ := List.mem_map.mp touched
  split
  · exact List.mem_cons_self
  · exact List.mem_cons_of_mem first List.mem_cons_self

namespace Search

variable {good : Instruction R → Prop}

/-- The search emits what the ansatz emits, at whatever number of layers it stops. -/
theorem climb_delivers (config : Config R) (family : Family) {generator : Generator R}
    (emits : ∀ layers params, Delivers (fun emitted => ∀ instruction ∈ emitted, good instruction)
      (Ansatz.instructions ⟨generator, layers⟩ params))
    (target : Operator R) (remaining layers : Nat) (progress : Progress R) :
    Delivers (fun synthesis => ∀ instruction ∈ synthesis.instructions, good instruction)
      (climb config family generator target remaining layers progress) := by
  induction remaining generalizing layers progress with
  | zero =>
      nofun
  | succ remaining ih =>
      rw [climb]
      refine (Delivers.lift _).bind fun _ _ => ?_
      dsimp only
      split
      · exact ih _ _
      · split
        · exact (emits layers _).bind fun emitted reached => reached
        · exact ih _ _

theorem synthesizeWith_delivers (config : Config R) (family : Family) (target : Operator R)
    (dims : Nat × Nat)
    (emits : ∀ generator, family.generator dims = .ok generator → ∀ layers params,
      Delivers (fun emitted => ∀ instruction ∈ emitted, good instruction)
        (Ansatz.instructions ⟨generator, layers⟩ params)) :
    Delivers (fun synthesis => ∀ instruction ∈ synthesis.instructions, good instruction)
      (synthesizeWith config family target dims) := by
  have validated : Delivers (R := R) (fun _ => True) (liftM config.validate) := by
    cases config.validate with
    | error cause =>
        nofun
    | ok => trivial
  refine validated.bind fun _ _ => (Delivers.lift _).bind fun expected _ => ?_
  dsimp only
  split
  · nofun
  · refine (family.generator_delivers dims).known.bind fun generator made => ?_
    refine (Delivers.lift _).bind fun _ _ => ?_
    exact climb_delivers config family (emits generator made) target _ _ _

theorem synthesizeWith_pulses (config : Config R) (family : Family) (target : Operator R)
    (dims : Nat × Nat) :
    Delivers (fun synthesis => AllPulses synthesis.instructions)
      (synthesizeWith config family target dims) := by
  refine synthesizeWith_delivers config family target dims fun generator made layers params => ?_
  have sequenced : ∀ angle phase, Delivers (fun pulses => ∀ pulse ∈ pulses, pulse.IsPulse)
      (generator.sequence angle phase) := (family.generator_delivers dims).value made
  exact Ansatz.instructions_delivers sequenced
    (fun _ _ placed => Ansatz.pulses_localInstructions placed) params

end Search
end QuditSynth
