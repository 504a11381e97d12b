import QuditSynth.Proofs.Exact.Kronecker
import QuditSynth.Proofs.Synthesis.Emission

namespace QuditSynth

/-! # What an ansatz emits is what it scores

The operator of an ansatz multiplies diagonals, rows and Kronecker products; its
instructions go through gates on a register. Both cut the parameters in the same
way, and over exact scalars they come to the same operator.
-/

variable [Exponential ℝ] {register : Register}

/-- Valid instructions that perform an operator. -/
structure Realizes (register : Register) (instructions : List (Instruction ℝ)) (u : Operator ℝ) :
    Prop where
  valid : ∀ instruction ∈ instructions, instruction.Valid register
  dim : u.dim = product register.dims
  performs : Performs register instructions (u.toMatrix (product register.dims))

theorem realizes_nil : Realizes register [] (Operator.identity (product register.dims)) := by
  refine ⟨List.forall_mem_nil _, Operator.dim_identity _, ?_⟩
  rw [Operator.toMatrix_identity]
  exact performs_nil

theorem Realizes.append {first second : List (Instruction ℝ)} {u v : Operator ℝ}
    (realizesFirst : Realizes register first u) (realizesSecond : Realizes register second v) :
    Realizes register (first ++ second) (v * u) := by
  refine ⟨List.forall_mem_append.mpr ⟨realizesFirst.valid, realizesSecond.valid⟩,
    realizesSecond.dim, ?_⟩
  rw [Operator.toMatrix_mul realizesSecond.dim]
  exact realizesFirst.performs.append realizesSecond.performs

theorem realizes_of_operator {circuit : Circuit ℝ} {u : Operator ℝ}
    (wellFormed : circuit.WellFormed) (addressable : Addressable circuit.register.dims)
    (built : circuit.operator = .ok u) : Realizes circuit.register circuit.instructions u := by
  obtain ⟨dim, performed⟩ := Circuit.performs_of_operator addressable built
  exact ⟨wellFormed, dim, performed⟩

/-- A generator whose sequences realize its closed form, which is the identity after a whole number
of periods. -/
structure Generator.Faithful (generator : Generator ℝ) : Prop where
  realizes : ∀ angle phase, ∃ pulses circuit u, generator.sequence angle phase = .ok pulses ∧
    circuitOn generator.dims pulses = .ok circuit ∧
    generator.operator angle phase = .ok u ∧ circuit.operator = .ok u
  whole : ∀ (turns : ℤ) (phase : ℝ), generator.operator (turns * Angle.rotationPeriod) phase =
    .ok (Operator.identity (generator.dims.1 * generator.dims.2))

namespace Ansatz

/-- The angles of a local layer on both qudits. -/
def localAngles {R : Type} (ansatz : Ansatz R) (params : List R) : List R :=
  ansatz.first.angles (params.take ansatz.first.paramCount) ++
    ansatz.second.angles (params.drop ansatz.first.paramCount)

/-- The angles of all relative phases, rotations and entanglers, without the phases that set the
axes of the latter two. -/
def angles {R : Type} [Scalar R] (ansatz : Ansatz R) (params : List R) : List R :=
  match ansatz.slices params with
  | .ok slices => ansatz.localAngles slices.opening ++ slices.blocks.flatMap fun block =>
      (anglePhase block.1).1 :: ansatz.localAngles block.2
  | .error _ => []

section Register

variable {ansatz : Ansatz ℝ} {params : List ℝ}
  (dims : register.dims = [ansatz.generator.dims.1, ansatz.generator.dims.2])
  (addressable : Addressable register.dims)

include dims addressable

theorem localInstructions_realize (count : params.length = ansatz.localParams)
    (decided : ∀ theta ∈ ansatz.localAngles params, Angle.Decided theta) :
    ∃ emitted u, ansatz.localInstructions params = .ok emitted ∧
      ansatz.localOperator params = .ok u ∧ Realizes register emitted u := by
  obtain ⟨p, q, split, pCount, qCount⟩ := split_local_exists count
  obtain ⟨rfl, _⟩ := splitParams_eq_ok_iff.mp split
  have listed : ansatz.localAngles (p ++ q) = ansatz.first.angles p ++ ansatz.second.angles q := by
    rw [localAngles, ← pCount, List.take_left, List.drop_left]
  rw [listed, List.forall_mem_append] at decided
  have onFirst : Positions register.dims [Generator.localFirst.index] := by
    constructor <;> simp [dims, Generator.localFirst]
  have onSecond : Positions register.dims [Generator.localSecond.index] := by
    constructor <;> simp [dims, Generator.localSecond]
  have firstDim : register.dims.getD Generator.localFirst.index 1 = ansatz.first.dim := by
    simp [dims, Generator.localFirst, first]
  have secondDim : register.dims.getD Generator.localSecond.index 1 = ansatz.second.dim := by
    simp [dims, Generator.localSecond, second]
  obtain ⟨front, u, frontMade, uBuilt, uDim, frontPerforms⟩ :=
    LocalLayer.performs_instructions addressable onFirst firstDim pCount decided.1
  obtain ⟨back, v, backMade, vBuilt, vDim, backPerforms⟩ :=
    LocalLayer.performs_instructions addressable onSecond secondDim qCount decided.2
  have emits : ansatz.localInstructions (p ++ q) = .ok (front ++ back) := by
    simp [localInstructions, split, frontMade, backMade]
  have total : u.dim * v.dim = product register.dims := by
    rw [uDim, vDim, dims, product_pair]
    rfl
  have nonempty : v.dim ≠ 0 := by
    intro none
    rw [none, Nat.mul_zero] at total
    exact (product_pos addressable.positive).ne total
  have placed := Operator.tensor_eq_ok (u := u) nonempty (total ▸ addressable.room)
  refine ⟨front ++ back, u.kronecker v, emits, ?_, valid_localInstructions dims emits, total, ?_⟩
  · simp [localOperator, split, uBuilt, vBuilt, placed]
  · rw [Operator.toMatrix_kronecker dims addressable uDim vDim onFirst onSecond]
    exact frontPerforms.append backPerforms

variable (faithful : ansatz.generator.Faithful)

include faithful

/-- An entangler is dropped only where it is the identity. -/
theorem entanglerInstructions_realize {angles : List ℝ}
    (decided : Angle.Decided (anglePhase angles).1) :
    ∃ pulses u, ansatz.entanglerInstructions angles = .ok pulses ∧
      ansatz.generator.operator (anglePhase angles).1 (anglePhase angles).2 = .ok u ∧
      Realizes register pulses u := by
  by_cases kept :
      identityAngle < Angle.wrap (anglePhase angles).1 Angle.rotationPeriod ∧
        identityAngle <
          Angle.rotationPeriod - Angle.wrap (anglePhase angles).1 Angle.rotationPeriod
  · obtain ⟨pulses, circuit, u, sequenced, made, built, operated⟩ :=
      faithful.realizes (anglePhase angles).1 (anglePhase angles).2
    obtain ⟨other, otherDims, valid, rfl⟩ := Generator.circuitOn_eq_ok_iff.mp made
    obtain rfl : other = register := Except.ok.inj
      ((Register.ofDims_eq_ok_iff.mpr otherDims).symm.trans (Register.ofDims_eq_ok_iff.mpr dims))
    have wellFormed : Circuit.WellFormed (R := ℝ) ⟨"sequence", other, pulses⟩ := valid
    exact ⟨pulses, u, (if_pos kept).trans sequenced, built,
      realizes_of_operator wellFormed addressable operated⟩
  · have close := (not_and_or.mp kept).imp not_lt.mp not_lt.mp
    obtain ⟨turns, whole⟩ := decided.whole close
    have total : product register.dims =
        ansatz.generator.dims.1 * ansatz.generator.dims.2 := by rw [dims, product_pair]
    refine ⟨[], Operator.identity (product register.dims), if_neg kept, ?_, realizes_nil⟩
    rw [whole, faithful.whole, total]

theorem blocks_realize {blocks : List (List ℝ × List ℝ)}
    (inner : ∀ block ∈ blocks, block.2.length = ansatz.localParams)
    (decided : ∀ block ∈ blocks, ∀ theta ∈ (anglePhase block.1).1 :: ansatz.localAngles block.2,
      Angle.Decided theta)
    {emitted : List (Instruction ℝ)} {total : Operator ℝ}
    (realized : Realizes register emitted total) :
    ∃ result u, blocks.foldlM ansatz.extendInstructions emitted = .ok result ∧
      blocks.foldlM ansatz.extend total = .ok u ∧ Realizes register result u := by
  -- Both folds go over the same blocks; what they carry stays related by `Realizes`.
  induction blocks generalizing emitted total with
  | nil => exact ⟨emitted, total, rfl, rfl, realized⟩
  | cons block blocks ih =>
      obtain ⟨length, lengths⟩ := List.forall_mem_cons.mp inner
      obtain ⟨blockDecided, othersDecided⟩ := List.forall_mem_cons.mp decided
      obtain ⟨angleDecided, localDecided⟩ := List.forall_mem_cons.mp blockDecided
      obtain ⟨pulses, entangler, pulsed, entangled, pulsesRealize⟩ :=
        entanglerInstructions_realize dims addressable faithful angleDecided
      obtain ⟨layer, placed, layerMade, placedBuilt, layerRealizes⟩ :=
        localInstructions_realize dims addressable length localDecided
      rw [List.foldlM_cons, List.foldlM_cons, extendInstructions_eq_ok pulsed layerMade,
        extend_eq_ok entangled placedBuilt]
      exact ih lengths othersDecided ((realized.append pulsesRealize).append layerRealizes)

end Register

end Ansatz

theorem Generator.Faithful.register_exists {generator : Generator ℝ}
    (faithful : generator.Faithful) : ∃ register : Register,
      register.dims = [generator.dims.1, generator.dims.2] ∧ Addressable register.dims := by
  obtain ⟨pulses, circuit, u, _, made, _, operated⟩ := faithful.realizes 0 0
  obtain ⟨register, dims, _, rfl⟩ := circuitOn_eq_ok_iff.mp made
  exact ⟨register, dims, Circuit.addressable_of_operator operated⟩

/-- For every faithful generator, the instructions of an ansatz are a circuit whose operator is the
operator of the ansatz. -/
theorem Ansatz.instructions_realize {generator : Generator ℝ} (faithful : generator.Faithful)
    (layers : Nat) (params : List ℝ)
    (count : params.length = Ansatz.paramCount ⟨generator, layers⟩)
    (decided : ∀ theta ∈ Ansatz.angles ⟨generator, layers⟩ params, Angle.Decided theta) :
    ∃ emitted circuit u, Ansatz.instructions ⟨generator, layers⟩ params = .ok emitted ∧
      Generator.circuitOn generator.dims emitted = .ok circuit ∧
      Ansatz.operator ⟨generator, layers⟩ params = .ok u ∧ circuit.operator = .ok u := by
  obtain ⟨register, dims, addressable⟩ := faithful.register_exists
  obtain ⟨slices, sliced, fits, _⟩ := slices_exists count
  rw [angles, sliced] at decided
  obtain ⟨openingDecided, blocksDecided⟩ := List.forall_mem_append.mp decided
  obtain ⟨front, opening, frontMade, opened, frontRealizes⟩ :=
    localInstructions_realize dims addressable fits.opening openingDecided
  obtain ⟨emitted, u, emits, built, realized⟩ := blocks_realize dims addressable faithful
    fits.inner (fun block member theta listed =>
      blocksDecided theta (List.mem_flatMap.mpr ⟨block, member, listed⟩)) frontRealizes
  refine ⟨emitted, ⟨"sequence", register, emitted⟩, u, ?_, ?_, ?_, ?_⟩
  · rw [instructions_eq sliced frontMade, emits]
  · exact Generator.circuitOn_eq_ok_iff.mpr ⟨register, dims, realized.valid, rfl⟩
  · rw [operator_eq sliced opened, built]
  · exact realized.performs.operator_eq addressable realized.dim

theorem Generator.Exact.realizes {dims : Nat × Nat} {legal : Prop}
    {sequence : Except (CompileError ℝ) (List (Instruction ℝ))}
    {closed : Except (CompileError ℝ) (Operator ℝ)} (exact : Exact dims legal sequence closed)
    (isLegal : legal) (room : Operator.checkDim (dims.1 * dims.2) = .ok ()) :
    ∃ pulses circuit u, sequence = .ok pulses ∧ circuitOn dims pulses = .ok circuit ∧
      closed = .ok u ∧ circuit.operator = .ok u := by
  obtain ⟨pulses, sequenced⟩ := exact.accepted.mpr isLegal
  obtain ⟨circuit, made, same⟩ := exact.operator_eq pulses sequenced
  obtain ⟨u, built⟩ := exact.closed_exists.mpr ⟨isLegal, checkCapacity_eq_ok_iff.mp room⟩
  exact ⟨pulses, circuit, u, sequenced, made, built, same u built⟩

/-- Controlled rotations and partial swaps are faithful on all qudits. -/
theorem Family.faithful_entangler {family : Family} {dims : Nat × Nat} (notMs : family ≠ .ms)
    (levels : 2 ≤ dims.1 ∧ 2 ≤ dims.2) (room : Operator.checkDim (dims.1 * dims.2) = .ok ()) :
    (family.entangler dims : Generator ℝ).Faithful := by
  have whole : ∀ (turns : ℤ) (phase : ℝ),
      (family.entangler dims : Generator ℝ).operator (turns * Angle.rotationPeriod) phase =
        .ok (Operator.identity (dims.1 * dims.2)) := by
    intro turns phase
    rw [Angle.rotationPeriod_exact]
    exact operator_whole levels room turns phase
  cases family with
  | ms => exact absurd rfl notMs
  | crot =>
      refine ⟨fun angle phase => ?_, whole⟩
      exact (Crot.exact_rotation levels.1 levels.2 angle phase).realizes
        (Crot.check_eq_ok_iff.mp (Crot.check_lowest (R := ℝ) levels)) room
  | pswap =>
      refine ⟨fun angle phase => ?_, whole⟩
      exact (Pswap.exact_swap levels.1 levels.2 angle phase).realizes
        (Pswap.check_eq_ok_iff.mp (Pswap.check_lowest (R := ℝ) levels)) room

namespace Ansatz

omit [Exponential ℝ] in
theorem instructions_realize_crot :
    let _ : Exponential ℝ := .taylor
    let generator : Generator ℝ := Family.crot.entangler (2, 2)
    let params : List ℝ := 0 :: List.replicate 13 1
    generator.Faithful ∧ (∀ theta ∈ angles ⟨generator, 1⟩ params, Angle.Decided theta) ∧
      ∃ emitted circuit u, Ansatz.instructions ⟨generator, 1⟩ params = .ok emitted ∧
        Generator.circuitOn generator.dims emitted = .ok circuit ∧
        operator ⟨generator, 1⟩ params = .ok u ∧ circuit.operator = .ok u := by
  intro _ generator params
  have faithful : generator.Faithful := Family.faithful_entangler (by decide) (by decide) rfl
  have listed : angles ⟨generator, 1⟩ params = [0, 1, 1, 1, 1, 1, 1, 1, 1] := rfl
  have decided : ∀ theta ∈ angles ⟨generator, 1⟩ params, Angle.Decided theta := by
    rw [listed]
    simp [Angle.decided_zero, Angle.decided_one]
  exact ⟨faithful, decided, instructions_realize faithful 1 params rfl decided⟩

end Ansatz
end QuditSynth
