import Mathlib.Analysis.SpecialFunctions.Trigonometric.Basic
import QuditSynth.Proofs.Generator.Pulses

namespace QuditSynth

/-! # Blocks on two qudits

On two qudits a block that acts on a level pair under a control is a block on
two states of the pair of qudits. A sequence of pulses that performs such a
block is a circuit whose operator is the block, phase included.
-/

section Pair

variable {control target a b level : Nat}

/-- A state of two qudits is given by its two digits. -/
theorem state_eq_iff_pair (apart : control ≠ target) (controlBound : control < 2)
    (targetBound : target < 2) {dims : List Nat} (two : dims.length = 2) {left right : Nat}
    (leftBound : left < product dims) (rightBound : right < product dims) :
    left = right ↔ digitIn dims control left = digitIn dims control right ∧
      digitIn dims target left = digitIn dims target right := by
  constructor
  · rintro rfl
    exact ⟨rfl, rfl⟩
  · rintro ⟨onControl, onTarget⟩
    apply state_eq_of_digits leftBound rightBound
    intro position readable
    have either : position = control ∨ position = target := by omega
    rcases either with rfl | rfl
    · exact onControl
    · exact onTarget

theorem Axis.localState_single (dims : List Nat) (target state : Nat) :
    localState (ofTargets dims [target]) state = digitIn dims target state := by
  rw [localState_cons]
  simp [localState, ofTargets, product]

/-- Of two qudits, states that agree outside one agree on the other. -/
theorem Axis.agree_pair {dims : List Nat} (two : dims.length = 2) (apart : control ≠ target)
    (controlBound : control < 2) (targetBound : target < 2) {row col : Nat} :
    Agree dims [target] row col ↔ digitIn dims control row = digitIn dims control col := by
  constructor
  · intro agree
    exact agree control (two ▸ controlBound) (by simpa using apart)
  · intro same position readable outside
    have notTarget := List.mem_singleton.not.mp outside
    obtain rfl : position = control := by omega
    exact same

theorem Operator.embed_ofBlock_pair {R : Type} [Scalar R] (honest : HonestZero R)
    {dims : List Nat} (two : dims.length = 2) (addressable : Addressable dims)
    (apart : control ≠ target) (controlBound : control < 2) (targetBound : target < 2)
    (levelBound : level < dims.getD control 1) {p q : Nat}
    (pBound : p < product dims) (qBound : q < product dims)
    (pControl : digitIn dims control p = level) (pTarget : digitIn dims target p = a)
    (qControl : digitIn dims control q = level) (qTarget : digitIn dims target q = b)
    (block : Block R) :
    (ofBlock (dims.getD target 1) a b block).embed dims [target] [(control, level)] =
      .ok (ofBlock (product dims) p q block) := by
  have positions : Positions dims [target] := ⟨by simpa [two] using targetBound, by simp⟩
  have controlled : ControlsFit dims [target] [(control, level)] := by
    intro control' member
    rw [List.mem_singleton.mp member]
    exact ⟨two ▸ controlBound, by simpa using apart, levelBound⟩
  obtain ⟨full, run, dim, entries⟩ := embed_exists addressable positions controlled
    (u := ofBlock (dims.getD target 1) a b block) (product_single _).symm
  rw [run]
  refine congrArg Except.ok (eq_of_entries dim ?_)
  intro row rowBound col colBound
  rw [dim] at rowBound colBound
  have isState {left right : Nat} (leftBound : left < product dims)
      (rightBound : right < product dims) :=
    state_eq_iff_pair apart controlBound targetBound two leftBound rightBound
  have localDigit := Axis.localState_single dims target
  have agree : Axis.Agree dims [target] row col ↔
      digitIn dims control row = digitIn dims control col :=
    Axis.agree_pair two apart controlBound targetBound
  have small : ∀ state, digitIn dims target state < dims.getD target 1 :=
    digitIn_lt addressable.positive target
  rw [entries honest row rowBound col colBound, embedded]
  simp only [localDigit, agree, ofBlock, entry_ofFn _ (small _) (small _),
    entry_ofFn _ rowBound colBound, isState rowBound pBound,
    isState rowBound qBound, isState colBound pBound, isState colBound qBound,
    isState rowBound colBound, pControl, pTarget, qControl, qTarget, Admits, List.mem_singleton,
    forall_eq]
  by_cases holds : digitIn dims control col = level
  · by_cases same : digitIn dims control row = level
    · simp [holds, same]
    · simp [holds, same]
  · simp [holds]

end Pair

section PairState

variable {first second i j : Nat}

theorem pair_state_lt (iBound : i < first) (jBound : j < second) :
    i * second + j < product [first, second] := by
  rw [product_pair]
  calc i * second + j < i * second + second := Nat.add_lt_add_left jBound _
    _ = (i + 1) * second := (Nat.succ_mul i second).symm
    _ ≤ first * second := Nat.mul_le_mul_right _ iBound

theorem digitIn_pair_first (iBound : i < first) (jBound : j < second) :
    digitIn [first, second] 0 (i * second + j) = i := by
  have positive : 0 < second := Nat.zero_lt_of_lt jBound
  rw [digitIn_cons_zero, product_single, Nat.mul_comm i, Nat.mul_add_div positive,
    Nat.div_eq_of_lt jBound, Nat.add_zero, Nat.mod_eq_of_lt iBound]

theorem digitIn_pair_second (jBound : j < second) :
    digitIn [first, second] 1 (i * second + j) = j := by
  rw [digitIn_cons_succ, digitIn_cons_zero, product_nil, Nat.div_one, Nat.mul_comm i,
    Nat.mul_add_mod, Nat.mod_eq_of_lt jBound]

theorem pair_state_ne {otherI otherJ : Nat} (iBound : i < first) (jBound : j < second)
    (otherIBound : otherI < first) (otherJBound : otherJ < second)
    (differ : i ≠ otherI ∨ j ≠ otherJ) : i * second + j ≠ otherI * second + otherJ := by
  intro equal
  have onFirst := congrArg (digitIn [first, second] 0) equal
  have onSecond := congrArg (digitIn [first, second] 1) equal
  rw [digitIn_pair_first iBound jBound, digitIn_pair_first otherIBound otherJBound] at onFirst
  rw [digitIn_pair_second jBound, digitIn_pair_second otherJBound] at onSecond
  rcases differ with differ | differ
  · exact differ onFirst
  · exact differ onSecond

end PairState

section Levels

variable {register : Register} {first second a b level : Nat}
  (dims : register.dims = [first, second])

include dims

theorem levelPair_first (distinct : a ≠ b) (aBound : a < first) (bBound : b < first) :
    LevelPair register Generator.localFirst a b :=
  ⟨by simp [Register.size, dims, Generator.localFirst], distinct,
    by simpa [dims, Generator.localFirst] using aBound,
    by simpa [dims, Generator.localFirst] using bBound⟩

theorem levelPair_second (distinct : a ≠ b) (aBound : a < second) (bBound : b < second) :
    LevelPair register Generator.localSecond a b :=
  ⟨by simp [Register.size, dims, Generator.localSecond], distinct,
    by simpa [dims, Generator.localSecond] using aBound,
    by simpa [dims, Generator.localSecond] using bBound⟩

theorem guard_first (bound : level < first) :
    Guard register Generator.localFirst Generator.localSecond level :=
  ⟨by simp [Register.size, dims, Generator.localFirst],
    by simp [Generator.localFirst, Generator.localSecond],
    by simpa [dims, Generator.localFirst] using bound⟩

theorem guard_second (bound : level < second) :
    Guard register Generator.localSecond Generator.localFirst level :=
  ⟨by simp [Register.size, dims, Generator.localSecond],
    by simp [Generator.localFirst, Generator.localSecond],
    by simpa [dims, Generator.localSecond] using bound⟩

end Levels

section Closed

variable {register : Register} {first second a b level : Nat}
  (dims : register.dims = [first, second]) (addressable : Addressable register.dims)
  (block : Operator.Block ℝ)

include dims addressable

/-- A block on two levels of the second qudit, beside a level of the first. -/
theorem embed_second (levelBound : level < first) (aBound : a < second) (bBound : b < second) :
    (Operator.ofBlock (register.dims.getD 1 1) a b block).embed register.dims [1] [(0, level)] =
      .ok (Operator.ofBlock (first * second) (level * second + a) (level * second + b) block) := by
  rw [← product_pair, ← dims]
  apply Operator.embed_ofBlock_pair Operator.honestZero_exact (by simp [dims]) addressable
    (by decide) (by decide) (by decide) <;> rw [dims]
  · exact levelBound
  · exact pair_state_lt levelBound aBound
  · exact pair_state_lt levelBound bBound
  · exact digitIn_pair_first levelBound aBound
  · exact digitIn_pair_second aBound
  · exact digitIn_pair_first levelBound bBound
  · exact digitIn_pair_second bBound

/-- A block on two levels of the first qudit, beside a level of the second. -/
theorem embed_first (levelBound : level < second) (aBound : a < first) (bBound : b < first) :
    (Operator.ofBlock (register.dims.getD 0 1) a b block).embed register.dims [0] [(1, level)] =
      .ok (Operator.ofBlock (first * second) (a * second + level) (b * second + level) block) := by
  rw [← product_pair, ← dims]
  apply Operator.embed_ofBlock_pair Operator.honestZero_exact (by simp [dims]) addressable
    (by decide) (by decide) (by decide) <;> rw [dims]
  · exact levelBound
  · exact pair_state_lt aBound levelBound
  · exact pair_state_lt bBound levelBound
  · exact digitIn_pair_second levelBound
  · exact digitIn_pair_first aBound levelBound
  · exact digitIn_pair_second levelBound
  · exact digitIn_pair_first bBound levelBound

end Closed

/-! ## Sequences as circuits -/

namespace Generator

theorem quarterTurn_exact : (quarterTurn : ℝ) = Real.pi / 2 := Scalar.half_exact _

/-- Pulses between a pulse and the one that takes it back. -/
theorem framed_valid {R : Type} {register : Register} {before after : Instruction R}
    {inside : List (Instruction R)} (beforeValid : before.Valid register)
    (insideValid : ∀ pulse ∈ inside, pulse.Valid register) (afterValid : after.Valid register) :
    ∀ pulse ∈ before :: inside ++ [after], pulse.Valid register := by
  intro pulse member
  simp only [List.cons_append, List.mem_cons, List.mem_append, List.not_mem_nil, or_false]
    at member
  rcases member with rfl | inner | rfl
  · exact beforeValid
  · exact insideValid pulse inner
  · exact afterValid

/-- The circuit of a sequence on two qudits. -/
def circuitOn {R : Type} (dims : Nat × Nat) (sequence : List (Instruction R)) :
    Except Error (Circuit R) := do
  (← Circuit.ofDims "sequence" [dims.1, dims.2]).withInstructions sequence

/-- A sequence and a closed form for the same levels and angles. Both exist for the same levels, the
closed form as long as its matrix can be addressed, and where it does the circuit of the sequence
has it as its operator, phase included. -/
structure Exact [Exponential ℝ] (dims : Nat × Nat) (legal : Prop)
    (sequence : Except (CompileError ℝ) (List (Instruction ℝ)))
    (closed : Except (CompileError ℝ) (Operator ℝ)) : Prop where
  accepted : (∃ pulses, sequence = .ok pulses) ↔ legal
  closed_exists : (∃ u, closed = .ok u) ↔
    legal ∧ dims.1 * dims.2 * (dims.1 * dims.2) * 16 < 2 ^ 63
  operator_eq : ∀ pulses, sequence = .ok pulses →
    ∃ circuit, circuitOn dims pulses = .ok circuit ∧ ∀ u, closed = .ok u → circuit.operator = .ok u

theorem circuitOn_eq_ok_iff {R : Type} {dims : Nat × Nat}
    {sequence : List (Instruction R)} {circuit : Circuit R} :
    circuitOn dims sequence = .ok circuit ↔ ∃ register : Register,
      register.dims = [dims.1, dims.2] ∧ (∀ pulse ∈ sequence, pulse.Valid register) ∧
        circuit = ⟨"sequence", register, sequence⟩ := by
  simp only [circuitOn, Circuit.ofDims, Outcome.bind_eq_ok_iff, Register.ofDims_eq_ok_iff,
    Circuit.withInstructions_eq_ok_iff, Outcome.pure_eq_ok, Except.ok.injEq]
  constructor
  · rintro ⟨_, ⟨register, dims, rfl⟩, valid, rfl⟩
    exact ⟨register, dims, valid, rfl⟩
  · rintro ⟨register, dims, valid, rfl⟩
    exact ⟨_, ⟨register, dims, rfl⟩, valid, rfl⟩

theorem circuitOn_exists {R : Type} {dims : Nat × Nat} (firstLevels : 2 ≤ dims.1)
    (secondLevels : 2 ≤ dims.2) {pulses : List (Instruction R)}
    (valid : ∀ register : Register, register.dims = [dims.1, dims.2] →
      ∀ pulse ∈ pulses, pulse.Valid register) :
    ∃ circuit, circuitOn dims pulses = .ok circuit ∧
      circuit.register.dims = [dims.1, dims.2] ∧ circuit.instructions = pulses := by
  let register : Register := ⟨[dims.1, dims.2], by simp, by simp [firstLevels, secondLevels]⟩
  exact ⟨⟨"sequence", register, pulses⟩,
    circuitOn_eq_ok_iff.mpr ⟨register, rfl, valid register rfl, rfl⟩, rfl, rfl⟩

variable [Exponential ℝ]

section Exact

variable {dims : Nat × Nat} {legal : Prop}
  {sequence : Except (CompileError ℝ) (List (Instruction ℝ))}
  {closed : Except (CompileError ℝ) (Operator ℝ)}

theorem exact_of_refused {first second : CompileError ℝ} (illegal : ¬ legal)
    (noSequence : sequence = .error first) (noClosed : closed = .error second) :
    Exact dims legal sequence closed :=
  ⟨by simp [noSequence, illegal], by simp [noClosed, illegal], by simp [noSequence]⟩

/-- A closed form that is a block, and pulses that perform it. -/
theorem exact_of_performs {pulses : List (Instruction ℝ)} {p q : Nat} {block : Operator.Block ℝ}
    (firstLevels : 2 ≤ dims.1) (secondLevels : 2 ≤ dims.2) (isLegal : legal)
    (sequenced : sequence = .ok pulses)
    (closedForm : closed = liftM (Operator.blockOn (dims.1 * dims.2) p q block))
    (pBound : p < product [dims.1, dims.2]) (qBound : q < product [dims.1, dims.2])
    (valid : ∀ register : Register, register.dims = [dims.1, dims.2] →
      ∀ pulse ∈ pulses, pulse.Valid register)
    (performs : ∀ register : Register, register.dims = [dims.1, dims.2] →
      Addressable register.dims → Performs register pulses
        ((Operator.ofBlock (dims.1 * dims.2) p q block).toMatrix (product register.dims))) :
    Exact dims legal sequence closed := by
  obtain ⟨circuit, made, circuitDims, rfl⟩ := circuitOn_exists firstLevels secondLevels valid
  have total : product circuit.register.dims = dims.1 * dims.2 := by rw [circuitDims, product_pair]
  rw [product_pair] at pBound qBound
  by_cases room : dims.1 * dims.2 * (dims.1 * dims.2) * 16 < 2 ^ 63
  · have checked : Operator.checkDim (dims.1 * dims.2) = .ok () := checkCapacity_eq_ok_iff.mpr room
    have built : closed = .ok (Operator.ofBlock (dims.1 * dims.2) p q block) := by
      rw [closedForm, Operator.blockOn_eq_ok checked pBound qBound]
      rfl
    refine ⟨by simp [sequenced, isLegal], ⟨fun _ => ⟨isLegal, room⟩, fun _ => ⟨_, built⟩⟩, ?_⟩
    intro pulses same
    rw [sequenced] at same
    cases same
    refine ⟨circuit, made, fun u isClosed => ?_⟩
    rw [built] at isClosed
    cases isClosed
    have addressable := Register.addressable (total ▸ checked)
    exact (performs circuit.register circuitDims addressable).operator_eq addressable total.symm
  · have refused : closed = .error (.circuit .outOfRange) := by
      have unchecked : Operator.checkDim (dims.1 * dims.2) = .error .outOfRange := if_neg room
      rw [closedForm, Operator.blockOn, unchecked]
      rfl
    have none : ¬ ∃ u, closed = .ok u := by simp [refused]
    refine ⟨by simp [sequenced, isLegal],
      ⟨fun some => absurd some none, fun both => absurd both.2 room⟩, ?_⟩
    intro pulses same
    rw [sequenced] at same
    cases same
    exact ⟨circuit, made, by simp [refused]⟩

end Exact
end Generator

end QuditSynth
