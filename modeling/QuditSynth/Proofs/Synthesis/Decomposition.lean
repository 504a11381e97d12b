import QuditSynth.Synthesis.Decomposition
import QuditSynth.Proofs.Gate.Operator
import QuditSynth.Proofs.Instruction.Validity
import QuditSynth.Proofs.Synthesis.RowMixing

namespace QuditSynth

/-! # Validity of decompositions

Eliminations visit pairs of levels that exist, and so every gate of a
decomposition fits a qudit with as many levels as the operator has.
-/

theorem mem_eliminationOrder_iff {dim : Nat} {pair : Nat × Nat} :
    pair ∈ eliminationOrder dim ↔ pair.1 < pair.2 ∧ pair.2 < dim := by
  obtain ⟨col, row⟩ := pair
  simp only [eliminationOrder, List.mem_flatMap, List.mem_range, List.mem_map, List.mem_reverse,
    List.mem_range'_1, Prod.mk.injEq]
  constructor
  · rintro ⟨_, colBound, _, ⟨above, below⟩, rfl, rfl⟩
    omega
  · rintro ⟨above, below⟩
    exact ⟨col, by omega, row, by omega, rfl, rfl⟩

variable {R : Type} [Scalar R]

namespace Elimination

/-- The operator keeps its dimension, and every rotation names two of its levels. -/
structure Confined (dim : Nat) (state : State R) : Prop where
  dim_eq : state.operator.dim = dim
  rotations : ∀ rotation ∈ state.rotations, rotation.col < rotation.row ∧ rotation.row < dim

variable {dim : Nat} {state : State R}

theorem Confined.step (confined : Confined dim state) {pair : Nat × Nat}
    (inside : pair ∈ eliminationOrder dim) : Confined dim (step state pair) := by
  unfold Elimination.step
  dsimp only
  split
  · exact confined
  · exact ⟨(LocalLayer.dim_applyRotation _ _ _ _ _).trans confined.dim_eq, List.forall_mem_cons.mpr
      ⟨mem_eliminationOrder_iff.mp inside, confined.rotations⟩⟩

theorem Confined.steps (confined : Confined dim state) {pairs : List (Nat × Nat)}
    (inside : ∀ pair ∈ pairs, pair ∈ eliminationOrder dim) :
    Confined dim (pairs.foldl Elimination.step state) := by
  induction pairs generalizing state with
  | nil => exact confined
  | cons pair pairs ih =>
      obtain ⟨first, others⟩ := List.forall_mem_cons.mp inside
      exact ih (confined.step first) others

theorem confined_run (u : Operator R) : Confined u.dim (run u) := by
  have start : Confined u.dim (⟨u, []⟩ : State R) := ⟨rfl, List.forall_mem_nil _⟩
  exact start.steps fun _ inside => inside

/-- The gates of a decomposition name levels that exist, also where there are more. -/
theorem Confined.suits (confined : Confined dim state) {levels : Nat} (enough : dim ≤ levels) :
    ∀ gate ∈ gates state, gate.Suits [levels] := by
  intro gate member
  rcases List.mem_append.mp member with phase | turn
  · obtain ⟨level, inRange, rfl⟩ := List.mem_map.mp phase
    rw [List.mem_range'_1, confined.dim_eq] at inRange
    exact ⟨levels, rfl, by omega⟩
  · obtain ⟨rotation, recorded, rfl⟩ := List.mem_map.mp turn
    obtain ⟨above, below⟩ := confined.rotations rotation recorded
    exact ⟨levels, rfl, by omega, by omega, by omega⟩

end Elimination

omit [Scalar R] in
/-- A gate that fits the dimension of a qudit is valid once it is put on it. -/
theorem Instruction.valid_ofGate {register : Register} {qudit : Qudit} {gate : Gate R}
    (within : qudit.index < register.size)
    (suits : gate.Suits [register.dims.getD qudit.index 1]) :
    (ofGate gate [qudit]).Valid register where
  within := by simpa [ofGate, allQudits, controlQudits]
  distinct := by simp [ofGate, allQudits, controlQudits]
  levelled := by simp [ofGate]
  suited := ⟨by simp [ofGate], Gate.checkLevels_eq_ok_iff.mpr suits⟩

theorem LocalLayer.valid_emit {register : Register} {qudit : Qudit} {gates : List (Gate R)}
    (within : qudit.index < register.size)
    (suited : ∀ gate ∈ gates, gate.Suits [register.dims.getD qudit.index 1]) :
    ∀ instruction ∈ emit qudit gates, instruction.Valid register := by
  intro instruction member
  obtain ⟨gate, kept, rfl⟩ := List.mem_map.mp member
  exact Instruction.valid_ofGate within
    ((gate.suits_canonicalize _).mpr (suited gate (List.mem_of_mem_filter kept)))

/-- What an operator is decomposed into is valid on every qudit with at least as many levels. -/
theorem decomposeSingleQudit_valid {u : Operator R} {register : Register} {qudit : Qudit}
    {sequence : List (Instruction R)} (decomposed : decomposeSingleQudit u qudit = .ok sequence)
    (within : qudit.index < register.size) (enough : u.dim ≤ register.dims.getD qudit.index 1) :
    ∀ instruction ∈ sequence, instruction.Valid register := by
  unfold decomposeSingleQudit at decomposed
  dsimp only at decomposed
  split at decomposed
  · cases decomposed
  · split at decomposed
    · cases decomposed
    · cases decomposed
      exact LocalLayer.valid_emit within ((Elimination.confined_run u).suits enough)

/-- Only operators of no dimension and those that do not pass for unitary are refused. -/
theorem decomposeSingleQudit_exists_iff {u : Operator R} {qudit : Qudit} :
    (∃ sequence, decomposeSingleQudit u qudit = .ok sequence) ↔
      u.dim ≠ 0 ∧ u.isUnitary (Operator.unitarityTolerance * 1e3) = true := by
  unfold decomposeSingleQudit
  cases unitary : u.isUnitary (Operator.unitarityTolerance * 1e3) with
  | false => simp
  | true =>
      by_cases empty : u.dim = 0
      · simp [empty]
      · simp [empty]

theorem decomposeSingleQudit_eq_ok {u : Operator R} (nonempty : u.dim ≠ 0)
    (unitary : u.isUnitary (Operator.unitarityTolerance * 1e3) = true) (qudit : Qudit) :
    decomposeSingleQudit u qudit =
      .ok (LocalLayer.emit qudit (Elimination.gates (Elimination.run u))) := by
  simp [decomposeSingleQudit, unitary, nonempty]

/-- An operator that passes for unitary is decomposed into gates that are valid on every qudit of
its dimension. -/
theorem decomposeSingleQudit_exists {u : Operator R}
    (unitary : u.isUnitary (Operator.unitarityTolerance * 1e3) = true) {register : Register}
    {qudit : Qudit} (within : qudit.index < register.size)
    (dim : u.dim = register.dims.getD qudit.index 1) :
    ∃ sequence, decomposeSingleQudit u qudit = .ok sequence ∧
      ∀ instruction ∈ sequence, instruction.Valid register := by
  have positive : 0 < u.dim := by
    rw [dim, List.getD_eq_getElem _ _ within]
    exact register.positive _ (List.getElem_mem _)
  obtain ⟨sequence, decomposed⟩ :=
    decomposeSingleQudit_exists_iff.mpr ⟨positive.ne', unitary⟩
  exact ⟨sequence, decomposed, decomposeSingleQudit_valid decomposed within dim.le⟩

end QuditSynth
