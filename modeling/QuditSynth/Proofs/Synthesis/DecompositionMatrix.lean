import QuditSynth.Proofs.Exact.Levels
import QuditSynth.Proofs.Exact.Phase
import QuditSynth.Proofs.Gate.Canonical
import QuditSynth.Proofs.Synthesis.Elimination
import QuditSynth.Proofs.Synthesis.Emission

namespace QuditSynth

/-! # The matrix of a decomposition

The phases relative to the first level make up the diagonal that an elimination
ends in, but for the phase of that level, and the rotations turned back lead from
the diagonal to the operator. What a one-qudit operator is decomposed into
therefore performs it up to a phase, as long as the entries that were passed over
are zero and the gates that were dropped turn by whole periods.
-/

namespace Gate

/-- A gate that turns by a whole number of its periods. -/
inductive Whole : Gate ℝ → Prop
  | turn {gate : Gate ℝ} {theta : ℝ} (turns : gate.TurnsBy theta) (count : ℤ)
      (whole : theta = count * Angle.rotationPeriod) : Whole gate
  | phase (theta : ℝ) (level : Nat) (count : ℤ) (whole : theta = count * Angle.phasePeriod) :
      Whole (.virtRz theta level)

theorem polar_whole (count : ℤ) :
    (Amplitude.polar 1 (-(count * Angle.phasePeriod)) : Amplitude ℝ).value = 1 := by
  have angle : ((-(count * Angle.phasePeriod) : ℝ) : ℂ) * Complex.I =
      (-count : ℤ) * (2 * Real.pi * Complex.I) := by
    rw [Angle.phasePeriod_exact]
    push_cast
    ring
  rw [Amplitude.value_polar, angle, Complex.exp_int_mul_two_pi_mul_I, Complex.ofReal_one, one_mul]

theorem Whole.mixing_eq_one {gate : Gate ℝ} {size : Nat} (whole : gate.Whole)
    (suits : gate.Suits [size]) : gate.mixing size = 1 := by
  cases whole with
  | turn turns count whole =>
      rw [whole, Angle.rotationPeriod_exact] at turns
      exact mixing_whole suits turns
  | phase theta level count whole =>
      rw [mixing, whole, polar_whole, Matrix.diagonal_eq_one]
      funext row
      exact ite_self 1

theorem levelPhase_exists {dim level : Nat} (room : Operator.checkDim dim = .ok ())
    (bound : level < dim) (theta : ℝ) :
    ∃ u, Operator.levelPhase dim level theta = .ok u ∧ u.dim = dim ∧
      u.toMatrix dim = (virtRz theta level).mixing dim := by
  refine ⟨_, Operator.phases_eq_ok_iff.mpr ⟨room, by simpa using bound, rfl⟩, rfl, ?_⟩
  rw [Operator.toMatrix_ofFn]
  funext row col
  by_cases same : row = col
  · rw [same, if_pos rfl, mixing, Matrix.diagonal_apply_eq, Operator.phaseOf,
      List.reverse_singleton, List.lookup_cons]
    by_cases isLevel : col.val = level
    · simp [isLevel]
    · have apart : (col.val == level) = false := beq_eq_false_iff_ne.mpr isLevel
      simp [isLevel, apart]
  · rw [mixing, Matrix.diagonal_apply_ne _ same, if_neg (by simpa [Fin.ext_iff] using same)]
    rfl

/-- The phases of different levels make up a diagonal. -/
theorem mixings_phases {size : Nat} (angles : Nat → ℝ) {levels : List Nat}
    (distinct : levels.Nodup) :
    mixings size (levels.map fun level => virtRz (angles level) level) =
      Matrix.diagonal fun row : Fin size =>
        if row.val ∈ levels then (Amplitude.polar 1 (-angles row)).value else 1 := by
  induction levels with
  | nil => simp [mixings]
  | cons level levels ih =>
      obtain ⟨fresh, others⟩ := List.nodup_cons.mp distinct
      rw [List.map_cons, mixings, ih others, mixing, Matrix.diagonal_mul_diagonal]
      congr 1
      funext row
      by_cases isLevel : row.val = level
      · simp [isLevel, fresh]
      · simp [isLevel]

variable [Exponential ℝ] {register : Register} {qudit : Qudit}
  (addressable : Addressable register.dims) (positions : Positions register.dims [qudit.index])

theorem performs_of_operator {gate : Gate ℝ} {u : Operator ℝ}
    (suits : gate.Suits [register.dims.getD qudit.index 1])
    (built : gate.operator [register.dims.getD qudit.index 1] = .ok u)
    (dim : u.dim = register.dims.getD qudit.index 1) :
    Performs register [.ofGate gate [qudit]]
      ((Axis.placement addressable positions).spread fun _ => u.toMatrix _) := by
  have within : qudit.index < register.size := positions.within _ (List.mem_singleton_self _)
  have valid : Instruction.Valid (.ofGate gate [qudit]) register :=
    Instruction.valid_ofGate within suits
  obtain ⟨inner, selected, dims, _⟩ := valid.select_exists rfl
  have innerDims : inner.dims = [register.dims.getD qudit.index 1] := dims
  have size : u.dim = product (Axis.targetDims register.dims [qudit.index]) :=
    dim.trans (product_single _).symm
  obtain ⟨full, embedded, _⟩ :=
    Operator.embed_exists addressable positions Operator.controlsFit_nil size
  obtain ⟨fullDim, toMatrix⟩ :=
    Operator.toMatrix_of_embed addressable positions Operator.controlsFit_nil size embedded
  rw [Operator.guarded_nil] at toMatrix
  rw [← toMatrix]
  apply performs_single _ fullDim
  rw [← innerDims] at built
  exact (valid.operator_eq rfl selected built).trans embedded

theorem performs_virtRz {level : Nat} (bound : level < register.dims.getD qudit.index 1)
    (theta : ℝ) :
    Performs register [.ofGate (virtRz theta level).canonicalize [qudit]]
      ((Axis.placement addressable positions).spread fun _ => (virtRz theta level).mixing _) := by
  have size : product (Axis.targetDims register.dims [qudit.index]) =
      register.dims.getD qudit.index 1 := product_single _
  have room : Operator.checkDim (register.dims.getD qudit.index 1) = .ok () :=
    size ▸ (addressable.atTargets positions).room
  obtain ⟨u, built, dim, toMatrix⟩ :=
    levelPhase_exists room bound (Angle.wrap theta Angle.phasePeriod)
  have unwrapped : (virtRz (Angle.wrap theta Angle.phasePeriod) level).mixing
      (register.dims.getD qudit.index 1) =
        (virtRz theta level).mixing (register.dims.getD qudit.index 1) := by
    rw [mixing, mixing, Amplitude.polar_wrap]
  have suits : (virtRz theta level).canonicalize.Suits [register.dims.getD qudit.index 1] :=
    ⟨_, rfl, bound⟩
  rw [unwrapped, ← size] at toMatrix
  rw [← toMatrix]
  refine performs_of_operator addressable positions suits ?_ dim
  rw [operator, checkLevels_eq_ok_iff.mpr suits, Outcome.ok_bind]
  exact built

end Gate

theorem Amplitude.value_of_norm_eq_one {a : Amplitude ℝ} (unit : a.norm = 1) :
    a.value = Complex.exp (a.arg * Complex.I) := by
  have polar := Complex.norm_mul_exp_arg_mul_I a.value
  rw [← norm_value, unit, Complex.ofReal_one, one_mul] at polar
  exact polar.symm

namespace Elimination

variable {u : Operator ℝ}

/-- The phases relative to the first level are those of the diagonal, up to the phase of that
level. -/
theorem mixings_diagonal {left : Operator ℝ} {size : Nat} (dim : left.dim = size)
    (diagonal : ∀ row < size, ∀ col < size, row ≠ col → left.entry row col = 0)
    (lengths : ∀ level < size, (left.entry level level).norm = 1) :
    Gate.mixings size ((List.range' 1 (left.dim - 1)).map fun level =>
        Gate.virtRz ((left.entry 0 0).arg - (left.entry level level).arg) level) =
      Complex.exp (-(left.entry 0 0).arg * Complex.I) • left.toMatrix size := by
  subst dim
  rw [Gate.mixings_phases (fun level => (left.entry 0 0).arg - (left.entry level level).arg)
    (List.nodup_range' 1)]
  ext row col
  rw [Matrix.smul_apply, smul_eq_mul, Operator.toMatrix_apply]
  by_cases same : row = col
  · subst same
    rw [Matrix.diagonal_apply_eq, Amplitude.value_of_norm_eq_one (lengths row row.isLt),
      ← Complex.exp_add]
    by_cases first : row.val = 0
    · rw [if_neg (by simp [first]), first]
      simp
    · rw [if_pos (by rw [List.mem_range'_1]; omega), Amplitude.value_polar, Complex.ofReal_one,
        one_mul]
      congr 1
      push_cast
      ring
  · rw [Matrix.diagonal_apply_ne _ same,
      diagonal row row.isLt col col.isLt (by simpa [Fin.ext_iff] using same),
      Amplitude.value_zero, mul_zero]

/-- The gates of a decomposition have the matrix of the operator, up to a phase. -/
theorem mixings_gates (unitary : u.Unitary) (passes : PassesOverZeros u) :
    ∃ phase : ℂ, ‖phase‖ = 1 ∧
      Gate.mixings u.dim (gates (run u)) = phase • u.toMatrix u.dim := by
  obtain ⟨diagonal, lengths⟩ := run_diagonal unitary passes
  refine ⟨Complex.exp (-((run u).operator.entry 0 0).arg * Complex.I), ?_, ?_⟩
  · rw [← Complex.ofReal_neg, Complex.norm_exp_ofReal_mul_I]
  · rw [gates, Gate.mixings_append,
      mixings_diagonal (confined_run u).dim_eq diagonal lengths, Matrix.mul_smul]
    exact congrArg _ (run_undone u)

/-- Each gate of a decomposition performs its matrix. -/
theorem performs_gate [Exponential ℝ] {register : Register} {qudit : Qudit}
    (addressable : Addressable register.dims) (positions : Positions register.dims [qudit.index])
    {state : State ℝ} {gate : Gate ℝ} (member : gate ∈ gates state)
    (suits : gate.Suits [register.dims.getD qudit.index 1]) :
    Performs register [.ofGate gate.canonicalize [qudit]]
      ((Axis.placement addressable positions).spread fun _ => gate.mixing _) := by
  rcases List.mem_append.mp member with phase | turn
  · obtain ⟨level, _, rfl⟩ := List.mem_map.mp phase
    obtain ⟨_, same, bound⟩ := suits
    cases same
    exact Gate.performs_virtRz addressable positions bound _
  · obtain ⟨rotation, _, rfl⟩ := List.mem_map.mp turn
    exact (Gate.TurnsBy.r _ _ _ _).performs addressable positions suits

end Elimination

theorem LocalLayer.remap_emit {R : Type} [Scalar R] (qudit : Qudit) (gates : List (Gate R))
    (f : Qudit → Qudit) : (emit qudit gates).map (·.remap f) = emit (f qudit) gates := by
  rw [emit, emit, List.map_map]
  rfl

section Performed

variable [Exponential ℝ] {u : Operator ℝ}

/-- On a qudit of its dimension, the emitted gates perform the operator up to a phase. -/
theorem performs_decomposition {register : Register} {qudit : Qudit}
    (addressable : Addressable register.dims) (positions : Positions register.dims [qudit.index])
    (levels : register.dims.getD qudit.index 1 = u.dim) (unitary : u.Unitary)
    (passes : Elimination.PassesOverZeros u)
    (dropped : ∀ gate ∈ Elimination.gates (Elimination.run u),
      gate.isIdentity identityAngle = true → gate.Whole) :
    ∃ phase : ℂ, ‖phase‖ = 1 ∧
      Performs register (LocalLayer.emit qudit (Elimination.gates (Elimination.run u)))
        ((Axis.placement addressable positions).spread fun _ => phase • u.toMatrix _) := by
  have size : product (Axis.targetDims register.dims [qudit.index]) = u.dim :=
    (product_single _).trans levels
  have suits : ∀ gate ∈ Elimination.gates (Elimination.run u), gate.Suits [u.dim] :=
    (Elimination.confined_run u).suits le_rfl
  obtain ⟨phase, unit, matrix⟩ := Elimination.mixings_gates unitary passes
  refine ⟨phase, unit, ?_⟩
  rw [← size] at matrix
  rw [← matrix]
  apply Gate.performs_emit_of
  · intro gate member _
    apply Elimination.performs_gate addressable positions member
    rw [levels]
    exact suits gate member
  · intro gate member isIdentity
    rw [size]
    exact (dropped gate member isIdentity).mixing_eq_one (suits gate member)

omit [Exponential ℝ] in
/-- On a register of just one qudit, placing a matrix on it changes nothing. -/
theorem Operator.spread_whole {dims : List Nat} (single : dims = [u.dim])
    (addressable : Addressable dims) (positions : Positions dims [0]) :
    ((Axis.placement addressable positions).spread fun _ => u.toMatrix _) =
      u.toMatrix (product dims) := by
  subst single
  have size : u.dim = product (Axis.targetDims [u.dim] [0]) := (product_single _).symm
  have whole := embed_whole honestZero_exact addressable rfl
  rw [(toMatrix_of_embed addressable positions controlsFit_nil size whole).2, guarded_nil]

/-- Over exact scalars the decomposition of a unitary operator succeeds, its elimination ends in a
diagonal of phases, and its gates, put on a register of one qudit, have the operator's matrix up to
a phase, provided that the entries passed over are zero and the gates dropped turn by whole
periods. -/
theorem decomposeSingleQudit_exact (u : Operator ℝ) (qudit : Qudit) (levels : 2 ≤ u.dim)
    (unitary : u.Unitary) (passes : Elimination.PassesOverZeros u)
    (dropped : ∀ gate ∈ Elimination.gates (Elimination.run u),
      gate.isIdentity identityAngle = true → gate.Whole) :
    ∃ sequence, decomposeSingleQudit u qudit = .ok sequence ∧
      ((Elimination.run u).operator.dim = u.dim ∧
        (∀ row < u.dim, ∀ col < u.dim, row ≠ col →
          (Elimination.run u).operator.entry row col = 0) ∧
        ∀ level < u.dim, ((Elimination.run u).operator.entry level level).norm = 1) ∧
      ∀ name, ∃ empty circuit, Circuit.ofDims name [u.dim] = .ok empty ∧
        empty.withInstructions (sequence.map (·.remap fun _ => ⟨0⟩)) = .ok circuit ∧
        (Operator.checkDim u.dim = .ok () →
          ∃ v, circuit.operator = .ok v ∧ u.SameUpToPhase v) := by
  have nonempty : u.dim ≠ 0 := by omega
  have passesForUnitary := Operator.isUnitary_of_unitary ((Operator.unitary_iff rfl).mp unitary)
    Operator.tolerance_positive
  refine ⟨_, decomposeSingleQudit_eq_ok nonempty passesForUnitary qudit,
    ⟨(Elimination.confined_run u).dim_eq, Elimination.run_diagonal unitary passes⟩, fun name => ?_⟩
  let register : Register := ⟨[u.dim], by simp, by simpa using levels⟩
  have made : Register.ofDims [u.dim] = .ok register := Register.ofDims_eq_ok_iff.mpr rfl
  have positions : Positions register.dims [(⟨0⟩ : Qudit).index] := ⟨by simp [register], by simp⟩
  have valid : ∀ instruction ∈ LocalLayer.emit ⟨0⟩ (Elimination.gates (Elimination.run u)),
      instruction.Valid register :=
    LocalLayer.valid_emit Nat.one_pos ((Elimination.confined_run u).suits le_rfl)
  let circuit : Circuit ℝ :=
    ⟨name, register, LocalLayer.emit ⟨0⟩ (Elimination.gates (Elimination.run u))⟩
  rw [LocalLayer.remap_emit]
  refine ⟨.empty name register, circuit, ?_,
    Circuit.withInstructions_eq_ok_iff.mpr ⟨valid, rfl⟩, ?_⟩
  · rw [Circuit.ofDims, made]
    rfl
  · intro room
    have size : u.dim = product register.dims := (product_single _).symm
    have addressable : Addressable register.dims := ⟨register.positive, size ▸ room⟩
    obtain ⟨phase, unit, performs⟩ :=
      performs_decomposition addressable positions rfl unitary passes dropped
    rw [Placement.spread_smul, Operator.spread_whole rfl addressable positions] at performs
    have performed : Performs circuit.register circuit.instructions
        (phase • u.toMatrix (product circuit.register.dims)) := performs
    obtain ⟨v, run, vDim, toMatrix⟩ := performed.operator_exists addressable
    refine ⟨v, run, size.trans vDim.symm, phase, unit, ?_⟩
    rw [size]
    exact toMatrix

end Performed

namespace Elimination

/-- Where the diagonal entry is zero, an entry of one is exchanged with it by a half turn. -/
theorem step_exchanging {state : State ℝ} {col row : Nat}
    (pivot : state.operator.entry col col = 0) (target : state.operator.entry row col = 1) :
    step state (col, row) =
      ⟨LocalLayer.applyRotation state.operator col row Real.pi (-Scalar.half Real.pi),
        ⟨col, row, Real.pi, -Scalar.half Real.pi⟩ :: state.rotations⟩ := by
  have zeroNorm : (0 : Amplitude ℝ).norm = 0 := by simp [Amplitude.norm_value]
  have oneNorm : (1 : Amplitude ℝ).norm = 1 := by simp [Amplitude.norm_value]
  have zeroArg : (0 : Amplitude ℝ).arg = 0 := Complex.arg_zero
  have oneArg : (1 : Amplitude ℝ).arg = 0 := Complex.arg_one
  have quarter : Scalar.atan2 (1 : ℝ) 0 = Real.pi / 2 := Complex.arg_I
  have long : ¬ (state.operator.entry row col).norm < eliminated := by
    rw [target, oneNorm]
    norm_num [eliminated]
  have angle : (Scalar.two * (Real.pi / 2) : ℝ) = Real.pi := by
    rw [Scalar.two_exact]
    ring
  have axis : ((0 : ℝ) - 0 - Scalar.half Scalar.pi : ℝ) = -Scalar.half Real.pi := by
    rw [sub_zero, zero_sub, Scalar.pi_exact]
  rw [step_of_long long, pivot, target]
  dsimp only
  rw [zeroNorm, oneNorm, zeroArg, oneArg, quarter, angle, axis]

theorem entry_halfTurn {u : Operator ℝ} {a b : Nat} (distinct : a ≠ b) (aBound : a < u.dim)
    (bBound : b < u.dim) {col : Nat} (colBound : col < u.dim) (row : Nat) :
    ((LocalLayer.applyRotation u a b Real.pi (-Scalar.half Real.pi)).entry row col).value =
      if row = a then (u.entry b col).value
      else if row = b then -(u.entry a col).value
      else (u.entry row col).value := by
  have quarter := turn_behind Real.pi 0
  rw [zero_sub, ← Scalar.half_exact] at quarter
  rw [LocalLayer.entry_applyRotation distinct aBound bBound colBound, quarter]
  simp

section Shift

/-- A shift of three levels with its first two rows exchanged, up to a sign. -/
noncomputable def halfShift : Operator ℝ :=
  LocalLayer.applyRotation (.cyclicShift 3) 0 1 Real.pi (-Scalar.half Real.pi)

theorem dim_halfShift : halfShift.dim = 3 := LocalLayer.dim_applyRotation _ _ _ _ _

theorem entry_halfShift {col : Nat} (colBound : col < 3) (row : Nat) :
    (halfShift.entry row col).value =
      if row = 0 then ((Operator.cyclicShift 3 : Operator ℝ).entry 1 col).value
      else if row = 1 then -((Operator.cyclicShift 3 : Operator ℝ).entry 0 col).value
      else ((Operator.cyclicShift 3 : Operator ℝ).entry row col).value :=
  entry_halfTurn (by decide) (by decide) (by decide) colBound row

theorem entry_shift {row col : Nat} (rowBound : row < 3) (colBound : col < 3) :
    (Operator.cyclicShift 3 : Operator ℝ).entry row col = if row = (col + 1) % 3 then 1 else 0 :=
  Operator.entry_ofFn _ rowBound colBound

theorem visited_first : visited (Operator.cyclicShift 3) [(0, 2)] =
    (⟨.cyclicShift 3, []⟩ : State ℝ) := by
  apply step_of_short
  rw [entry_shift (by decide) (by decide), if_neg (by decide)]
  norm_num [Amplitude.norm_value, eliminated]

theorem visited_second : visited (Operator.cyclicShift 3) [(0, 2), (0, 1)] =
    (⟨halfShift, [⟨0, 1, Real.pi, -Scalar.half Real.pi⟩]⟩ : State ℝ) := by
  rw [← List.singleton_append, visited_concat, visited_first]
  apply step_exchanging
  · exact entry_shift (by decide) (by decide)
  · exact entry_shift (by decide) (by decide)

theorem halfShift_diagonal : halfShift.entry 1 1 = 0 := by
  apply Amplitude.value_injective
  rw [entry_halfShift (by decide), if_neg (by decide), if_pos rfl,
    entry_shift (by decide) (by decide)]
  simp

theorem halfShift_below : halfShift.entry 2 1 = 1 := by
  apply Amplitude.value_injective
  rw [entry_halfShift (by decide), if_neg (by decide), if_neg (by decide),
    entry_shift (by decide) (by decide), if_pos (by decide)]

theorem passesOverZeros_shift : PassesOverZeros (.cyclicShift 3) := by
  have long : ¬ (1 : Amplitude ℝ).norm < eliminated := by
    norm_num [Amplitude.norm_value, eliminated]
  have order : eliminationOrder (Operator.cyclicShift 3 : Operator ℝ).dim =
      [(0, 2), (0, 1), (1, 2)] := by decide
  intro before col row after split short
  rw [order] at split
  rcases before with _ | ⟨first, _ | ⟨second, _ | ⟨third, before⟩⟩⟩
  · cases split
    exact entry_shift (by decide) (by decide)
  · cases split
    rw [visited_first, entry_shift (by decide) (by decide)] at short
    exact absurd short long
  · cases split
    rw [visited_second, halfShift_below] at short
    exact absurd short long
  · simp at split

theorem run_shift : run (Operator.cyclicShift 3) =
    (⟨LocalLayer.applyRotation halfShift 1 2 Real.pi (-Scalar.half Real.pi),
      [⟨1, 2, Real.pi, -Scalar.half Real.pi⟩,
        ⟨0, 1, Real.pi, -Scalar.half Real.pi⟩]⟩ : State ℝ) := by
  have order : eliminationOrder 3 = [(0, 2), (0, 1)] ++ [(1, 2)] := by decide
  change visited _ (eliminationOrder 3) = _
  rw [order, visited_concat, visited_second]
  exact step_exchanging halfShift_diagonal halfShift_below

theorem run_shift_diagonal {level : Nat} (bound : level < 3) :
    (run (Operator.cyclicShift 3 : Operator ℝ)).operator.entry level level = 1 := by
  apply Amplitude.value_injective
  have inside : ∀ level < 3, level < halfShift.dim := fun level bound => dim_halfShift ▸ bound
  rw [run_shift, entry_halfTurn (by decide) (inside 1 (by decide)) (inside 2 (by decide))
    (inside level bound)]
  obtain rfl | rfl | rfl : level = 0 ∨ level = 1 ∨ level = 2 := by omega
  · rw [if_neg (by decide), if_neg (by decide), entry_halfShift (by decide), if_pos rfl,
      entry_shift (by decide) (by decide), if_pos (by decide)]
  · rw [if_pos rfl, halfShift_below]
  · rw [if_neg (by decide), if_pos rfl, entry_halfShift (by decide), if_neg (by decide),
      if_pos rfl, entry_shift (by decide) (by decide), if_pos (by decide), neg_neg]

theorem decided_half_turn : Angle.Decided (-Real.pi) := by
  rintro ⟨turns, close⟩
  have small : (identityAngle : ℝ) < 1 := by norm_num [identityAngle]
  have long := Real.two_le_pi
  rw [Angle.rotationPeriod_exact, abs_le] at close
  exfalso
  by_cases negative : turns ≤ -1
  · have few : (turns : ℝ) ≤ -1 := by exact_mod_cast negative
    nlinarith
  · have many : (0 : ℝ) ≤ turns := by exact_mod_cast (by omega : 0 ≤ turns)
    nlinarith

theorem dropped_shift : ∀ gate ∈ gates (run (Operator.cyclicShift 3 : Operator ℝ)),
    gate.isIdentity identityAngle = true → gate.Whole := by
  intro gate member isIdentity
  rcases List.mem_append.mp member with phase | turn
  · obtain ⟨level, listed, rfl⟩ := List.mem_map.mp phase
    have bound : level < 3 := by
      rw [List.mem_range'_1, (confined_run _).dim_eq] at listed
      exact listed.2
    rw [run_shift_diagonal (by decide), run_shift_diagonal bound, sub_self]
    exact .phase 0 level 0 (by simp)
  · rw [run_shift] at turn
    obtain ⟨rotation, listed, rfl⟩ := List.mem_map.mp turn
    have angle : rotation.theta = Real.pi := by
      rcases List.mem_cons.mp listed with rfl | second
      · rfl
      · rw [List.mem_singleton.mp second]
    have turns := Gate.TurnsBy.r (-rotation.theta) rotation.phi rotation.col rotation.row
    have decided : Angle.Decided (-rotation.theta) := angle ▸ decided_half_turn
    obtain ⟨count, whole⟩ := turns.whole_of_dropped decided isIdentity
    exact .turn turns count whole

end Shift
end Elimination

/-- The shift of three levels: one entry is passed over, two are exchanged with zeros on the
diagonal by half turns, and no phase is left. -/
theorem decomposeSingleQudit_exact_shift :
    let _ : Exponential ℝ := .taylor
    let shift : Operator ℝ := .cyclicShift 3
    shift.Unitary ∧ Elimination.PassesOverZeros shift ∧
      ∃ sequence empty circuit v, decomposeSingleQudit shift ⟨5⟩ = .ok sequence ∧
        Circuit.ofDims "c" [3] = .ok empty ∧
        empty.withInstructions (sequence.map (·.remap fun _ => ⟨0⟩)) = .ok circuit ∧
        circuit.operator = .ok v ∧ shift.SameUpToPhase v := by
  intro exponential shift
  have unitary : shift.Unitary := (Operator.unitary_iff rfl).mpr Operator.shift_unitary
  have passes : Elimination.PassesOverZeros shift := Elimination.passesOverZeros_shift
  obtain ⟨sequence, decomposed, _, onRegister⟩ :=
    decomposeSingleQudit_exact shift ⟨5⟩ (by decide) unitary passes Elimination.dropped_shift
  obtain ⟨empty, circuit, made, filled, matrix⟩ := onRegister "c"
  obtain ⟨v, run, same⟩ := matrix rfl
  exact ⟨unitary, passes, sequence, empty, circuit, v, decomposed, made, filled, run, same⟩

end QuditSynth
