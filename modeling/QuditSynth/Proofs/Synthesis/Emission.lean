import QuditSynth.Proofs.Synthesis.LayerMatrix

namespace QuditSynth

/-! # What a local layer emits

Gates that turn by a multiple of their period are dropped, the others reduced and
put on a qudit. Over exact scalars what is emitted performs the matrix of the
layer, as long as no angle is close to a multiple of its period without being one.
-/

namespace Angle

/-- An angle that is a multiple of its period if it is close enough to one to count as one. -/
def Decided (theta : ℝ) : Prop :=
  (∃ turns : ℤ, |theta - turns * rotationPeriod| ≤ identityAngle) →
    ∃ turns : ℤ, theta = turns * rotationPeriod

theorem Decided.whole {theta : ℝ} (decided : Decided theta)
    (close : wrap theta rotationPeriod ≤ identityAngle ∨
      rotationPeriod - wrap theta rotationPeriod ≤ identityAngle) :
    ∃ turns : ℤ, theta = turns * rotationPeriod := by
  have positive := rotationPeriod_pos
  have lower := Int.floor_le (theta / rotationPeriod)
  have upper := Int.lt_floor_add_one (theta / rotationPeriod)
  rw [le_div_iff₀ positive] at lower
  rw [div_lt_iff₀ positive] at upper
  rw [wrap_exact positive] at close
  apply decided
  rcases close with above | below
  · refine ⟨⌊theta / rotationPeriod⌋, ?_⟩
    rw [abs_of_nonneg (sub_nonneg.mpr lower)]
    exact above
  · refine ⟨⌊theta / rotationPeriod⌋ + 1, ?_⟩
    push_cast
    rw [abs_of_neg (sub_neg.mpr upper)]
    linarith

theorem decided_zero : Decided 0 := fun _ => ⟨0, by simp⟩

theorem decided_one : Decided 1 := by
  rintro ⟨turns, close⟩
  have small : (identityAngle : ℝ) < 1 := by norm_num [identityAngle]
  have long := Real.two_le_pi
  rw [rotationPeriod_exact, abs_le] at close
  exfalso
  by_cases positive : 1 ≤ turns
  · have many : (1 : ℝ) ≤ turns := by exact_mod_cast positive
    nlinarith
  · have few : (turns : ℝ) ≤ 0 := by exact_mod_cast (by omega : turns ≤ 0)
    nlinarith

end Angle

theorem Crot.phaseBlock_wrap (theta : ℝ) :
    phaseBlock (Angle.wrap theta Angle.rotationPeriod) = phaseBlock theta := by
  simp only [phaseBlock, Amplitude.polar, Scalar.half_exact, Scalar.sin_exact, Scalar.cos_exact,
    neg_div, Real.cos_neg, Real.sin_neg, Angle.cos_half_wrap, Angle.sin_half_wrap]

theorem Operator.relativePhase_eq_ok {dim a b : Nat} (room : checkDim dim = .ok ())
    (distinct : a ≠ b) (aBound : a < dim) (bBound : b < dim) (theta : ℝ) :
    relativePhase dim a b theta = .ok (ofBlock dim a b (Crot.phaseBlock theta)) := by
  simp only [relativePhase, phases, room, Outcome.ok_bind, List.all_cons, List.all_nil, aBound,
    bBound, decide_true, Bool.and_self, if_true, Outcome.pure_eq_ok]
  refine congrArg Except.ok (congrArg (ofFn dim) ?_)
  funext row col
  by_cases diagonal : row = col
  · subst diagonal
    by_cases isSecond : row = b
    · simp [isSecond, distinct.symm, Crot.phaseBlock]
    · have notSecond : (row == b) = false := beq_eq_false_iff_ne.mpr isSecond
      by_cases isFirst : row = a
      · rw [isFirst] at notSecond
        simp [isFirst, distinct, Crot.phaseBlock, List.lookup_cons, notSecond]
      · have notFirst : (row == a) = false := beq_eq_false_iff_ne.mpr isFirst
        simp [isFirst, isSecond, List.lookup_cons, notFirst, notSecond]
  · have apart : ∀ level, ¬ (row = level ∧ col = level) :=
      fun level both => diagonal (both.1.trans both.2.symm)
    simp [diagonal, apart, Crot.phaseBlock]

variable [Exponential ℝ] {register : Register}

namespace LevelPair

variable {target : Qudit} {a b : Nat} (pair : LevelPair register target a b)

theorem performs_phase (addressable : Addressable register.dims) (theta : ℝ) :
    Performs register [.ofGate (Gate.rz theta a b).canonicalize [target]]
      (pair.matrix addressable [] (shift theta)) := by
  rw [← Crot.phaseBlock_matrix, ← Crot.phaseBlock_wrap]
  apply pair.performs_ofBlock addressable Operator.controlsFit_nil
  have valid : Instruction.Valid (.ofGate (Gate.rz theta a b).canonicalize [target]) register :=
    Instruction.valid_ofGate pair.within ⟨_, rfl, pair.distinct, pair.aBound, pair.bBound⟩
  obtain ⟨inner, selected, dims, levels⟩ := valid.select_exists rfl
  have innerDims : inner.dims = [register.dims.getD target.index 1] := dims
  have block : Gate.operator (Gate.rz theta a b).canonicalize inner.dims =
      .ok (Operator.ofBlock (register.dims.getD target.index 1) a b
        (Crot.phaseBlock (Angle.wrap theta Angle.rotationPeriod))) := by
    rw [Gate.operator, levels, innerDims, Outcome.ok_bind]
    exact Operator.relativePhase_eq_ok (pair.room addressable) pair.distinct pair.aBound
      pair.bBound _
  exact valid.operator_eq rfl selected block

omit [Exponential ℝ] in
theorem matrix_free (addressable : Addressable register.dims) (block : Operator.Block ℝ) :
    pair.matrix addressable [] block.matrix =
      (Axis.placement addressable pair.positions).spread fun _ =>
        (Operator.ofBlock (product (Axis.targetDims register.dims [target.index])) a b
          block).toMatrix _ := by
  have aBound : a < product (Axis.targetDims register.dims [target.index]) := pair.first.isLt
  have bBound : b < product (Axis.targetDims register.dims [target.index]) := pair.second.isLt
  rw [matrix, Operator.guarded_nil, Operator.toMatrix_ofBlock rfl aBound bBound]
  rfl

end LevelPair

namespace Gate

variable {qudit : Qudit} (addressable : Addressable register.dims)
  (positions : Positions register.dims [qudit.index])

/-- A reduced gate on a qudit performs its matrix there. -/
theorem TurnsBy.performs {gate : Gate ℝ} {theta : ℝ} (turns : gate.TurnsBy theta)
    (suits : gate.Suits [register.dims.getD qudit.index 1]) :
    Performs register [.ofGate gate.canonicalize [qudit]]
      ((Axis.placement addressable positions).spread fun _ => gate.mixing _) := by
  have within : qudit.index < register.size := positions.within _ (List.mem_singleton_self _)
  cases turns with
  | r _ phi a b =>
      obtain ⟨_, same, distinct, aBound, bBound⟩ := suits
      cases same
      have pair : LevelPair register qudit a b := ⟨within, distinct, aBound, bBound⟩
      have performed := pair.performs_rotate addressable theta phi
      rw [← Operator.rotationBlock_matrix, pair.matrix_free addressable] at performed
      exact performed
  | rz _ a b =>
      obtain ⟨_, same, distinct, aBound, bBound⟩ := suits
      cases same
      have pair : LevelPair register qudit a b := ⟨within, distinct, aBound, bBound⟩
      have performed := pair.performs_phase addressable theta
      rw [← Crot.phaseBlock_matrix, pair.matrix_free addressable] at performed
      exact performed

omit [Exponential ℝ] in
theorem TurnsBy.whole_of_dropped {gate : Gate ℝ} {theta : ℝ} (turns : gate.TurnsBy theta)
    (decided : Angle.Decided theta) (dropped : gate.isIdentity identityAngle = true) :
    ∃ count : ℤ, theta = count * Angle.rotationPeriod := by
  rw [turns.isIdentity_eq, Angle.nearMultiple, Bool.or_eq_true, decide_eq_true_iff,
    decide_eq_true_iff] at dropped
  exact decided.whole (dropped.imp le_of_lt le_of_lt)

omit [Exponential ℝ] in
theorem TurnsBy.mixing_dropped {size : Nat} {gate : Gate ℝ} {theta : ℝ}
    (turns : gate.TurnsBy theta) (decided : Angle.Decided theta) (suits : gate.Suits [size])
    (dropped : gate.isIdentity identityAngle = true) : gate.mixing size = 1 := by
  obtain ⟨count, rfl⟩ := turns.whole_of_dropped decided dropped
  rw [Angle.rotationPeriod_exact] at turns
  exact mixing_whole suits turns

/-- Emitted gates perform the product of their matrices if each of them performs its own, those
that are dropped being factors of one. -/
theorem performs_emit_of {gates : List (Gate ℝ)}
    (kept : ∀ gate ∈ gates, gate.isIdentity identityAngle = false →
      Performs register [.ofGate gate.canonicalize [qudit]]
        ((Axis.placement addressable positions).spread fun _ => gate.mixing _))
    (dropped : ∀ gate ∈ gates, gate.isIdentity identityAngle = true →
      gate.mixing (product (Axis.targetDims register.dims [qudit.index])) = 1) :
    Performs register (LocalLayer.emit qudit gates)
      ((Axis.placement addressable positions).spread fun _ => mixings _ gates) := by
  induction gates with
  | nil =>
      rw [mixings, Placement.spread_one]
      exact performs_nil
  | cons gate gates ih =>
      obtain ⟨gateKept, othersKept⟩ := List.forall_mem_cons.mp kept
      obtain ⟨gateDropped, othersDropped⟩ := List.forall_mem_cons.mp dropped
      have performed := ih othersKept othersDropped
      cases isIdentity : gate.isIdentity identityAngle with
      | true =>
          rw [mixings, gateDropped isIdentity, Matrix.mul_one]
          rw [LocalLayer.emit, List.filter_cons_of_neg (by simp [isIdentity])]
          exact performed
      | false =>
          have blind : (Axis.placement addressable positions).Blind fun _ => mixings _ gates :=
            fun _ _ => rfl
          rw [mixings, ← Placement.spread_mul _ blind, LocalLayer.emit,
            List.filter_cons_of_pos (by simp [isIdentity]), List.map_cons]
          exact (gateKept isIdentity).append performed

theorem performs_emit {gates : List (Gate ℝ)}
    (suits : ∀ gate ∈ gates, gate.Suits [register.dims.getD qudit.index 1])
    (decided : ∀ gate ∈ gates, ∃ theta, gate.TurnsBy theta ∧ Angle.Decided theta) :
    Performs register (LocalLayer.emit qudit gates)
      ((Axis.placement addressable positions).spread fun _ => mixings _ gates) := by
  apply performs_emit_of
  · intro gate member _
    obtain ⟨theta, turns, _⟩ := decided gate member
    exact turns.performs addressable positions (suits gate member)
  · intro gate member isIdentity
    obtain ⟨theta, turns, gateDecided⟩ := decided gate member
    have size : product (Axis.targetDims register.dims [qudit.index]) =
        register.dims.getD qudit.index 1 := product_single _
    exact turns.mixing_dropped gateDecided (size ▸ suits gate member) isIdentity

end Gate

theorem LocalLayer.performs_instructions {layer : LocalLayer} {params : List ℝ} {qudit : Qudit}
    (addressable : Addressable register.dims) (positions : Positions register.dims [qudit.index])
    (dim : register.dims.getD qudit.index 1 = layer.dim)
    (count : params.length = layer.paramCount)
    (decided : ∀ theta ∈ layer.angles params, Angle.Decided theta) :
    ∃ emitted u, layer.instructions params qudit = .ok emitted ∧
      layer.operator params = .ok u ∧ u.dim = layer.dim ∧
      Performs register emitted ((Axis.placement addressable positions).spread fun _ =>
        u.toMatrix _) := by
  have within : qudit.index < register.size := positions.within _ (List.mem_singleton_self _)
  have positive : 0 < layer.dim := by
    rw [← dim, List.getD_eq_getElem _ _ within]
    exact register.positive _ (List.getElem_mem _)
  obtain ⟨gates, made⟩ := gates_exists count positive
  obtain ⟨u, built, uDim⟩ := operator_exists count positive
  have size : layer.dim = product (Axis.targetDims register.dims [qudit.index]) :=
    dim.symm.trans (product_single _).symm
  refine ⟨emit qudit gates, u, ?_, built, uDim, ?_⟩
  · rw [LocalLayer.instructions, made]
    rfl
  · rw [(toMatrix_operator size made built).2]
    apply Gate.performs_emit addressable positions
    · rw [dim]
      exact suits_gates made
    · intro gate member
      obtain ⟨theta, listed, turns⟩ := turnsBy_of_gates made gate member
      exact ⟨theta, turns, decided theta listed⟩

end QuditSynth
