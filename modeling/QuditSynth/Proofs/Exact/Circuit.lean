import QuditSynth.Proofs.Circuit.Operator
import QuditSynth.Proofs.Exact.Placement

namespace QuditSynth

/-! # What instructions perform

Over exact scalars a list of instructions multiplies whatever came before by one
matrix. Lists one after the other multiply their matrices, the later one from
the left.
-/

variable [Exponential ℝ] {register : Register} {instructions : List (Instruction ℝ)}

/-- Running the instructions multiplies by the matrix from the left. -/
def Performs (register : Register) (instructions : List (Instruction ℝ))
    (matrix : Matrix (Fin (product register.dims)) (Fin (product register.dims)) ℂ) : Prop :=
  ∀ total : Operator ℝ, total.dim = product register.dims →
    ∃ result, Circuit.applyAll register instructions total = .ok result ∧
      result.dim = product register.dims ∧
      result.toMatrix (product register.dims) = matrix * total.toMatrix (product register.dims)

theorem performs_nil : Performs register [] 1 := by
  intro total dim
  exact ⟨total, rfl, dim, (one_mul _).symm⟩

theorem performs_single {instruction : Instruction ℝ} {full : Operator ℝ}
    (built : instruction.operator register = .ok full) (dim : full.dim = product register.dims) :
    Performs register [instruction] (full.toMatrix (product register.dims)) := by
  intro total totalDim
  refine ⟨full * total, ?_, dim, Operator.toMatrix_mul dim⟩
  rw [Circuit.applyAll_cons [] built (dim.trans totalDim.symm)]
  rfl

theorem Performs.append {later : List (Instruction ℝ)}
    {first second : Matrix (Fin (product register.dims)) (Fin (product register.dims)) ℂ}
    (performsFirst : Performs register instructions first)
    (performsSecond : Performs register later second) :
    Performs register (instructions ++ later) (second * first) := by
  intro total dim
  obtain ⟨middle, runFirst, middleDim, middleMatrix⟩ := performsFirst total dim
  obtain ⟨result, runSecond, resultDim, resultMatrix⟩ := performsSecond middle middleDim
  refine ⟨result, ?_, resultDim, by rw [resultMatrix, middleMatrix, Matrix.mul_assoc]⟩
  rw [Circuit.applyAll, List.foldlM_append]
  exact Outcome.bind_eq_ok_iff.mpr ⟨middle, runFirst, runSecond⟩

/-- Instructions that can be run on one operator can be run on all of them. -/
theorem performs_of_applyAll {total result : Operator ℝ}
    (dim : total.dim = product register.dims)
    (applied : Circuit.applyAll register instructions total = .ok result) :
    ∃ matrix, Performs register instructions matrix ∧
      result.toMatrix (product register.dims) =
        matrix * total.toMatrix (product register.dims) := by
  induction instructions generalizing total with
  | nil =>
      cases applied
      exact ⟨1, performs_nil, (Matrix.one_mul _).symm⟩
  | cons instruction instructions ih =>
      rw [Circuit.applyAll, List.foldlM_cons] at applied
      obtain ⟨next, stepped, applied⟩ := Outcome.bind_eq_ok_iff.mp applied
      obtain ⟨full, built, composed⟩ := Outcome.bind_eq_ok_iff.mp stepped
      obtain ⟨same, rfl⟩ := Operator.compose_eq_ok_iff.mp composed
      have fullDim := same.trans dim
      have productDim : (full * total).dim = product register.dims := fullDim
      obtain ⟨matrix, performed, described⟩ := ih productDim applied
      refine ⟨_, (performs_single built fullDim).append performed, ?_⟩
      rw [described, Operator.toMatrix_mul fullDim, Matrix.mul_assoc]

/-- The operator of a circuit is what its instructions perform. -/
theorem Performs.operator_exists {circuit : Circuit ℝ}
    {matrix : Matrix (Fin (product circuit.register.dims)) (Fin (product circuit.register.dims)) ℂ}
    (performs : Performs circuit.register circuit.instructions matrix)
    (addressable : Addressable circuit.register.dims) :
    ∃ u, circuit.operator = .ok u ∧ u.dim = product circuit.register.dims ∧
      u.toMatrix (product circuit.register.dims) = matrix := by
  obtain ⟨u, run, dim, toMatrix⟩ :=
    performs (Operator.identity (product circuit.register.dims)) (Operator.dim_identity _)
  refine ⟨u, (Circuit.operator_eq addressable).trans run, dim, ?_⟩
  rw [toMatrix, Operator.toMatrix_identity, Matrix.mul_one]

theorem Performs.operator_eq {circuit : Circuit ℝ} {u : Operator ℝ}
    (performs : Performs circuit.register circuit.instructions
      (u.toMatrix (product circuit.register.dims)))
    (addressable : Addressable circuit.register.dims)
    (dim : u.dim = product circuit.register.dims) : circuit.operator = .ok u := by
  obtain ⟨v, run, vDim, toMatrix⟩ := performs.operator_exists addressable
  rw [run, Operator.eq_of_toMatrix vDim dim toMatrix]

theorem Circuit.performs_of_operator {circuit : Circuit ℝ} {u : Operator ℝ}
    (addressable : Addressable circuit.register.dims) (built : circuit.operator = .ok u) :
    u.dim = product circuit.register.dims ∧
      Performs circuit.register circuit.instructions
        (u.toMatrix (product circuit.register.dims)) := by
  obtain ⟨_, dim⟩ := dim_of_operator built
  rw [operator_eq addressable] at built
  obtain ⟨matrix, performed, described⟩ := performs_of_applyAll (Operator.dim_identity _) built
  rw [Operator.toMatrix_identity, Matrix.mul_one] at described
  exact ⟨dim, described ▸ performed⟩

end QuditSynth
