import QuditSynth.Proofs.Generator.Exactness
import QuditSynth.Proofs.Synthesis.Operators
import QuditSynth.Proofs.Synthesis.Validity

namespace QuditSynth

/-! # The matrix of a local layer

The operator of a layer is computed row by row, its gates go through blocks on
two levels. Over exact scalars the operator is the product of the blocks, the
first gate on the right.
-/

namespace Gate

/-- The matrix of a rotation or a relative phase of two levels, or of the phase of one level. -/
noncomputable def mixing (size : Nat) : Gate ℝ → Matrix (Fin size) (Fin size) ℂ
  | r theta phi a b => (Operator.ofBlock size a b (Operator.rotationBlock theta phi)).toMatrix size
  | rz theta a b => (Operator.ofBlock size a b (Crot.phaseBlock theta)).toMatrix size
  | virtRz theta level => Matrix.diagonal fun row =>
      if row.val = level then (Amplitude.polar 1 (-theta)).value else 1
  | _ => 1

/-- The matrix of gates that act one after the other. -/
noncomputable def mixings (size : Nat) : List (Gate ℝ) → Matrix (Fin size) (Fin size) ℂ
  | [] => 1
  | gate :: gates => mixings size gates * gate.mixing size

theorem mixings_append (size : Nat) (first second : List (Gate ℝ)) :
    mixings size (first ++ second) = mixings size second * mixings size first := by
  induction first with
  | nil => simp [mixings]
  | cons gate gates ih => rw [List.cons_append, mixings, mixings, ih, Matrix.mul_assoc]

/-- A relative phase or a rotation of two levels by an angle. -/
inductive TurnsBy {R : Type} : Gate R → R → Prop
  | r (theta phi : R) (a b : Nat) : TurnsBy (.r theta phi a b) theta
  | rz (theta : R) (a b : Nat) : TurnsBy (.rz theta a b) theta

theorem TurnsBy.isIdentity_eq {R : Type} [Scalar R] {gate : Gate R} {theta : R}
    (turns : gate.TurnsBy theta) (tolerance : R) :
    gate.isIdentity tolerance = Angle.nearMultiple theta Angle.rotationPeriod tolerance := by
  cases turns with
  | r => rfl
  | rz => rfl

variable {size : Nat}

theorem mixing_whole {gate : Gate ℝ} {turns : ℤ} (suits : gate.Suits [size])
    (whole : gate.TurnsBy (turns * (4 * Real.pi))) : gate.mixing size = 1 := by
  cases whole with
  | r _ phi a b =>
      obtain ⟨_, same, distinct, aBound, bBound⟩ := suits
      cases same
      rw [mixing, Operator.toMatrix_ofBlock rfl aBound bBound, Operator.rotationBlock_matrix,
        turn_whole, plane_one (by simpa using distinct)]
  | rz _ a b =>
      obtain ⟨_, same, distinct, aBound, bBound⟩ := suits
      cases same
      rw [mixing, Operator.toMatrix_ofBlock rfl aBound bBound, Crot.phaseBlock_matrix,
        shift_whole, plane_one (by simpa using distinct)]

theorem mixings_whole {gates : List (Gate ℝ)} (suits : ∀ gate ∈ gates, gate.Suits [size])
    (whole : ∀ gate ∈ gates, ∃ turns : ℤ, gate.TurnsBy (turns * (4 * Real.pi))) :
    mixings size gates = 1 := by
  induction gates with
  | nil => rfl
  | cons gate gates ih =>
      obtain ⟨gateSuits, othersSuit⟩ := List.forall_mem_cons.mp suits
      obtain ⟨⟨turns, gateWhole⟩, othersWhole⟩ := List.forall_mem_cons.mp whole
      rw [mixings, ih othersSuit othersWhole, mixing_whole gateSuits gateWhole, Matrix.one_mul]

end Gate

namespace LocalLayer

variable {size : Nat}

theorem entry_applyRotation {u : Operator ℝ} {a b : Nat} (distinct : a ≠ b) (aBound : a < u.dim)
    (bBound : b < u.dim) {col : Nat} (colBound : col < u.dim) (theta phi : ℝ) (row : Nat) :
    ((applyRotation u a b theta phi).entry row col).value =
      if row = a then
        turn theta phi 0 0 * (u.entry a col).value + turn theta phi 0 1 * (u.entry b col).value
      else if row = b then
        turn theta phi 1 0 * (u.entry a col).value + turn theta phi 1 1 * (u.entry b col).value
      else (u.entry row col).value := by
  rw [entry_applyRotation_mixed distinct aBound bBound colBound, mixed,
    ← Operator.rotationBlock_matrix]
  split
  · simp [Operator.Block.matrix, Operator.rotationBlock, mul_comm]
  · split
    · simp [Operator.Block.matrix, Operator.rotationBlock, mul_comm]
    · rfl

theorem toMatrix_applyRotation {u : Operator ℝ} {a b : Nat} (dim : u.dim = size)
    (distinct : a ≠ b) (aBound : a < size) (bBound : b < size) (theta phi : ℝ) :
    (applyRotation u a b theta phi).toMatrix size =
      (Gate.r theta phi a b).mixing size * u.toMatrix size := by
  subst dim
  rw [Gate.mixing, Operator.toMatrix_ofBlock rfl aBound bBound, Operator.rotationBlock_matrix]
  ext row col
  refine Eq.trans ?_ (plane_mulVec (by simpa using distinct) _
    (fun row => u.toMatrix u.dim row col) row).symm
  simp only [Operator.toMatrix_apply, entry_applyRotation distinct aBound bBound col.isLt,
    Fin.ext_iff]

theorem toMatrix_diagonal {entries : List (Amplitude ℝ)} (count : entries.length = size) :
    (Operator.diagonal entries).toMatrix size =
      fun row col : Fin size => if row = col then (entries.getD row 0).value else 0 := by
  subst count
  refine (Operator.toMatrix_ofFn _).trans ?_
  funext row col
  by_cases same : row = col
  · simp [same]
  · simp [same, Fin.val_inj]

theorem toMatrix_diagonal_modify {entries : List (Amplitude ℝ)} {level : Nat}
    (count : entries.length = size) (bound : level + 1 < size) (theta : ℝ) :
    (Operator.diagonal ((entries.modify level (· * .polar 1 (Scalar.half (-theta)))).modify
        (level + 1) (· * .polar 1 (Scalar.half theta)))).toMatrix size =
      (Gate.rz theta level (level + 1)).mixing size *
        (Operator.diagonal entries).toMatrix size := by
  subst count
  have below : level < entries.length := Nat.lt_of_succ_lt bound
  rw [Gate.mixing, Operator.toMatrix_ofBlock rfl below bound]
  rw [toMatrix_diagonal rfl, toMatrix_diagonal (by simp)]
  ext row col
  -- A block on a plane mixes two rows; this one has nothing off its diagonal to mix them with.
  refine Eq.trans ?_ (plane_mulVec (by simp) _
    (fun row => if row = col then (entries.getD row 0).value else 0) row).symm
  have modified : ∀ row : Fin entries.length, (((entries.modify level
      (· * .polar 1 (Scalar.half (-theta)))).modify (level + 1)
        (· * .polar 1 (Scalar.half theta))).getD row 0).value =
      if row = ⟨level, below⟩ then
        (Crot.phaseBlock theta).matrix 0 0 * (entries.getD row 0).value
      else if row = ⟨level + 1, bound⟩ then
        (Crot.phaseBlock theta).matrix 1 1 * (entries.getD row 0).value
      else (entries.getD row 0).value := by
    intro row
    by_cases isLevel : row = ⟨level, below⟩
    · simp [isLevel, Operator.Block.matrix, Crot.phaseBlock, below, mul_comm]
    · have notLevel : level ≠ row := fun same => isLevel (Fin.ext same.symm)
      by_cases isNext : row = ⟨level + 1, bound⟩
      · simp [isNext, Operator.Block.matrix, Crot.phaseBlock, bound, mul_comm]
      · have notNext : level + 1 ≠ row := fun same => isNext (Fin.ext same.symm)
        simp [isLevel, isNext, notLevel, notNext]
  have upper : (Crot.phaseBlock theta).matrix 0 1 = 0 := by
    simp [Operator.Block.matrix, Crot.phaseBlock]
  have lower : (Crot.phaseBlock theta).matrix 1 0 = 0 := by
    simp [Operator.Block.matrix, Crot.phaseBlock]
  rw [modified, upper, lower]
  by_cases isLevel : row = ⟨level, below⟩
  · simp [isLevel]
  · by_cases isNext : row = ⟨level + 1, bound⟩
    · simp [isNext]
    · simp [isLevel, isNext]

theorem toMatrix_phases {phases : List (ℝ × Nat)} {entries : List (Amplitude ℝ)}
    (count : entries.length = size) (bounds : ∀ phase ∈ phases, phase.2 + 1 < size) :
    (Operator.diagonal (phases.foldl (fun entries (theta, level) =>
      (entries.modify level (· * .polar 1 (Scalar.half (-theta)))).modify (level + 1)
        (· * .polar 1 (Scalar.half theta))) entries)).toMatrix size =
      Gate.mixings size (phases.map fun (theta, level) => .rz theta level (level + 1)) *
        (Operator.diagonal entries).toMatrix size := by
  induction phases generalizing entries with
  | nil => rw [List.map_nil, Gate.mixings, Matrix.one_mul, List.foldl_nil]
  | cons phase phases ih =>
      obtain ⟨bound, bounds⟩ := List.forall_mem_cons.mp bounds
      rw [List.foldl_cons, ih (by simpa using count) bounds,
        toMatrix_diagonal_modify count bound, List.map_cons, Gate.mixings, Matrix.mul_assoc]

theorem toMatrix_rotations {rotations : List ((Nat × Nat) × (ℝ × ℝ))} {u : Operator ℝ}
    (dim : u.dim = size) (suits : ∀ rotation ∈ rotations, rotation.1.1 ≠ rotation.1.2 ∧
      rotation.1.1 < size ∧ rotation.1.2 < size) :
    (rotations.foldl (fun u ((a, b), (theta, phi)) => applyRotation u a b theta phi)
      u).toMatrix size =
      Gate.mixings size (rotations.map fun ((a, b), (theta, phi)) => .r theta phi a b) *
        u.toMatrix size := by
  induction rotations generalizing u with
  | nil => rw [List.map_nil, Gate.mixings, Matrix.one_mul, List.foldl_nil]
  | cons rotation rotations ih =>
      obtain ⟨⟨a, b⟩, theta, phi⟩ := rotation
      obtain ⟨⟨distinct, aBound, bBound⟩, othersSuit⟩ := List.forall_mem_cons.mp suits
      rw [List.foldl_cons, ih ((dim_applyRotation u a b theta phi).trans dim) othersSuit,
        toMatrix_applyRotation dim distinct aBound bBound, List.map_cons, Gate.mixings,
        Matrix.mul_assoc]

theorem toMatrix_operator {layer : LocalLayer} {params : List ℝ} {gates : List (Gate ℝ)}
    {u : Operator ℝ} (dim : layer.dim = size) (made : layer.gates params = .ok gates)
    (built : layer.operator params = .ok u) :
    u.dim = size ∧ u.toMatrix size = Gate.mixings size gates := by
  subst dim
  have suits := suits_gates made
  obtain ⟨⟨phases, rotations⟩, split, listed⟩ := Outcome.bind_eq_ok_iff.mp made
  rw [operator, split] at built
  cases listed
  cases built
  obtain ⟨phasesSuit, rotationsSuit⟩ := List.forall_mem_append.mp suits
  have count := layer.length_diagonal phases
  have diagonalDim : (Operator.diagonal (layer.diagonal phases)).dim = layer.dim := by
    simpa [Operator.diagonal] using count
  refine ⟨(dim_rotations rotations _).trans diagonalDim, ?_⟩
  have opening : (Operator.diagonal (List.replicate layer.dim (1 : Amplitude ℝ))).toMatrix
      layer.dim = 1 := by
    rw [toMatrix_diagonal List.length_replicate]
    ext row col
    simp [Matrix.one_apply]
  rw [toMatrix_rotations diagonalDim, diagonal, toMatrix_phases List.length_replicate, opening,
    Matrix.mul_one, Gate.mixings_append]
  · intro phase member
    obtain ⟨_, same, _, _, bound⟩ := phasesSuit _ (List.mem_map_of_mem member)
    cases same
    exact bound
  · intro rotation member
    obtain ⟨_, same, suit⟩ := rotationsSuit _ (List.mem_map_of_mem member)
    cases same
    exact suit

/-- The angles of the relative phases and the rotations, without the phases of the latter. -/
def angles {R : Type} (layer : LocalLayer) (params : List R) : List R :=
  params.take (layer.dim - 1) ++ (inPairs (params.drop (layer.dim - 1))).map Prod.fst

theorem turnsBy_of_gates {R : Type} [Scalar R] {layer : LocalLayer} {params : List R}
    {gates : List (Gate R)} (made : layer.gates params = .ok gates) :
    ∀ gate ∈ gates, ∃ theta ∈ layer.angles params, gate.TurnsBy theta := by
  obtain ⟨⟨phases, rotations⟩, split, listed⟩ := Outcome.bind_eq_ok_iff.mp made
  obtain ⟨_, angles, rest, rfl, count, rfl, rfl⟩ := split_eq_ok_iff.mp split
  cases listed
  have listed : layer.angles (angles ++ rest) = angles ++ (inPairs rest).map Prod.fst := by
    rw [LocalLayer.angles, ← count, List.take_left, List.drop_left]
  rw [listed]
  intro gate member
  rcases List.mem_append.mp member with phase | rotation
  · obtain ⟨⟨theta, level⟩, indexed, rfl⟩ := List.mem_map.mp phase
    refine ⟨theta, List.mem_append_left _ (List.fst_mem_of_mem_zipIdx indexed), .rz _ _ _⟩
  · obtain ⟨⟨⟨a, b⟩, theta, phi⟩, zipped, rfl⟩ := List.mem_map.mp rotation
    exact ⟨theta, List.mem_append_right _ (List.mem_map_of_mem (List.of_mem_zip zipped).2),
      .r _ _ _ _⟩

theorem mem_of_mem_inPairs {R : Type} {params : List R} {pair : R × R}
    (member : pair ∈ inPairs params) : pair.1 ∈ params := by
  fun_induction inPairs params with
  | case1 first second rest ih =>
      rcases List.mem_cons.mp member with rfl | later
      · exact List.mem_cons_self
      · exact List.mem_cons_of_mem _ (List.mem_cons_of_mem _ (ih later))
  | case2 params short => exact absurd member List.not_mem_nil

theorem mem_of_mem_angles {R : Type} {layer : LocalLayer} {params : List R} {theta : R}
    (member : theta ∈ layer.angles params) : theta ∈ params := by
  rcases List.mem_append.mp member with phase | rotation
  · exact List.mem_of_mem_take phase
  · obtain ⟨pair, listed, rfl⟩ := List.mem_map.mp rotation
    exact List.mem_of_mem_drop (mem_of_mem_inPairs listed)

theorem operator_zeros (layer : LocalLayer) (positive : 0 < layer.dim) :
    layer.operator (List.replicate layer.paramCount (0 : ℝ)) = .ok (.identity layer.dim) := by
  have count : (List.replicate layer.paramCount (0 : ℝ)).length = layer.paramCount :=
    List.length_replicate
  obtain ⟨u, built, _⟩ := operator_exists count positive
  obtain ⟨gates, made⟩ := gates_exists count positive
  obtain ⟨dim, toMatrix⟩ := toMatrix_operator rfl made built
  -- Zero is a whole number of periods, so every gate of the layer is the identity.
  have still : ∀ gate ∈ gates, ∃ turns : ℤ, gate.TurnsBy (turns * (4 * Real.pi)) := by
    intro gate member
    obtain ⟨theta, listed, turns⟩ := turnsBy_of_gates made gate member
    rw [List.eq_of_mem_replicate (mem_of_mem_angles listed)] at turns
    exact ⟨0, by simpa using turns⟩
  rw [Gate.mixings_whole (suits_gates made) still, ← Operator.toMatrix_identity] at toMatrix
  rw [built, Operator.eq_of_toMatrix dim (Operator.dim_identity _) toMatrix]

end LocalLayer
end QuditSynth
