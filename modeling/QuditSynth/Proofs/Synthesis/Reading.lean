import QuditSynth.Proofs.Synthesis.Elimination
import QuditSynth.Proofs.Synthesis.Operators
import QuditSynth.Proofs.Synthesis.Room

namespace QuditSynth

/-! # How parameters are read

Every parameter of an ansatz is read once: by its layer, at its level or pair of
levels, or by its entangler. The operator and the instructions read it alike.
-/

/-! ## Pairs of levels -/

theorem ComesBefore.ne {first second : Nat × Nat} (before : ComesBefore first second) :
    first ≠ second := by
  rintro rfl
  unfold ComesBefore at before
  omega

/-- The first columns leave the pairs of a smaller elimination. -/
theorem length_columns {dim count : Nat} (within : count < dim) :
    2 * ((List.range count).flatMap fun col =>
        (List.range' (col + 1) (dim - (col + 1))).reverse.map fun row => (col, row)).length +
      (dim - count) * (dim - count - 1) = dim * (dim - 1) := by
  induction count with
  | zero => simp
  | succ count ih =>
      have before := ih (Nat.lt_of_succ_lt within)
      obtain ⟨left, rfl⟩ : ∃ left, dim = count + 1 + (left + 1) := ⟨dim - count - 2, by omega⟩
      have columns : count + 1 + (left + 1) - count = left + 2 := by omega
      have others : count + 1 + (left + 1) - (count + 1) = left + 1 := by omega
      rw [columns] at before
      rw [List.range_succ, List.flatMap_append, List.length_append, others]
      simp only [List.flatMap_singleton, List.length_map, List.length_reverse,
        List.length_range', others]
      have step : (left + 2) * (left + 2 - 1) = 2 * (left + 1) + (left + 1) * (left + 1 - 1) := by
        rw [Nat.add_sub_cancel, Nat.add_sub_assoc (by decide)]
        ring
      omega

theorem two_mul_length_eliminationOrder (dim : Nat) :
    2 * (eliminationOrder dim).length = dim * (dim - 1) := by
  cases dim with
  | zero => rfl
  | succ last =>
      have columns := length_columns (Nat.lt_succ_self last)
      have done : (last + 1 - last) * (last + 1 - last - 1) = 0 := by
        rw [Nat.add_sub_cancel_left]
      rw [done, Nat.add_zero] at columns
      exact columns

theorem paramCount_eq {dim : Nat} (levels : 0 < dim) :
    dim - 1 + 2 * (eliminationOrder dim).length = dim * dim - 1 := by
  obtain ⟨last, rfl⟩ := Nat.exists_eq_succ_of_ne_zero (Nat.ne_of_gt levels)
  have square : last.succ * last.succ = last.succ * last + last.succ := Nat.mul_succ _ _
  rw [two_mul_length_eliminationOrder, Nat.succ_sub_one, square]
  omega

/-! ## Pairs of angles -/

variable {R : Type}

theorem inPairs_flatMap (pairs : List (R × R)) :
    inPairs (pairs.flatMap fun pair => [pair.1, pair.2]) = pairs := by
  induction pairs with
  | nil => rfl
  | cons pair pairs ih => exact congrArg (pair :: ·) ih

/-- An even number of elements is made of its pairs. -/
theorem flatMap_inPairs {params : List R} {count : Nat} (even : params.length = 2 * count) :
    ((inPairs params).flatMap fun pair => [pair.1, pair.2]) = params := by
  fun_induction inPairs params generalizing count with
  | case1 first second rest ih =>
      have fewer : rest.length = 2 * (count - 1) := by
        simp only [List.length_cons] at even
        omega
      exact congrArg (first :: second :: ·) (ih fewer)
  | case2 params short =>
      cases params with
      | nil => rfl
      | cons first rest =>
          cases rest with
          | nil =>
              simp only [List.length_cons, List.length_nil] at even
              omega
          | cons second rest => exact absurd rfl (short first second rest)

theorem length_inPairs {params : List R} {count : Nat} (even : params.length = 2 * count) :
    (inPairs params).length = count := by
  have all := congrArg List.length (flatMap_inPairs even)
  rw [List.length_flatMap] at all
  simp only [List.length_cons, List.length_nil, List.map_const', List.sum_replicate_nat] at all
  omega

namespace LocalLayer

/-- Every parameter of a layer with what it is for: an angle with its level, or two angles with
their pair of levels. -/
structure Reads (layer : LocalLayer) (params : List R) (phases : List (R × Nat))
    (rotations : List ((Nat × Nat) × (R × R))) : Prop where
  levels : phases.map Prod.snd = List.range (layer.dim - 1)
  pairs : rotations.map Prod.fst = layer.pairs
  params : phases.map Prod.fst ++
    (rotations.flatMap fun rotation => [rotation.2.1, rotation.2.2]) = params

variable {layer : LocalLayer} {params : List R} {phases : List (R × Nat)}
  {rotations : List ((Nat × Nat) × (R × R))}

theorem length_pairs (layer : LocalLayer) :
    layer.pairs.length = (eliminationOrder layer.dim).length :=
  List.length_reverse

theorem length_rest {angles rest : List R} (levels : 0 < layer.dim)
    (count : (angles ++ rest).length = layer.paramCount)
    (angleCount : angles.length = layer.dim - 1) : rest.length = 2 * layer.pairs.length := by
  rw [List.length_append, angleCount, paramCount, ← paramCount_eq levels] at count
  rw [length_pairs]
  omega

/-- Splitting the parameters of a layer is reading each of them once. -/
theorem split_eq_ok_iff_reads (levels : 0 < layer.dim)
    (count : params.length = layer.paramCount) :
    layer.split params = .ok (phases, rotations) ↔ layer.Reads params phases rotations := by
  rw [split_eq_ok_iff, and_iff_right levels]
  constructor
  · rintro ⟨angles, rest, rfl, angleCount, rfl, rfl⟩
    have even := length_rest levels count angleCount
    have same : layer.pairs.length = (inPairs rest).length := (length_inPairs even).symm
    have turned : (layer.pairs.zip (inPairs rest)).map Prod.snd = inPairs rest :=
      List.map_snd_zip (Nat.le_of_eq same.symm)
    refine ⟨?_, List.map_fst_zip (Nat.le_of_eq same), ?_⟩
    · rw [List.zipIdx_map_snd, angleCount, List.range_eq_range']
    · rw [List.zipIdx_map_fst, ← List.flatMap_map Prod.snd fun pair : R × R => [pair.1, pair.2],
        turned, flatMap_inPairs even]
  · rintro ⟨phaseLevels, rotationPairs, rfl⟩
    have angleCount : (phases.map Prod.fst).length = layer.dim - 1 := by
      rw [List.length_map, ← List.length_map Prod.snd, phaseLevels, List.length_range]
    refine ⟨_, _, rfl, angleCount, ?_, ?_⟩
    · rw [List.zipIdx_eq_zip_range', angleCount, ← List.range_eq_range', ← phaseLevels]
      exact List.zip_of_prod rfl rfl
    · rw [← List.flatMap_map Prod.snd fun pair : R × R => [pair.1, pair.2], inPairs_flatMap,
        ← rotationPairs]
      exact List.zip_of_prod rfl rfl

theorem Reads.unique {others : List (R × Nat)} {otherRotations : List ((Nat × Nat) × (R × R))}
    (levels : 0 < layer.dim) (count : params.length = layer.paramCount)
    (reads : layer.Reads params phases rotations)
    (again : layer.Reads params others otherRotations) :
    others = phases ∧ otherRotations = rotations := by
  have first := (split_eq_ok_iff_reads levels count).mpr reads
  have second := (split_eq_ok_iff_reads levels count).mpr again
  exact Prod.mk.inj (Except.ok.inj (second.symm.trans first))

variable [Scalar R]

/-- A rotation of each pair of levels after the phases of the diagonal. -/
def operatorOf (layer : LocalLayer) (phases : List (R × Nat))
    (rotations : List ((Nat × Nat) × (R × R))) : Operator R :=
  rotations.foldl (fun u rotation =>
    applyRotation u rotation.1.1 rotation.1.2 rotation.2.1 rotation.2.2)
    (Operator.diagonal (layer.diagonal phases))

/-- A gate for each phase and each rotation. -/
def gatesOf (phases : List (R × Nat)) (rotations : List ((Nat × Nat) × (R × R))) :
    List (Gate R) :=
  phases.map (fun phase => .rz phase.1 phase.2 (phase.2 + 1)) ++
    rotations.map fun rotation => .r rotation.2.1 rotation.2.2 rotation.1.1 rotation.1.2

theorem Reads.operator_eq (levels : 0 < layer.dim) (count : params.length = layer.paramCount)
    (reads : layer.Reads params phases rotations) :
    layer.operator params = .ok (layer.operatorOf phases rotations) := by
  rw [operator, (split_eq_ok_iff_reads levels count).mpr reads]
  rfl

theorem Reads.instructions_eq (levels : 0 < layer.dim) (count : params.length = layer.paramCount)
    (reads : layer.Reads params phases rotations) (qudit : Qudit) :
    layer.instructions params qudit = .ok (emit qudit (gatesOf phases rotations)) := by
  rw [LocalLayer.instructions, gates, (split_eq_ok_iff_reads levels count).mpr reads]
  rfl

end LocalLayer

/-! ## Slices -/

namespace Ansatz

variable {ansatz : Ansatz R} {params : List R}

theorem Fits.unique {slices other : Slices R} (fits : ansatz.Fits slices)
    (otherFits : ansatz.Fits other) (same : other.params = slices.params) : other = slices := by
  have first : ansatz.slices slices.params = .ok slices :=
    slices_eq_ok_iff.mpr ⟨fits, List.prefix_rfl⟩
  have second : ansatz.slices slices.params = .ok other :=
    slices_eq_ok_iff.mpr ⟨otherFits, same ▸ List.prefix_rfl⟩
  exact Except.ok.inj (second.symm.trans first)

variable [Scalar R]

end Ansatz

end QuditSynth
