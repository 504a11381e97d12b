import QuditSynth.Proofs.Exact.Kronecker
import QuditSynth.Proofs.Operator.Algebra
import QuditSynth.Proofs.Synthesis.LayerMatrix

namespace QuditSynth

/-! # Shortcuts to the operator of a layer

The operator of a layer is computed without the matrices of its gates: a rotation
mixes two rows in place, and the operators on two qudits are multiplied entry by
entry instead of being embedded. Both give what the matrices would give.
-/

namespace LocalLayer

theorem rotation_compose {u : Operator ℝ} {a b : Nat} (room : Operator.checkDim u.dim = .ok ())
    (distinct : a ≠ b) (aBound : a < u.dim) (bBound : b < u.dim) (theta phi : ℝ) :
    (do (← Operator.rotation u.dim a b theta phi).compose u) =
      .ok (applyRotation u a b theta phi) := by
  have made : Operator.rotation u.dim a b theta phi =
      .ok (Operator.ofBlock u.dim a b (Operator.rotationBlock theta phi)) :=
    Operator.blockOn_eq_ok room aBound bBound _
  have sameDim : (Operator.ofBlock u.dim a b (Operator.rotationBlock theta phi)).dim = u.dim := rfl
  rw [made, Outcome.ok_bind, Operator.compose_eq_ok sameDim]
  refine congrArg Except.ok (Operator.eq_of_toMatrix sameDim
    (dim_applyRotation u a b theta phi) ?_)
  rw [toMatrix_applyRotation rfl distinct aBound bBound, Operator.toMatrix_mul sameDim]
  rfl

end LocalLayer

namespace Operator

variable {u v : Operator ℝ}

theorem eq_of_empty (uEmpty : u.dim = 0) (vEmpty : v.dim = 0) : u = v := by
  apply eq_of_entries (uEmpty.trans vEmpty.symm)
  intro row bound
  omega

theorem compose_empty : compose (zero 0) (zero 0) = .ok (zero 0 : Operator ℝ) :=
  (compose_eq_ok rfl).trans (congrArg Except.ok (eq_of_empty rfl rfl))

/-- On a register without states every embedding is the operator without entries, as long as the
digits can be weighed. -/
theorem embed_empty {dims targets : List Nat} {outer inner : List Nat}
    (positions : Positions dims targets) (empty : wordProduct dims = .ok 0)
    (dim : wordProduct (Axis.targetDims dims targets) = .ok u.dim)
    (outerWeights : strides dims = .ok outer)
    (innerWeights : strides (Axis.targetDims dims targets) = .ok inner) :
    u.embed dims targets [] = .ok (zero 0) := by
  simp only [embed, checkTargets_eq_ok positions, checkControls, dim, outerWeights, innerWeights,
    empty, Outcome.ok_bind, ne_eq, not_true_eq_false, ↓reduceIte]
  rfl

section Pair

theorem positions_first : Positions [u.dim, v.dim] [0] := by
  constructor <;> simp

theorem positions_second : Positions [u.dim, v.dim] [1] := by
  constructor <;> simp

theorem dim_first : u.dim = product (Axis.targetDims [u.dim, v.dim] [0]) :=
  (product_single u.dim).symm

theorem dim_second : v.dim = product (Axis.targetDims [u.dim, v.dim] [1]) :=
  (product_single v.dim).symm

theorem embed_pair_states (uLevels : 0 < u.dim) (vLevels : 0 < v.dim) :
    (do (← v.embed [u.dim, v.dim] [1] []).compose (← u.embed [u.dim, v.dim] [0] [])) =
      u.tensor v := by
  have positive : ∀ dim ∈ [u.dim, v.dim], 0 < dim := by
    simp [uLevels, vLevels]
  have total := product_pair u.dim v.dim
  rcases addressable_or_refused positive with addressable | refused
  · have onFirst : Positions [u.dim, v.dim] [0] := positions_first
    have onSecond : Positions [u.dim, v.dim] [1] := positions_second
    obtain ⟨first, firstRun, firstDim, firstMatrix⟩ :=
      embed_toMatrix addressable onFirst controlsFit_nil dim_first
    obtain ⟨second, secondRun, secondDim, secondMatrix⟩ :=
      embed_toMatrix addressable onSecond controlsFit_nil dim_second
    rw [firstRun, secondRun, Outcome.ok_bind, Outcome.ok_bind,
      compose_eq_ok (secondDim.trans firstDim.symm),
      tensor_eq_ok (Nat.ne_of_gt vLevels) (total ▸ addressable.room)]
    refine congrArg Except.ok (eq_of_toMatrix secondDim total.symm ?_)
    rw [toMatrix_mul secondDim, firstMatrix, secondMatrix, guarded_nil, guarded_nil,
      toMatrix_kronecker rfl addressable rfl rfl onFirst onSecond]
  · rw [embed_refused positive positions_second controlsFit_nil refused dim_second]
    rw [total] at refused
    rw [tensor, if_neg (Nat.ne_of_gt vLevels), refused]
    rfl

variable (uRoom : checkDim u.dim = .ok ()) (vRoom : checkDim v.dim = .ok ())

include uRoom vRoom

theorem embed_pair_empty (empty : u.dim * v.dim = 0) :
    u.embed [u.dim, v.dim] [0] [] = .ok (zero 0) ∧
      v.embed [u.dim, v.dim] [1] [] = .ok (zero 0) := by
  have total : wordProduct [u.dim, v.dim] = .ok 0 := by
    rw [wordProduct_pair, empty]
    rfl
  have uWord : word u.dim = .ok u.dim := word_of_lt (lt_wordLimit_of_checkDim uRoom)
  have vWord : word v.dim = .ok v.dim := word_of_lt (lt_wordLimit_of_checkDim vRoom)
  have outer : strides [u.dim, v.dim] = .ok [v.dim, 1] := by
    simp [strides, weights, List.mapM_cons, vWord, word_of_lt (show 1 < wordLimit by decide)]
  exact ⟨embed_empty positions_first total uWord outer rfl,
    embed_empty positions_second total vWord outer rfl⟩

theorem embed_pair_commute :
    (do (← u.embed [u.dim, v.dim] [0] []).compose (← v.embed [u.dim, v.dim] [1] [])) =
      (do (← v.embed [u.dim, v.dim] [1] []).compose (← u.embed [u.dim, v.dim] [0] [])) := by
  rcases Nat.eq_zero_or_pos (u.dim * v.dim) with empty | states
  · obtain ⟨first, second⟩ := embed_pair_empty uRoom vRoom empty
    rw [first, second]
  · have positive : ∀ dim ∈ [u.dim, v.dim], 0 < dim := by
      simp [Nat.pos_of_mul_pos_right states, Nat.pos_of_mul_pos_left states]
    exact embed_embed_commute positive positions_first controlsFit_nil positions_second
      controlsFit_nil (by simp) dim_first dim_second

/-- An operator beside another is their embeddings one after the other. -/
theorem embed_pair_eq_tensor (levels : v.dim ≠ 0) :
    (do (← v.embed [u.dim, v.dim] [1] []).compose (← u.embed [u.dim, v.dim] [0] [])) =
      u.tensor v := by
  rcases Nat.eq_zero_or_pos u.dim with none | uLevels
  · have empty : u.dim * v.dim = 0 := by rw [none, Nat.zero_mul]
    have product : u.tensor v = .ok (u.kronecker v) :=
      tensor_eq_ok levels (by rw [empty]; rfl)
    obtain ⟨first, second⟩ := embed_pair_empty uRoom vRoom empty
    rw [first, second, product]
    exact compose_empty.trans (congrArg Except.ok (eq_of_empty rfl empty))
  · exact embed_pair_states uLevels (Nat.pos_of_ne_zero levels)

end Pair

end Operator

/-- Mixing two rows is multiplying by a rotation, and the product entry by entry of two operators is
that of their embeddings in either order, unless the second has no entries at all. -/
theorem shortcuts_agree (u v : Operator ℝ) (uRoom : Operator.checkDim u.dim = .ok ())
    (vRoom : Operator.checkDim v.dim = .ok ()) :
    (∀ a b theta phi, a ≠ b → a < u.dim → b < u.dim →
      (do (← Operator.rotation u.dim a b theta phi).compose u) =
        .ok (LocalLayer.applyRotation u a b theta phi)) ∧
    let onFirst := u.embed [u.dim, v.dim] [0] []
    let onSecond := v.embed [u.dim, v.dim] [1] []
    (do (← onFirst).compose (← onSecond)) = (do (← onSecond).compose (← onFirst)) ∧
    (v.dim ≠ 0 → (do (← onSecond).compose (← onFirst)) = u.tensor v) ∧
    (v.dim = 0 → (do (← onSecond).compose (← onFirst)) = .ok (.zero 0) ∧
      u.tensor v = .error .outOfRange) := by
  refine ⟨fun a b theta phi distinct aBound bBound =>
    LocalLayer.rotation_compose uRoom distinct aBound bBound theta phi,
    Operator.embed_pair_commute uRoom vRoom, Operator.embed_pair_eq_tensor uRoom vRoom, ?_⟩
  intro none
  obtain ⟨first, second⟩ := Operator.embed_pair_empty uRoom vRoom (by rw [none, Nat.mul_zero])
  rw [first, second, Operator.tensor, if_pos none]
  exact ⟨Operator.compose_empty, rfl⟩

/-- Two rows of a shift in reverse order, and shifts of a qutrit and a qubit. -/
theorem shortcuts_agree_shift :
    (do (← Operator.rotation 3 2 0 Real.pi 1).compose (.cyclicShift 3)) =
        .ok (LocalLayer.applyRotation (.cyclicShift 3) 2 0 Real.pi 1) ∧
      (do
        let onFirst ← (Operator.cyclicShift 3 : Operator ℝ).embed [3, 2] [0] []
        onFirst.compose (← (Operator.cyclicShift 2).embed [3, 2] [1] [])) =
        .ok ((Operator.cyclicShift 3).kronecker (.cyclicShift 2)) := by
  obtain ⟨mixes, commute, agree, _⟩ := shortcuts_agree (.cyclicShift 3) (.cyclicShift 2) rfl rfl
  refine ⟨mixes 2 0 Real.pi 1 (by decide) (by decide) (by decide), ?_⟩
  exact commute.trans ((agree (by decide)).trans (Operator.tensor_eq_ok (by decide) rfl))

/-- An operator has no product with one without entries, though both can be embedded. -/
theorem tensor_empty_undefined :
    (Operator.identity 2).tensor (Operator.identity 0 : Operator ℝ) = .error .outOfRange ∧
      (do
        let onFirst ← (Operator.identity 2 : Operator ℝ).embed [2, 0] [0] []
        onFirst.compose (← (Operator.identity 0).embed [2, 0] [1] [])) = .ok (.zero 0) := by
  obtain ⟨first, second⟩ := Operator.embed_pair_empty (u := .identity 2) (v := .identity 0)
    rfl rfl rfl
  have onFirst : (Operator.identity 2 : Operator ℝ).embed [2, 0] [0] [] = .ok (.zero 0) := first
  have onSecond : (Operator.identity 0 : Operator ℝ).embed [2, 0] [1] [] = .ok (.zero 0) := second
  rw [onFirst, onSecond]
  exact ⟨rfl, Operator.compose_empty⟩

end QuditSynth
