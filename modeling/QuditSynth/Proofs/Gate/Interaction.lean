import QuditSynth.Proofs.Exact.Series
import QuditSynth.Proofs.Gate.Canonical
import QuditSynth.Proofs.Generator.Sequences

namespace QuditSynth

/-! # Interactions act on the lowest levels

The exponential that is computed for an interaction is only an approximation, but
its shape is exact: the identity, plus a multiple of the projection on the lowest
two levels of both qudits, plus a multiple of their simultaneous flip.
-/

open scoped Matrix Kronecker

namespace Operator

/-- The projection on the lowest two levels. -/
def lowest {R : Type} [Scalar R] (dim : Nat) : Operator R :=
  ofFn dim fun row col => if row = col ∧ row < 2 then 1 else 0

variable {first second dim : Nat}

/-- The identity, with a multiple of the projection on the lowest levels of both qudits and a
multiple of their flip. -/
noncomputable def lowestMixture (first second : Nat) (alpha beta : Amplitude ℝ) :
    Except Error (Operator ℝ) := do
  let one ← identityOn (first * second)
  let flipFirst ← lowestFlip first
  let flipSecond ← lowestFlip second
  return one + ((lowest first).kronecker (lowest second)).scale beta +
    (flipFirst.kronecker flipSecond).scale alpha

/-- An operator that touches the lowest two levels of two qudits only: it leaves every state with a
higher level on either qudit as it is, and moves the others to themselves and their flips. -/
structure LowestOnly (first second : Nat) (u : Operator ℝ) : Prop where
  dim : u.dim = first * second
  fixed : ∀ i < first, ∀ j < second, 2 ≤ i ∨ 2 ≤ j → ∀ row < first * second,
    u.entry row (i * second + j) = if row = i * second + j then 1 else 0
  sparse : ∀ row < first * second, ∀ col < first * second, row ≠ col →
    (∀ i < 2, ∀ j < 2, ¬ (row = i * second + j ∧ col = (1 - i) * second + (1 - j))) →
    u.entry row col = 0

theorem lowest_apply (row col : Fin dim) :
    (lowest dim : Operator ℝ).toMatrix dim row col =
      if row.val = col.val ∧ row.val < 2 then 1 else 0 := by
  rw [lowest, toMatrix_ofFn]
  beta_reduce
  split <;> rfl

theorem toMatrix_lowest (levels : 2 ≤ dim) :
    (lowest dim : Operator ℝ).toMatrix dim = flip dim * flip dim := by
  ext row col
  change _ = (flip dim *ᵥ fun inner => flip dim inner col) row
  rw [lowest_apply, flip_mulVec levels]
  simp only [flip]
  rcases row with ⟨_ | _ | row, rowBound⟩
  · by_cases diagonal : col.val = 0 <;> simp [diagonal, eq_comm (a := 0)]
  · by_cases diagonal : col.val = 1 <;> simp [diagonal, eq_comm (a := 1)]
  · simp

theorem toMatrix_kronecker_pair {u v : Operator ℝ} (uDim : u.dim = first) (vDim : v.dim = second) :
    (u.kronecker v).toMatrix (first * second) =
      (u.toMatrix first ⊗ₖ v.toMatrix second).submatrix finProdFinEquiv.symm
        finProdFinEquiv.symm := by
  subst uDim vDim
  exact kronecker_eq_submatrix u v

@[simp] theorem dim_lowest {R : Type} [Scalar R] (dim : Nat) :
    (lowest dim : Operator R).dim = dim := rfl

theorem toMatrix_lowest_pair (firstLevels : 2 ≤ first) (secondLevels : 2 ≤ second) :
    ((lowest first).kronecker (lowest second) : Operator ℝ).toMatrix (first * second) =
      flips first second * flips first second := by
  rw [toMatrix_kronecker_pair (dim_lowest first) (dim_lowest second),
    toMatrix_lowest firstLevels, toMatrix_lowest secondLevels]
  simp only [flips, Matrix.submatrix_mul_equiv, ← Matrix.mul_kronecker_mul]

theorem lowest_pair_apply (row col : Fin (first * second)) :
    ((lowest first).kronecker (lowest second) : Operator ℝ).toMatrix (first * second) row col =
      if row.val = col.val ∧ row.val / second < 2 ∧ row.val % second < 2 then 1 else 0 := by
  rw [toMatrix_kronecker_pair (dim_lowest first) (dim_lowest second)]
  change (lowest first).toMatrix first row.divNat col.divNat *
    (lowest second).toMatrix second row.modNat col.modNat = _
  rw [lowest_apply, lowest_apply, ite_zero_mul_ite_zero, mul_one]
  simp only [Fin.coe_divNat, Fin.coe_modNat]
  refine if_congr ?_ rfl rfl
  rw [Nat.ext_div_mod_iff second row.val col.val]
  tauto

theorem flips_apply (row col : Fin (first * second)) : flips first second row col =
    if row.val / second + col.val / second = 1 ∧ row.val % second + col.val % second = 1 then 1
      else 0 := by
  have digits : ∀ p q : Nat, p = 0 ∧ q = 1 ∨ p = 1 ∧ q = 0 ↔ p + q = 1 := by omega
  change flip first row.divNat col.divNat * flip second row.modNat col.modNat = _
  simp only [flip, Fin.coe_divNat, Fin.coe_modNat, digits]
  rw [ite_zero_mul_ite_zero, mul_one]

theorem lowestMixture_eq_ok_iff {alpha beta : Amplitude ℝ} {u : Operator ℝ} :
    lowestMixture first second alpha beta = .ok u ↔
      checkDim (first * second) = .ok () ∧ ∃ flipFirst flipSecond,
        lowestFlip first = .ok flipFirst ∧ lowestFlip second = .ok flipSecond ∧
        identity (first * second) + ((lowest first).kronecker (lowest second)).scale beta +
          (flipFirst.kronecker flipSecond).scale alpha = u := by
  simp only [lowestMixture, identityOn, bind_assoc, Outcome.check_bind_eq_ok_iff]
  simp [Outcome.bind_eq_ok_iff]

section Mixture

variable {alpha beta : Amplitude ℝ} {u : Operator ℝ}
  (made : lowestMixture first second alpha beta = .ok u)

include made

theorem toMatrix_lowestMixture : u.dim = first * second ∧ u.toMatrix (first * second) =
    1 + beta.value • (flips first second * flips first second) +
      alpha.value • flips first second := by
  obtain ⟨_, flipFirst, flipSecond, firstMade, secondMade, rfl⟩ := lowestMixture_eq_ok_iff.mp made
  obtain ⟨firstLevels, firstDim, firstMatrix⟩ := toMatrix_lowestFlip firstMade
  obtain ⟨secondLevels, secondDim, secondMatrix⟩ := toMatrix_lowestFlip secondMade
  refine ⟨rfl, ?_⟩
  have projectedDim : ((lowest first).kronecker (lowest second) : Operator ℝ).dim =
      first * second := rfl
  have flipped : (flipFirst.kronecker flipSecond).toMatrix (first * second) =
      flips first second := by
    rw [toMatrix_kronecker_pair firstDim secondDim, firstMatrix, secondMatrix, flips]
  rw [toMatrix_add ((dim_add _ _).trans (dim_identity _)), toMatrix_add (dim_identity _),
    toMatrix_identity, toMatrix_scale projectedDim, toMatrix_lowest_pair firstLevels secondLevels,
    toMatrix_scale (by rw [dim_kronecker, firstDim, secondDim]), flipped]

theorem value_entry_lowestMixture {row col : Nat} (rowBound : row < first * second)
    (colBound : col < first * second) :
    (u.entry row col).value = (if row = col then 1 else 0) +
      (if row = col ∧ row / second < 2 ∧ row % second < 2 then beta.value else 0) +
      if row / second + col / second = 1 ∧ row % second + col % second = 1 then alpha.value
        else 0 := by
  obtain ⟨_, _, _, firstMade, secondMade, _⟩ := lowestMixture_eq_ok_iff.mp made
  have matrix := congrFun₂ (toMatrix_lowestMixture made).2 ⟨row, rowBound⟩ ⟨col, colBound⟩
  rw [← toMatrix_lowest_pair (toMatrix_lowestFlip firstMade).1 (toMatrix_lowestFlip secondMade).1]
    at matrix
  rw [Matrix.add_apply, Matrix.add_apply, Matrix.smul_apply, Matrix.smul_apply, Matrix.one_apply,
    lowest_pair_apply, flips_apply, smul_eq_mul, smul_eq_mul, mul_ite, mul_ite, mul_one, mul_one,
    mul_zero, mul_zero] at matrix
  simpa only [toMatrix_apply, Fin.mk.injEq] using matrix

theorem lowestOnly_lowestMixture : LowestOnly first second u where
  dim := (toMatrix_lowestMixture made).1
  fixed := by
    intro i iBound j jBound upper row rowBound
    have colBound : i * second + j < first * second :=
      product_pair first second ▸ pair_state_lt iBound jBound
    apply Amplitude.value_injective
    rw [value_entry_lowestMixture made rowBound colBound, cell_div i jBound, cell_mod i jBound]
    -- The state is outside of the projection, and no flip leads to it.
    have projected : ¬ (row = i * second + j ∧ row / second < 2 ∧ row % second < 2) := by
      rintro ⟨rfl, low⟩
      rw [cell_div i jBound, cell_mod i jBound] at low
      omega
    have flipped : ∀ p q : Nat, ¬ (p + i = 1 ∧ q + j = 1) := by omega
    rw [if_neg projected, if_neg (flipped _ _), add_zero, add_zero]
    split <;> rfl
  sparse := by
    intro row rowBound col colBound apart elsewhere
    apply Amplitude.value_injective
    have projected : ¬ (row = col ∧ row / second < 2 ∧ row % second < 2) :=
      fun both => apart both.1
    have flipped : ¬ (row / second + col / second = 1 ∧ row % second + col % second = 1) := by
      rintro ⟨upper, lower⟩
      have opposite : ∀ p q : Nat, p + q = 1 → p < 2 ∧ 1 - p = q := by omega
      refine elsewhere _ (opposite _ _ upper).1 _ (opposite _ _ lower).1
        ⟨(Nat.div_add_mod' row second).symm, ?_⟩
      rw [(opposite _ _ upper).2, (opposite _ _ lower).2, Nat.div_add_mod']
    rw [value_entry_lowestMixture made rowBound colBound, if_neg apart, if_neg projected,
      if_neg flipped, add_zero, add_zero]
    rfl

end Mixture

theorem lowestMixture_refused (alpha beta : Amplitude ℝ)
    (large : checkDim (first * second) = .error .outOfRange) :
    lowestMixture first second alpha beta = .error .outOfRange := by
  rw [lowestMixture, identityOn, large]
  rfl

end Operator

namespace Gate

section Series

variable [Exponential ℝ] {first second : Nat}

/-- Whatever terms and squarings make up the exponential, the flip of the lowest levels is its own
cube, so that only its first two powers are left. -/
theorem ms_operator_mixture (series : Exponential.IsSeries (R := ℝ)) (firstLevels : 2 ≤ first)
    (secondLevels : 2 ≤ second) (theta : ℝ) :
    ∃ alpha beta, (ms theta).operator [first, second] =
      Operator.lowestMixture first second alpha beta := by
  rcases Operator.checkDim_cases (first * second) with room | large
  · obtain ⟨flipFirst, flipSecond, firstMade, secondMade, dim, built⟩ :=
      ms_operator_eq (R := ℝ) room firstLevels secondLevels
    let generator := (flipFirst.kronecker flipSecond).scale ⟨0, Scalar.half (-theta)⟩
    obtain ⟨_, firstDim, firstMatrix⟩ := Operator.toMatrix_lowestFlip firstMade
    obtain ⟨_, secondDim, secondMatrix⟩ := Operator.toMatrix_lowestFlip secondMade
    have multiple : generator.toMatrix (first * second) =
        (⟨0, Scalar.half (-theta)⟩ : Amplitude ℝ).value • Operator.flips first second := by
      rw [Operator.toMatrix_scale dim, Operator.toMatrix_kronecker_pair firstDim secondDim,
        firstMatrix, secondMatrix, Operator.flips]
    obtain ⟨terms, halvings, exponent⟩ := series generator
    have near := Operator.seriesExp_near_one (u := generator) (Operator.flips_cube first second)
      terms halvings dim multiple
    rw [← exponent] at near
    obtain ⟨b, a, mixture⟩ := mem_mixtures.mp near
    have mixed : Operator.lowestMixture first second ⟨a.re, a.im⟩ ⟨b.re, b.im⟩ = .ok _ :=
      Operator.lowestMixture_eq_ok_iff.mpr
        ⟨room, flipFirst, flipSecond, firstMade, secondMade, rfl⟩
    obtain ⟨mixedDim, mixedMatrix⟩ := Operator.toMatrix_lowestMixture mixed
    refine ⟨⟨a.re, a.im⟩, ⟨b.re, b.im⟩, ?_⟩
    rw [built theta, mixed]
    refine congrArg Except.ok (Operator.eq_of_toMatrix
      ((Exponential.dim_exp generator).trans dim) mixedDim ?_)
    rw [mixedMatrix, add_assoc]
    exact sub_eq_iff_eq_add'.mp mixture.symm
  · refine ⟨0, 0, ?_⟩
    rw [ms_operator_refused (by simp [large]), Operator.lowestMixture_refused _ _ large]

/-- An interaction touches only the lowest two levels of both qudits, wherever the series of its
exponential stops and however often the sum is squared. -/
theorem ms_lowest_levels (series : Exponential.IsSeries (R := ℝ)) (firstLevels : 2 ≤ first)
    (secondLevels : 2 ≤ second) (theta : ℝ) :
    (∃ alpha beta, (ms theta).operator [first, second] =
      Operator.lowestMixture first second alpha beta) ∧
    (Operator.checkDim (first * second) = .ok () →
      ∃ u, (ms theta).operator [first, second] = .ok u ∧ Operator.LowestOnly first second u) := by
  obtain ⟨alpha, beta, mixture⟩ := ms_operator_mixture series firstLevels secondLevels theta
  refine ⟨⟨alpha, beta, mixture⟩, fun room => ?_⟩
  obtain ⟨flipFirst, flipSecond, firstMade, secondMade, _⟩ :=
    ms_operator_eq (R := ℝ) room firstLevels secondLevels
  have made : Operator.lowestMixture first second alpha beta = .ok _ :=
    Operator.lowestMixture_eq_ok_iff.mpr ⟨room, flipFirst, flipSecond, firstMade, secondMade, rfl⟩
  exact ⟨_, mixture.trans made, Operator.lowestOnly_lowestMixture made⟩

end Series

/-- The computed exponential keeps the highest state of a qutrit and a ququart, and does not mix the
lowest two. -/
theorem ms_lowest_levels_uneven :
    let _ : Exponential ℝ := .taylor
    (Exponential.IsSeries (R := ℝ) ∧ 2 ≤ 3 ∧ 2 ≤ 4 ∧ Operator.checkDim (3 * 4) = .ok ()) ∧
    ∃ u, (ms (1 : ℝ)).operator [3, 4] = .ok u ∧
      (∀ row < 12, u.entry row 11 = if row = 11 then 1 else 0) ∧ u.entry 0 1 = 0 := by
  intro _
  have series : Exponential.IsSeries (R := ℝ) := Exponential.isSeries_taylor
  have threeLevels : 2 ≤ 3 := by decide
  have fourLevels : 2 ≤ 4 := by decide
  obtain ⟨u, built, lowest⟩ :=
    (ms_lowest_levels series threeLevels fourLevels 1).2 rfl
  refine ⟨⟨series, threeLevels, fourLevels, rfl⟩, u, built, ?_, ?_⟩
  · exact lowest.fixed 2 (by decide) 3 (by decide) (by decide)
  · exact lowest.sparse 0 (by decide) 1 (by decide) (by decide) (by decide)

end Gate
end QuditSynth
