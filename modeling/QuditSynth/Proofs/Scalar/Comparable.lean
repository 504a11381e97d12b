import QuditSynth.Proofs.Exact.Scalar

namespace QuditSynth.Scalar

/-! # Comparable scalars

What a search needs to know about the order of the values it compares. The laws
hold of exact numbers and of doubles.
-/

/-- Finite scalars are comparable as numbers are. -/
structure Comparable (R : Type) [Scalar R] : Prop where
  beq_self : ∀ x : R, isFinite x = true → (x == x) = true
  le_refl : ∀ x : R, isFinite x = true → x ≤ x
  le_of_lt : ∀ x y : R, isFinite x = true → isFinite y = true → x < y → x ≤ y
  le_of_not_lt : ∀ x y : R, isFinite x = true → isFinite y = true → ¬ x < y → y ≤ x
  le_trans : ∀ x y z : R, isFinite x = true → isFinite y = true → isFinite z = true →
    x ≤ y → y ≤ z → x ≤ z

theorem comparable_exact : Comparable ℝ where
  beq_self _ _ := beq_exact.mpr rfl
  le_refl x _ := le_refl x
  le_of_lt _ _ _ _ := le_of_lt
  le_of_not_lt _ _ _ _ := not_lt.mp
  le_trans _ _ _ _ _ _ := le_trans

/-- The total order sorts finite scalars as comparisons do, and what lies below a scalar lies below
every bound of it. -/
structure Ranked (R : Type) [Scalar R] : Prop extends Comparable R where
  le_bound : ∀ x y bound : R, x ≤ y → y ≤ bound → x ≤ bound
  totalLe_total : ∀ x y : R, totalLe x y = true ∨ totalLe y x = true
  totalLe_trans : ∀ x y z : R, totalLe x y = true → totalLe y z = true → totalLe x z = true
  le_of_totalLe : ∀ x y : R, isFinite x = true → isFinite y = true → totalLe x y = true → x ≤ y

theorem ranked_exact : Ranked ℝ where
  toComparable := comparable_exact
  le_bound _ _ _ := le_trans
  totalLe_total x y := by
    rw [totalLe_exact, totalLe_exact]
    exact le_total x y
  totalLe_trans x y z := by
    simp only [totalLe_exact]
    exact le_trans
  le_of_totalLe _ _ _ _ := totalLe_exact.mp

end QuditSynth.Scalar
