import Mathlib.LinearAlgebra.Span.Basic
import Mathlib.Tactic.Module
import QuditSynth.Proofs.Exact.Exponential

namespace QuditSynth

/-! # Truncated exponentials

The computed exponential halves its argument, sums terms of the series until they
vanish and squares the sum. Whatever the numbers of terms and of squarings, the
exponential of a multiple of a matrix that is its own cube is the identity plus a
mixture of that matrix and its square.
-/

namespace Operator

variable {R : Type} [Scalar R]

/-- The exponential by some halvings and at most some terms of the series. -/
def seriesExp (terms halvings : Nat) (u : Operator R) : Operator R :=
  let small := u.map (·.divide (Scalar.pow Scalar.two halvings))
  let one := identity u.dim
  squareTimes halvings (taylorSum small terms 1 one one)

end Operator

/-- The exponential is a truncated series, with numbers of terms and squarings of its own choice. -/
def Exponential.IsSeries {R : Type} [Scalar R] [Exponential R] : Prop :=
  ∀ u : Operator R, ∃ terms halvings, exp u = u.seriesExp terms halvings

theorem Exponential.isSeries_taylor {R : Type} [Scalar R] : @IsSeries R _ .taylor :=
  fun u => ⟨Operator.taylorTerms, u.squarings, rfl⟩

section Mixtures

variable {size : Nat} {m x y : Matrix (Fin size) (Fin size) ℂ}

/-- The mixtures of a matrix and its square. -/
def mixtures (m : Matrix (Fin size) (Fin size) ℂ) :
    Submodule ℂ (Matrix (Fin size) (Fin size) ℂ) :=
  Submodule.span ℂ {m * m, m}

theorem mem_mixtures : x ∈ mixtures m ↔ ∃ beta alpha : ℂ, beta • (m * m) + alpha • m = x :=
  Submodule.mem_span_pair

theorem smul_mem_mixtures (factor : ℂ) : factor • m ∈ mixtures m :=
  mem_mixtures.mpr ⟨0, factor, by rw [zero_smul, zero_add]⟩

theorem mul_mem_mixtures (cube : m * m * m = m) (xMixture : x ∈ mixtures m)
    (yMixture : y ∈ mixtures m) : x * y ∈ mixtures m := by
  obtain ⟨b, a, rfl⟩ := mem_mixtures.mp xMixture
  obtain ⟨d, c, rfl⟩ := mem_mixtures.mp yMixture
  have fourth : m * m * (m * m) = m * m := by rw [← Matrix.mul_assoc, cube]
  have cube' : m * (m * m) = m := by rw [← Matrix.mul_assoc, cube]
  refine mem_mixtures.mpr ⟨b * d + a * c, b * c + a * d, ?_⟩
  simp only [Matrix.add_mul, Matrix.mul_add, Matrix.smul_mul, Matrix.mul_smul, fourth, cube, cube']
  module

theorem square_near_one (cube : m * m * m = m) (near : x - 1 ∈ mixtures m) :
    x * x - 1 ∈ mixtures m := by
  have split : x * x - 1 = (x - 1) * (x - 1) + (2 : ℂ) • (x - 1) := by
    simp only [Matrix.sub_mul, Matrix.mul_sub, Matrix.one_mul, Matrix.mul_one]
    module
  rw [split]
  exact add_mem (mul_mem_mixtures cube near near) (Submodule.smul_mem _ _ near)

end Mixtures

theorem Amplitude.value_divide (a : Amplitude ℝ) (divisor : ℝ) :
    (a.divide divisor).value = (divisor : ℂ)⁻¹ * a.value := by
  rw [← Complex.ofReal_inv]
  apply Complex.ext <;> simp [value, divide, div_eq_inv_mul, -Complex.ofReal_inv]

namespace Operator

variable {size : Nat} {u v : Operator ℝ}

theorem toMatrix_divide (dim : u.dim = size) (divisor : ℝ) :
    (u.map (·.divide divisor)).toMatrix size = (divisor : ℂ)⁻¹ • u.toMatrix size := by
  subst dim
  ext row col
  rw [toMatrix_apply, entry_map _ row.isLt col.isLt, Amplitude.value_divide]
  rfl

@[simp] theorem dim_add (u v : Operator ℝ) : (u + v).dim = u.dim := rfl

theorem toMatrix_add (dim : u.dim = size) :
    (u + v).toMatrix size = u.toMatrix size + v.toMatrix size := by
  subst dim
  change (ofFn u.dim _).toMatrix u.dim = _
  rw [toMatrix_ofFn]
  rfl

variable {m : Matrix (Fin size) (Fin size) ℂ} (cube : m * m * m = m)

include cube

/-- A term times the argument is a mixture, so that the total only ever gains mixtures; where the
series stops does not matter. -/
theorem taylorSum_near_one (uMixture : u.toMatrix size ∈ mixtures m) (remaining order : Nat)
    {term total : Operator ℝ} (termDim : term.dim = size) (totalDim : total.dim = size)
    (termMixture : term.toMatrix size * u.toMatrix size ∈ mixtures m)
    (near : total.toMatrix size - 1 ∈ mixtures m) :
    (taylorSum u remaining order term total).toMatrix size - 1 ∈ mixtures m := by
  induction remaining generalizing order term total with
  | zero => exact near
  | succ remaining ih =>
      let next := (term * u).map (·.divide (Scalar.ofNat order))
      have nextMixture : next.toMatrix size ∈ mixtures m := by
        rw [toMatrix_divide (u := term * u) termDim, toMatrix_mul termDim]
        exact Submodule.smul_mem _ _ termMixture
      have gained : (total + next).toMatrix size - 1 ∈ mixtures m := by
        rw [toMatrix_add totalDim, add_sub_right_comm]
        exact add_mem near nextMixture
      rw [taylorSum]
      split
      · exact gained
      · exact ih (order + 1) termDim totalDim (mul_mem_mixtures cube nextMixture uMixture) gained

theorem squareTimes_near_one (count : Nat) (dim : u.dim = size)
    (near : u.toMatrix size - 1 ∈ mixtures m) :
    (squareTimes count u).toMatrix size - 1 ∈ mixtures m := by
  induction count generalizing u with
  | zero => exact near
  | succ count ih =>
      refine ih dim ?_
      rw [toMatrix_mul dim]
      exact square_near_one cube near

theorem seriesExp_near_one (terms halvings : Nat) (dim : u.dim = size) {factor : ℂ}
    (multiple : u.toMatrix size = factor • m) :
    (u.seriesExp terms halvings).toMatrix size - 1 ∈ mixtures m := by
  have small : (u.map (·.divide (Scalar.pow Scalar.two halvings))).toMatrix size ∈ mixtures m := by
    rw [toMatrix_divide dim, multiple, smul_smul]
    exact smul_mem_mixtures _
  have one : (identity u.dim : Operator ℝ).toMatrix size = 1 := by rw [dim, toMatrix_identity]
  refine squareTimes_near_one cube halvings ((taylorSum_dim _ _ _ _ _).trans dim) ?_
  refine taylorSum_near_one cube small terms 1 dim dim ?_ ?_
  · rwa [one, Matrix.one_mul]
  · rw [one, sub_self]
    exact zero_mem _

end Operator
end QuditSynth
