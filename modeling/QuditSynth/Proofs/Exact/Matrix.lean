import Mathlib.Data.Matrix.Mul
import QuditSynth.Proofs.Exact.Scalar
import QuditSynth.Proofs.Operator.Embedding

namespace QuditSynth

/-! # Exact operators as complex matrices

Over exact scalars an amplitude is a complex number and an operator is a matrix.
The dimension of the matrix is given from outside, so that operators with
provably equal dimensions need no casts.
-/

namespace Amplitude

/-- The complex number of an exact amplitude. -/
def value (amplitude : Amplitude ℝ) : ℂ := ⟨amplitude.re, amplitude.im⟩

theorem value_injective : Function.Injective value := by
  rintro ⟨re, im⟩ ⟨re', im'⟩ equal
  obtain ⟨real, imaginary⟩ := Complex.ext_iff.mp equal
  exact congrArg₂ Amplitude.mk real imaginary

@[simp]
theorem value_zero : value 0 = 0 := rfl

@[simp]
theorem value_one : value 1 = 1 := rfl

@[simp]
theorem value_add (a b : Amplitude ℝ) : (a + b).value = a.value + b.value := rfl

@[simp]
theorem value_mul (a b : Amplitude ℝ) : (a * b).value = a.value * b.value := rfl

@[simp]
theorem value_ofReal (x : ℝ) : (ofReal x).value = x := rfl

@[simp]
theorem value_scale (a : Amplitude ℝ) (factor : ℝ) : (a.scale factor).value = a.value * factor := by
  apply Complex.ext <;> simp [scale, value]

theorem value_polar (length angle : ℝ) :
    (polar length angle).value = length * Complex.exp (angle * Complex.I) := by
  apply Complex.ext <;>
    simp [polar, value, Complex.exp_ofReal_mul_I_re, Complex.exp_ofReal_mul_I_im]

theorem dotFrom_value (left right : Nat → Amplitude ℝ) (count index : Nat) (re im : ℝ) :
    (dotFrom left right count index re im).value =
      ⟨re, im⟩ + ∑ i ∈ Finset.range count, (left (index + i)).value * (right (index + i)).value := by
  induction count generalizing index re im with
  | zero => simp [dotFrom, value]
  | succ count ih =>
      rw [dotFrom, ih, Finset.sum_range_succ', Nat.add_zero, add_comm (Finset.sum _ _), ← add_assoc]
      congr 1
      · apply Complex.ext <;> simp [value] <;> ring
      · refine Finset.sum_congr rfl fun i _ => ?_
        rw [Nat.add_right_comm, Nat.add_assoc]

theorem dot_value (count : Nat) (left right : Nat → Amplitude ℝ) :
    (dot count left right).value =
      ∑ i : Fin count, (left i).value * (right i).value := by
  rw [dot, dotFrom_value, Finset.sum_range]
  have zero : (⟨0, 0⟩ : ℂ) = 0 := rfl
  simp [zero]

end Amplitude

namespace Operator

variable {size : Nat} {u v : Operator ℝ}

theorem honestZero_exact : HonestZero ℝ :=
  honestZero_of_scalars (fun x => zero_add x) fun _ => Scalar.beq_exact.mp

/-- The matrix of an exact operator, cut or padded with zeros to a size. -/
noncomputable def toMatrix (size : Nat) (u : Operator ℝ) : Matrix (Fin size) (Fin size) ℂ :=
  fun row col => (u.entry row col).value

theorem toMatrix_apply (u : Operator ℝ) (row col : Fin size) :
    u.toMatrix size row col = (u.entry row col).value := rfl

theorem eq_of_toMatrix (uDim : u.dim = size) (vDim : v.dim = size)
    (equal : u.toMatrix size = v.toMatrix size) : u = v := by
  apply eq_of_entries (uDim.trans vDim.symm)
  intro row rowBound col colBound
  rw [uDim] at rowBound colBound
  exact Amplitude.value_injective (congrFun₂ equal ⟨row, rowBound⟩ ⟨col, colBound⟩)

theorem toMatrix_ofFn (f : Nat → Nat → Amplitude ℝ) :
    (ofFn size f).toMatrix size = fun row col : Fin size => (f row col).value := by
  ext row col
  rw [toMatrix_apply, entry_ofFn f row.isLt col.isLt]

@[simp]
theorem toMatrix_identity : (identity size : Operator ℝ).toMatrix size = 1 := by
  rw [identity, toMatrix_ofFn]
  ext row col
  rw [Matrix.one_apply]
  by_cases diagonal : row = col
  · simp [diagonal]
  · simp [diagonal, Fin.val_inj]

theorem toMatrix_mul (uDim : u.dim = size) :
    (u * v).toMatrix size = u.toMatrix size * v.toMatrix size := by
  subst uDim
  change (mulScaled 1 u v).toMatrix u.dim = _
  rw [mulScaled, toMatrix_ofFn]
  ext row col
  rw [Amplitude.value_mul, Amplitude.value_one, one_mul, Amplitude.dot_value, Matrix.mul_apply]
  rfl

theorem identity_mul (dim : u.dim = size) : identity size * u = u := by
  have productDim : (identity size * u).dim = size := rfl
  refine eq_of_toMatrix productDim dim ?_
  rw [toMatrix_mul (dim_identity size), toMatrix_identity, Matrix.one_mul]

end Operator
end QuditSynth
