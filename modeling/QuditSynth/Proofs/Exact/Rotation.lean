import Mathlib.Analysis.SpecialFunctions.Trigonometric.Basic
import Mathlib.LinearAlgebra.Matrix.Notation
import QuditSynth.Gate.Action
import QuditSynth.Proofs.Exact.Matrix

namespace QuditSynth

/-! # Exact rotations of two states

A block on two states is a two-by-two matrix placed into a plane of a larger
space, and products of blocks on one plane are products of two-by-two matrices.
Rotations about one axis add their angles; a half turn about an axis a quarter
further reverses them.
-/

open Matrix

/-- A two-by-two matrix on two states, the identity on all others. -/
def plane {size : Nat} (a b : Fin size) (block : Matrix (Fin 2) (Fin 2) ℂ) :
    Matrix (Fin size) (Fin size) ℂ :=
  fun row col =>
    if row = b ∧ col = a then block 1 0
    else if row = a ∧ col = b then block 0 1
    else if row = b ∧ col = b then block 1 1
    else if row = a ∧ col = a then block 0 0
    else if row = col then 1 else 0

section Plane

variable {size : Nat} {a b : Fin size}

/-- A block on a plane mixes two components of a vector. -/
theorem plane_mulVec (distinct : a ≠ b) (block : Matrix (Fin 2) (Fin 2) ℂ) (vector : Fin size → ℂ)
    (row : Fin size) :
    (plane a b block *ᵥ vector) row =
      if row = a then block 0 0 * vector a + block 0 1 * vector b
      else if row = b then block 1 0 * vector a + block 1 1 * vector b
      else vector row := by
  have apart := distinct.symm
  simp only [mulVec, dotProduct]
  by_cases atA : row = a
  · rw [if_pos atA, Finset.sum_eq_add a b distinct]
    · simp [plane, atA, distinct]
    · intro col _ ⟨notA, notB⟩
      simp [plane, atA, notA, notB, distinct, Ne.symm notA]
    · simp
    · simp
  · rw [if_neg atA]
    by_cases atB : row = b
    · rw [if_pos atB, Finset.sum_eq_add a b distinct]
      · simp [plane, atB, apart]
      · intro col _ ⟨notA, notB⟩
        simp [plane, atB, notA, notB, apart, Ne.symm notB]
      · simp
      · simp
    · rw [if_neg atB, Finset.sum_eq_single row]
      · simp [plane, atA, atB]
      · intro col _ elsewhere
        simp [plane, atA, atB, Ne.symm elsewhere]
      · simp

theorem plane_mul (distinct : a ≠ b) (left right : Matrix (Fin 2) (Fin 2) ℂ) :
    plane a b left * plane a b right = plane a b (left * right) := by
  rw [ext_iff_mulVec]
  intro vector
  funext row
  simp only [← mulVec_mulVec, plane_mulVec distinct, mul_apply, Fin.sum_univ_two, if_neg distinct.symm,
    ↓reduceIte]
  split
  · ring
  · split
    · ring
    · rfl

theorem plane_one (distinct : a ≠ b) : plane a b 1 = 1 := by
  rw [ext_iff_mulVec]
  intro vector
  funext row
  rw [plane_mulVec distinct, one_mulVec]
  split
  · next atA => simp [atA]
  · split
    · next atB => simp [atB]
    · rfl

end Plane

/-- The rotation by `theta` about the axis at phase `phi`, as a matrix. -/
noncomputable def turn (theta phi : ℝ) : Matrix (Fin 2) (Fin 2) ℂ :=
  let half : ℂ := (Scalar.half theta : ℝ)
  !![Complex.cos half, -Complex.I * Complex.sin half * Complex.exp (-phi * Complex.I);
    -Complex.I * Complex.sin half * Complex.exp (phi * Complex.I), Complex.cos half]

/-- Opposite half phases on two states, as a matrix. -/
noncomputable def shift (theta : ℝ) : Matrix (Fin 2) (Fin 2) ℂ :=
  let half : ℂ := (Scalar.half theta : ℝ)
  !![Complex.exp (-half * Complex.I), 0; 0, Complex.exp (half * Complex.I)]

section Turn

variable (theta phi : ℝ)

theorem turn_eq : turn theta phi =
    !![Complex.cos (theta / 2),
      -Complex.I * Complex.sin (theta / 2) * Complex.exp (-phi * Complex.I);
      -Complex.I * Complex.sin (theta / 2) * Complex.exp (phi * Complex.I),
      Complex.cos (theta / 2)] := by
  simp only [turn, Scalar.half_exact, Complex.ofReal_div, Complex.ofReal_ofNat]

theorem shift_eq : shift theta =
    !![Complex.exp (-theta / 2 * Complex.I), 0; 0, Complex.exp (theta / 2 * Complex.I)] := by
  simp only [shift, Scalar.half_exact, Complex.ofReal_div, Complex.ofReal_ofNat, neg_div]

/-- The phases of the two entries off the diagonal cancel. -/
theorem exp_neg_mul_exp : Complex.exp (-phi * Complex.I) * Complex.exp (phi * Complex.I) = 1 := by
  rw [← Complex.exp_add]
  simp

theorem two_by_two {aa ab ba bb aa' ab' ba' bb' : ℂ} (first : aa = aa') (second : ab = ab')
    (third : ba = ba') (fourth : bb = bb') : !![aa, ab; ba, bb] = !![aa', ab'; ba', bb'] := by
  rw [first, second, third, fourth]

theorem turn_zero : turn 0 phi = 1 := by
  rw [turn_eq, one_fin_two]
  apply two_by_two <;> simp

theorem turn_add (alpha beta : ℝ) : turn alpha phi * turn beta phi = turn (alpha + beta) phi := by
  have cancel := exp_neg_mul_exp phi
  have square := Complex.I_mul_I
  have half : ((alpha + beta : ℝ) : ℂ) / 2 = alpha / 2 + beta / 2 := by
    push_cast
    ring
  rw [turn_eq, turn_eq, turn_eq, mul_fin_two, half, Complex.cos_add, Complex.sin_add]
  refine two_by_two ?_ (by ring) (by ring) ?_
  · linear_combination
      Complex.sin (alpha / 2) * Complex.sin (beta / 2) * (Complex.I ^ 2 * cancel + square)
  · linear_combination
      Complex.sin (alpha / 2) * Complex.sin (beta / 2) * (Complex.I ^ 2 * cancel + square)

/-- The rotation about the axis a quarter behind. -/
theorem turn_behind : turn theta (phi - Real.pi / 2) =
    !![Complex.cos (theta / 2), Complex.sin (theta / 2) * Complex.exp (-phi * Complex.I);
      -(Complex.sin (theta / 2) * Complex.exp (phi * Complex.I)), Complex.cos (theta / 2)] := by
  have square := Complex.I_mul_I
  have lower : -((phi - Real.pi / 2 : ℝ) : ℂ) * Complex.I =
      -phi * Complex.I + Real.pi / 2 * Complex.I := by
    push_cast
    ring
  have upper : ((phi - Real.pi / 2 : ℝ) : ℂ) * Complex.I =
      phi * Complex.I - Real.pi / 2 * Complex.I := by
    push_cast
    ring
  rw [turn_eq, lower, upper, Complex.exp_add, Complex.exp_sub, Complex.exp_pi_div_two_mul_I]
  refine two_by_two rfl ?_ ?_ rfl
  · linear_combination
      -Complex.sin (theta / 2) * Complex.exp (-phi * Complex.I) * square
  · field_simp

/-- The rotation about the axis a quarter ahead. -/
theorem turn_ahead : turn theta (phi + Real.pi / 2) =
    !![Complex.cos (theta / 2), -(Complex.sin (theta / 2) * Complex.exp (-phi * Complex.I));
      Complex.sin (theta / 2) * Complex.exp (phi * Complex.I), Complex.cos (theta / 2)] := by
  have square := Complex.I_mul_I
  have lower : -((phi + Real.pi / 2 : ℝ) : ℂ) * Complex.I =
      -phi * Complex.I - Real.pi / 2 * Complex.I := by
    push_cast
    ring
  have upper : ((phi + Real.pi / 2 : ℝ) : ℂ) * Complex.I =
      phi * Complex.I + Real.pi / 2 * Complex.I := by
    push_cast
    ring
  rw [turn_eq, lower, upper, Complex.exp_add, Complex.exp_sub, Complex.exp_pi_div_two_mul_I]
  refine two_by_two rfl ?_ ?_ rfl
  · field_simp
  · linear_combination
      -Complex.sin (theta / 2) * Complex.exp (phi * Complex.I) * square

/-- A half turn about the axis a quarter ahead, and one about the axis a quarter behind, reverse
the rotation between them. -/
theorem turn_conj : turn Real.pi (phi - Real.pi / 2) * turn theta phi *
    turn Real.pi (phi + Real.pi / 2) = turn (-theta) phi := by
  have cancel := exp_neg_mul_exp phi
  have negative : ((-theta : ℝ) : ℂ) / 2 = -(theta / 2) := by
    push_cast
    ring
  rw [turn_behind, turn_ahead, turn_eq, turn_eq, mul_fin_two, mul_fin_two, negative, Complex.cos_neg,
    Complex.sin_neg, Complex.cos_pi_div_two, Complex.sin_pi_div_two]
  refine two_by_two ?_ ?_ ?_ ?_
  · linear_combination Complex.cos (theta / 2) * cancel
  · linear_combination
      Complex.I * Complex.sin (theta / 2) * Complex.exp (-phi * Complex.I) * cancel
  · linear_combination
      Complex.I * Complex.sin (theta / 2) * Complex.exp (phi * Complex.I) * cancel
  · linear_combination Complex.cos (theta / 2) * cancel

theorem turn_first_axis : turn theta 0 =
    !![Complex.cos (theta / 2), -Complex.I * Complex.sin (theta / 2);
      -Complex.I * Complex.sin (theta / 2), Complex.cos (theta / 2)] := by
  simp [turn_eq]

theorem turn_second_axis : turn theta (Real.pi / 2) =
    !![Complex.cos (theta / 2), -Complex.sin (theta / 2);
      Complex.sin (theta / 2), Complex.cos (theta / 2)] := by
  have ahead := turn_ahead theta 0
  rw [zero_add] at ahead
  simp [ahead]

/-- Quarter turns take a rotation about the second axis to opposite phases. -/
theorem turn_quarter : turn (Real.pi / 2) 0 * turn theta (Real.pi / 2) * turn (-(Real.pi / 2)) 0 =
    shift theta := by
  have square := Complex.I_mul_I
  have eighth : ((Real.pi / 2 : ℝ) : ℂ) / 2 = (Real.pi / 4 : ℝ) := by
    push_cast
    ring
  have negative : ((-(Real.pi / 2) : ℝ) : ℂ) / 2 = -(Real.pi / 4 : ℝ) := by
    push_cast
    ring
  have half : ((√2 / 2 : ℝ) : ℂ) * ((√2 / 2 : ℝ) : ℂ) = 1 / 2 := by
    rw [← Complex.ofReal_mul, div_mul_div_comm, Real.mul_self_sqrt zero_le_two]
    norm_num
  have lower : (-theta / 2 : ℂ) * Complex.I = -(theta / 2) * Complex.I := by ring
  rw [turn_second_axis, turn_first_axis, turn_first_axis, shift_eq, eighth, negative, mul_fin_two,
    mul_fin_two, lower, Complex.exp_mul_I, Complex.exp_mul_I, Complex.cos_neg, Complex.sin_neg,
    Complex.cos_neg, Complex.sin_neg, ← Complex.ofReal_cos, ← Complex.ofReal_sin,
    Real.cos_pi_div_four, Real.sin_pi_div_four]
  set c := Complex.cos (theta / 2)
  set s := Complex.sin (theta / 2)
  refine two_by_two ?_ ?_ ?_ ?_
  · linear_combination (c * (1 - Complex.I ^ 2) - 2 * Complex.I * s) * half - c / 2 * square
  · linear_combination -((√2 / 2 : ℝ) : ℂ) ^ 2 * s * square
  · linear_combination ((√2 / 2 : ℝ) : ℂ) ^ 2 * s * square
  · linear_combination (c * (1 - Complex.I ^ 2) + 2 * Complex.I * s) * half - c / 2 * square

/-- An exchange of the last two of three states around a rotation of the first and the last is a
rotation of the first two. -/
theorem plane_exchange {size : Nat} {p q r : Fin size} (pq : p ≠ q) (pr : p ≠ r) (qr : q ≠ r) :
    plane q r (turn Real.pi Real.pi) * plane p r (turn theta (phi - Real.pi / 2)) *
      plane q r (turn Real.pi 0) = plane p q (turn theta phi) := by
  have square := Complex.I_mul_I
  have first : turn Real.pi 0 = !![0, -Complex.I; -Complex.I, 0] := by simp [turn_eq]
  have last : turn Real.pi Real.pi = !![0, Complex.I; Complex.I, 0] := by
    simp [turn_eq, Complex.exp_neg, Complex.exp_pi_mul_I]
  rw [ext_iff_mulVec, first, last, turn_behind, turn_eq]
  intro vector
  funext row
  simp only [← mulVec_mulVec, plane_mulVec qr, plane_mulVec pr, plane_mulVec pq, of_apply, cons_val',
    cons_val_zero, cons_val_one, cons_val_fin_one, if_neg pq, if_neg pr, if_neg qr, if_neg pq.symm,
    if_neg pr.symm, if_neg qr.symm, ↓reduceIte]
  by_cases atP : row = p
  · simp only [atP, if_neg pq, if_neg pr, ↓reduceIte]
    ring
  · by_cases atQ : row = q
    · simp only [atQ, if_neg pq.symm, ↓reduceIte]
      linear_combination -Complex.cos (theta / 2) * vector q * square
    · by_cases atR : row = r
      · simp only [atR, if_neg pr.symm, if_neg qr.symm, ↓reduceIte]
        linear_combination -vector r * square
      · simp only [if_neg atP, if_neg atQ, if_neg atR]

end Turn

namespace Operator

/-- The two-by-two matrix of a block. -/
def Block.matrix (block : Block ℝ) : Matrix (Fin 2) (Fin 2) ℂ :=
  !![block.aa.value, block.ab.value; block.ba.value, block.bb.value]

theorem toMatrix_ofBlock {dim size a b : Nat} (total : dim = size) (aBound : a < size)
    (bBound : b < size) (block : Block ℝ) :
    (ofBlock dim a b block).toMatrix size = plane ⟨a, aBound⟩ ⟨b, bBound⟩ block.matrix := by
  subst total
  rw [ofBlock, toMatrix_ofFn]
  ext row col
  simp only [plane, Fin.ext_iff, Block.matrix]
  repeat' split
  all_goals rfl

theorem rotationBlock_matrix (theta phi : ℝ) :
    (rotationBlock theta phi).matrix = turn theta phi := by
  have minus : (minusI : Amplitude ℝ).value = -Complex.I := by
    apply Complex.ext <;> simp [minusI, Amplitude.value]
  simp only [Block.matrix, rotationBlock, turn_eq, Amplitude.value_mul, Amplitude.value_ofReal,
    Amplitude.value_polar, minus, Scalar.half_exact, Scalar.sin_exact, Scalar.cos_exact]
  push_cast
  refine two_by_two rfl ?_ ?_ rfl <;> ring

theorem rotationBlock_wrap_phase (theta phi : ℝ) :
    rotationBlock theta (Angle.wrap phi Angle.phasePeriod) = rotationBlock theta phi := by
  simp only [rotationBlock, Amplitude.polar, Scalar.sin_exact, Scalar.cos_exact, Real.cos_neg,
    Real.sin_neg, Angle.cos_wrap, Angle.sin_wrap]

theorem rotationBlock_wrap (theta phi : ℝ) :
    rotationBlock (Angle.wrap theta Angle.rotationPeriod) (Angle.wrap phi Angle.phasePeriod) =
      rotationBlock theta phi := by
  rw [rotationBlock_wrap_phase]
  simp only [rotationBlock, Scalar.half_exact, Scalar.sin_exact, Scalar.cos_exact,
    Angle.cos_half_wrap, Angle.sin_half_wrap]

end Operator

section Whole

variable (turns : ℤ)

theorem cos_half_turns : Real.cos (turns * (4 * Real.pi) / 2) = 1 := by
  rw [show (turns * (4 * Real.pi) / 2 : ℝ) = turns * (2 * Real.pi) by ring,
    Real.cos_int_mul_two_pi]

theorem sin_half_turns : Real.sin (turns * (4 * Real.pi) / 2) = 0 := by
  rw [show (turns * (4 * Real.pi) / 2 : ℝ) = 0 + turns * (2 * Real.pi) by ring,
    Real.sin_add_int_mul_two_pi, Real.sin_zero]

theorem turn_whole (phi : ℝ) : turn (turns * (4 * Real.pi)) phi = 1 := by
  rw [← Operator.rotationBlock_matrix, ← turn_zero phi, ← Operator.rotationBlock_matrix]
  simp [Operator.rotationBlock, cos_half_turns, sin_half_turns]

theorem shift_whole : shift (turns * (4 * Real.pi)) = 1 := by
  have upper : ((turns * (4 * Real.pi) : ℝ) : ℂ) / 2 * Complex.I =
      turns * (2 * Real.pi * Complex.I) := by
    push_cast
    ring
  have lower : -((turns * (4 * Real.pi) : ℝ) : ℂ) / 2 * Complex.I =
      (-turns : ℤ) * (2 * Real.pi * Complex.I) := by
    push_cast
    ring
  rw [shift_eq, upper, lower, Complex.exp_int_mul_two_pi_mul_I, Complex.exp_int_mul_two_pi_mul_I,
    one_fin_two]

end Whole
end QuditSynth
