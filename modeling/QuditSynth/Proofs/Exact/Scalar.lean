import Mathlib.Analysis.SpecialFunctions.Complex.Arg
import Mathlib.Analysis.SpecialFunctions.Log.Base
import QuditSynth.Angle

namespace QuditSynth

/-! # Exact scalars

The real numbers as scalars: every operation is the mathematical one and nothing
is rounded. Angles then reduce modulo their period by a whole number of turns,
which no sine or cosine can see.
-/

/-- The quotient rounded towards zero. -/
noncomputable def truncated (x : ℝ) : ℤ := if 0 ≤ x then ⌊x⌋ else ⌈x⌉

open Classical in
noncomputable instance : Scalar ℝ where
  beq x y := decide (x = y)
  decidableLT := inferInstance
  decidableLE := inferInstance
  ofNat := Nat.cast
  pi := Real.pi
  abs x := |x|
  sqrt := Real.sqrt
  sin := Real.sin
  cos := Real.cos
  atan2 y x := Complex.arg ⟨x, y⟩
  hypot x y := Real.sqrt (x ^ 2 + y ^ 2)
  rem x y := x - y * truncated (x / y)
  round x := if 0 ≤ x then ⌊x + 1 / 2⌋ else ⌈x - 1 / 2⌉
  ceilLog2 x := min ⌈Real.logb 2 x⌉₊ (2 ^ 31 - 1)
  totalLe x y := decide (x ≤ y)

namespace Scalar

@[simp]
theorem pi_exact : (Scalar.pi : ℝ) = Real.pi := rfl

@[simp]
theorem sin_exact (x : ℝ) : Scalar.sin x = Real.sin x := rfl

@[simp]
theorem cos_exact (x : ℝ) : Scalar.cos x = Real.cos x := rfl

@[simp]
theorem mulAdd_exact (x y z : ℝ) : Scalar.mulAdd x y z = x * y + z := rfl

@[simp]
theorem two_exact : (Scalar.two : ℝ) = 2 := one_add_one_eq_two

@[simp]
theorem half_exact (x : ℝ) : Scalar.half x = x / 2 := congrArg (x / ·) two_exact

theorem beq_exact {x y : ℝ} : (x == y) = true ↔ x = y := decide_eq_true_iff

theorem totalLe_exact {x y : ℝ} : totalLe x y = true ↔ x ≤ y := decide_eq_true_iff

theorem isFinite_exact (x : ℝ) : isFinite x = true := beq_exact.mpr (sub_self x)

end Scalar

namespace Angle

@[simp]
theorem rotationPeriod_exact : (rotationPeriod : ℝ) = 4 * Real.pi := by
  change (Scalar.two : ℝ) * (Scalar.two * Real.pi) = 4 * Real.pi
  rw [Scalar.two_exact]
  ring

theorem rotationPeriod_pos : (0 : ℝ) < rotationPeriod := by
  rw [rotationPeriod_exact]
  positivity

@[simp]
theorem phasePeriod_exact : (phasePeriod : ℝ) = 2 * Real.pi := by
  change (Scalar.two : ℝ) * Real.pi = 2 * Real.pi
  rw [Scalar.two_exact]

theorem phasePeriod_pos : (0 : ℝ) < phasePeriod := by
  rw [phasePeriod_exact]
  exact Real.two_pi_pos

/-- The remainder that is never negative leaves out the whole periods below the angle. -/
theorem remainder_exact {x period : ℝ} (positive : 0 < period) :
    remainder x period = x - ⌊x / period⌋ * period := by
  change (if x - period * truncated (x / period) < 0 then
    x - period * truncated (x / period) + |period|
    else x - period * truncated (x / period)) = x - ⌊x / period⌋ * period
  have lower := Int.floor_le (x / period)
  have expand : x / period * period = x := div_mul_cancel₀ x positive.ne'
  by_cases nonneg : 0 ≤ x / period
  · have small : ¬ x - period * (⌊x / period⌋ : ℤ) < 0 := by nlinarith
    rw [truncated, if_pos nonneg, if_neg small, mul_comm]
  · rw [truncated, if_neg nonneg]
    by_cases whole : (⌈x / period⌉ : ℝ) = x / period
    · -- A whole number of periods: ceiling and floor agree.
      have same : ⌊x / period⌋ = ⌈x / period⌉ := by rw [← whole]; simp
      have zero : x - period * (⌈x / period⌉ : ℝ) = 0 := by rw [whole]; linarith
      rw [zero, if_neg (lt_irrefl 0), same]
      linarith
    · have above : x / period < ⌈x / period⌉ := lt_of_le_of_ne (Int.le_ceil _) (Ne.symm whole)
      have negative : x - period * (⌈x / period⌉ : ℝ) < 0 := by nlinarith
      have next : ⌈x / period⌉ = ⌊x / period⌋ + 1 := by
        refine Int.ceil_eq_iff.mpr ⟨?_, ?_⟩
        · have notWhole : (⌊x / period⌋ : ℝ) ≠ x / period := by
            intro equal
            apply whole
            rw [← equal]
            simp
          have below := lt_of_le_of_ne lower notWhole
          push_cast
          linarith
        · push_cast
          exact (Int.lt_floor_add_one _).le
      rw [if_pos negative, abs_of_pos positive, next]
      push_cast
      ring

theorem wrap_exact {x period : ℝ} (positive : 0 < period) :
    wrap x period = x - ⌊x / period⌋ * period := by
  have upper := Int.lt_floor_add_one (x / period)
  have expand : x / period * period = x := div_mul_cancel₀ x positive.ne'
  have below : ¬ period ≤ x - ⌊x / period⌋ * period := by nlinarith
  rw [wrap, remainder_exact positive, if_neg below]

theorem wrap_nonneg {x period : ℝ} (positive : 0 < period) : 0 ≤ wrap x period := by
  have below := Int.floor_le (x / period)
  rw [wrap_exact positive, sub_nonneg]
  rwa [le_div_iff₀ positive] at below

theorem wrap_lt {x period : ℝ} (positive : 0 < period) : wrap x period < period := by
  have above := Int.lt_floor_add_one (x / period)
  rw [div_lt_iff₀ positive] at above
  rw [wrap_exact positive]
  linarith

theorem wrap_eq_self {x period : ℝ} (lower : 0 ≤ x) (upper : x < period) : wrap x period = x := by
  have positive : 0 < period := lower.trans_lt upper
  have whole : ⌊x / period⌋ = 0 :=
    Int.floor_eq_zero_iff.mpr ⟨div_nonneg lower positive.le, (div_lt_one positive).mpr upper⟩
  rw [wrap_exact positive, whole, Int.cast_zero, zero_mul, sub_zero]

theorem wrap_zero {period : ℝ} (positive : 0 < period) : wrap 0 period = 0 :=
  wrap_eq_self (le_refl 0) positive

theorem cos_wrap (x : ℝ) : Real.cos (wrap x phasePeriod) = Real.cos x := by
  rw [phasePeriod_exact, wrap_exact Real.two_pi_pos, Real.cos_sub_int_mul_two_pi]

theorem sin_wrap (x : ℝ) : Real.sin (wrap x phasePeriod) = Real.sin x := by
  rw [phasePeriod_exact, wrap_exact Real.two_pi_pos, Real.sin_sub_int_mul_two_pi]

theorem half_wrap (x : ℝ) :
    ∃ turns : ℤ, wrap x rotationPeriod / 2 = x / 2 - turns * (2 * Real.pi) := by
  refine ⟨⌊x / (4 * Real.pi)⌋, ?_⟩
  rw [rotationPeriod_exact, wrap_exact (by positivity)]
  ring

theorem cos_half_wrap (x : ℝ) : Real.cos (wrap x rotationPeriod / 2) = Real.cos (x / 2) := by
  obtain ⟨turns, reduced⟩ := half_wrap x
  rw [reduced, Real.cos_sub_int_mul_two_pi]

theorem sin_half_wrap (x : ℝ) : Real.sin (wrap x rotationPeriod / 2) = Real.sin (x / 2) := by
  obtain ⟨turns, reduced⟩ := half_wrap x
  rw [reduced, Real.sin_sub_int_mul_two_pi]

end Angle
end QuditSynth
