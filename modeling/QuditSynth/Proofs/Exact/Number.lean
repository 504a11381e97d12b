import QuditSynth.Proofs.Exact.Scalar

namespace QuditSynth

/-! # Exact numbers that may be missing

The real numbers give every quotient a value, a quotient by zero included. Where
that would hide a breakdown, a scalar is an exact number or none: nothing is
rounded, a quotient by zero and the root of a negative number are missing, and
what is missing stays so and compares with nothing.
-/

inductive Number
  | real (value : ℝ)
  | missing

namespace Number

def map (f : ℝ → ℝ) : Number → Number
  | real x => real (f x)
  | missing => missing

def map₂ (f : ℝ → ℝ → ℝ) : Number → Number → Number
  | real x, real y => real (f x y)
  | _, _ => missing

/-- Both numbers are there and related. -/
def Related (relation : ℝ → ℝ → Prop) : Number → Number → Prop
  | real x, real y => relation x y
  | _, _ => False

open Classical in
noncomputable instance : Scalar Number where
  zero := real 0
  one := real 1
  add := map₂ (· + ·)
  sub := map₂ (· - ·)
  mul := map₂ (· * ·)
  div x y := if y = real 0 then missing else map₂ (· / ·) x y
  neg := map (- ·)
  lt := Related (· < ·)
  le := Related (· ≤ ·)
  beq x y := decide (Related (· = ·) x y)
  ofScientific mantissa negative exponent :=
    real (OfScientific.ofScientific mantissa negative exponent)
  decidableLT := inferInstance
  decidableLE := inferInstance
  ofNat n := real (Scalar.ofNat n)
  pi := real Scalar.pi
  abs := map Scalar.abs
  sqrt x := if Related (· < ·) x (real 0) then missing else map Scalar.sqrt x
  sin := map Scalar.sin
  cos := map Scalar.cos
  atan2 := map₂ Scalar.atan2
  hypot := map₂ Scalar.hypot
  rem x y := if y = real 0 then missing else map₂ Scalar.rem x y
  round := map Scalar.round
  ceilLog2
    | real x => Scalar.ceilLog2 x
    | missing => 0
  totalLe x y := decide (y = missing ∨ Related (· ≤ ·) x y)

/-- An objective whose values are all there. -/
def valued (objective : List Number → ℝ) (point : List Number) : Number := real (objective point)

theorem undefined_eq : (Scalar.undefined : Number) = missing := if_pos rfl

theorem unbounded_eq : (Scalar.unbounded : Number) = missing := if_pos rfl

theorem not_missing_le (y : Number) : ¬ missing ≤ y := id

open Classical in
theorem beq_iff {x y : Number} : (x == y) = true ↔ Related (· = ·) x y := decide_eq_true_iff

theorem isFinite_real (x : ℝ) : Scalar.isFinite (real x) = true := beq_iff.mpr (sub_self x)

theorem isFinite_missing : Scalar.isFinite missing = false :=
  Bool.eq_false_iff.mpr (beq_iff.not.mpr id)

/-- A difference quotient is there as long as its step is, and is not zero. -/
theorem isFinite_quotient (x y : ℝ) (step : Number) :
    Scalar.isFinite ((real x - real y) / (Scalar.two * step)) = true ↔
      ∃ h : ℝ, step = real h ∧ h ≠ 0 := by
  cases step with
  | missing =>
      have absent : (real x - real y) / (Scalar.two * missing) = missing :=
        if_neg Number.noConfusion
      rw [absent, isFinite_missing]
      simp
  | real h =>
      by_cases flat : h = 0
      · subst flat
        have none : (real x - real y) / (Scalar.two * real 0) = missing :=
          if_pos (congrArg real (mul_zero (1 + 1)))
        rw [none, isFinite_missing]
        simp
      · have twice : (1 + 1) * h ≠ 0 := by simpa using flat
        have some : (real x - real y) / (Scalar.two * real h) = real ((x - y) / ((1 + 1) * h)) :=
          if_neg fun same => twice (Number.real.inj same)
        rw [some, isFinite_real]
        simp [flat]

end Number
end QuditSynth
