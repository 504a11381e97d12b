import QuditSynth.Scalar

namespace QuditSynth.Angle

/-! # Periodic angles

A rotation by half angles repeats after two turns, a phase after one.
-/

variable {R : Type} [Scalar R]

/-- The period of rotation angles, two turns. -/
def rotationPeriod : R := Scalar.two * (Scalar.two * Scalar.pi)

/-- The period of phases, one turn. -/
def phasePeriod : R := Scalar.two * Scalar.pi

/-- The remainder that is never negative. -/
def remainder (x period : R) : R :=
  let rest := Scalar.rem x period
  if rest < 0 then rest + Scalar.abs period else rest

/-- An angle reduced into `[0, period)`. The remainder of a tiny negative angle may round up to the
period itself, which is the angle zero. -/
def wrap (x period : R) : R :=
  let reduced := remainder x period
  if period ≤ reduced then 0 else reduced

/-- Whether an angle is closer than a tolerance to a multiple of its period. -/
def nearMultiple (x period tolerance : R) : Bool :=
  let reduced := wrap x period
  decide (reduced < tolerance) || decide (period - reduced < tolerance)

end QuditSynth.Angle
