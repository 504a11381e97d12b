import QuditSynth.Scalar.Binary

namespace QuditSynth

/-! # Decimal numbers

Whole numbers of units of a power of ten, and their relation to binary numbers.
All comparisons are made on integers, so nothing is rounded twice.
-/

/-- The number `digits · 10 ^ exponent`. -/
structure Decimal where
  digits : Nat
  exponent : Int
deriving Repr, DecidableEq

/-- Where a value exactly between two candidates goes. -/
inductive Tie
  | toEven
  | up
deriving Repr, DecidableEq

/-- The nearest whole number to a quotient. -/
def roundDiv (tie : Tie) (num den : Nat) : Nat :=
  let quotient := num / den
  let twice := 2 * (num % den)
  if twice < den then quotient
  else if den < twice then quotient + 1
  else
    match tie with
    | .toEven => quotient + quotient % 2
    | .up => quotient + 1

/-- How many decimal digits a whole number has; none for zero. -/
def digitCount (n : Nat) : Nat := if n = 0 then 0 else (Nat.toDigits 10 n).length

namespace Dyadic

/-- The magnitude as a fraction of whole numbers. -/
def fraction (value : Dyadic) : Nat × Nat :=
  (value.significand * Nat.pow 2 value.exponent.toNat, Nat.pow 2 (-value.exponent).toNat)

/-- The magnitude measured in units of a power of ten, as a fraction. -/
def inUnits (value : Dyadic) (unit : Int) : Nat × Nat :=
  let (num, den) := value.fraction
  (num * Nat.pow 10 (-unit).toNat, den * Nat.pow 10 unit.toNat)

/-- The exponent of the leading decimal digit of a magnitude that is not zero. -/
def leadingExponent (value : Dyadic) : Int :=
  let (num, den) := value.fraction
  let estimate : Int := (digitCount num : Int) - (digitCount den : Int)
  let (scaledNum, scaledDen) := value.inUnits estimate
  if scaledDen ≤ scaledNum then estimate else estimate - 1

/-- The magnitude rounded to whole units of a power of ten. -/
def toUnits (tie : Tie) (value : Dyadic) (unit : Int) : Nat :=
  let (num, den) := value.inUnits unit
  roundDiv tie num den

/-- The magnitude rounded to one digit before the point and `places` after it. -/
def toScientific (value : Dyadic) (places : Nat) : Decimal :=
  if value.significand = 0 then ⟨0, 0⟩
  else
    let unit := value.leadingExponent - places
    let digits := value.toUnits .toEven unit
    if digits = Nat.pow 10 (places + 1) then ⟨Nat.pow 10 places, unit + 1⟩ else ⟨digits, unit⟩

end Dyadic
end QuditSynth
