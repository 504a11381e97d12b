import QuditSynth.Decimal

namespace QuditSynth.Dyadic

/-! # Shortest digits

The decimal with the fewest digits that reads back as a given double, and of
those the nearest to it. A decimal reads back when it lies between the midpoints
to the two neighbouring doubles; the midpoints belong to doubles whose
significand is even.
-/

/-- The significand of the smallest double in a binary range. -/
def leastNormal : Nat := Nat.pow 2 52

/-- The exponent shared by the smallest doubles. -/
def leastExponent : Int := -1074

/-- Whether a decimal lies in the interval of numbers that round to a double. -/
def readsBack (value : Dyadic) (decimal : Decimal) : Bool :=
  let spread := if value.significand = leastNormal ∧ leastExponent < value.exponent then 1 else 2
  let quarters := 4 * value.significand
  let (num, den) := (Dyadic.mk false quarters (value.exponent - 2)).inUnits decimal.exponent
  let scaled := decimal.digits * den * quarters
  let low := num * (quarters - spread)
  let high := num * (quarters + 2)
  if value.significand % 2 = 0 then low ≤ scaled ∧ scaled ≤ high else low < scaled ∧ scaled < high

/-- The candidate with a given number of digits, if one reads back. -/
def candidate (tie : Tie) (value : Dyadic) (count : Nat) : Option Decimal :=
  let unit := value.leadingExponent - (count : Int) + 1
  let nearest := value.toUnits tie unit
  let (num, den) := value.inUnits unit
  let floor := num / den
  let other := if nearest = floor then floor + 1 else floor
  [Decimal.mk nearest unit, Decimal.mk other unit].find? value.readsBack

/-- Removes trailing zeros of a decimal, at most `count` of them. -/
def trim : Nat → Decimal → Decimal
  | 0, decimal => decimal
  | count + 1, decimal =>
      if decimal.digits ≠ 0 ∧ decimal.digits % 10 = 0 then
        trim count ⟨decimal.digits / 10, decimal.exponent + 1⟩
      else decimal

/-- The shortest decimal for the magnitude of a double. Seventeen digits always suffice. -/
def shortest (tie : Tie) (value : Dyadic) : Decimal :=
  if value.significand = 0 then ⟨0, 0⟩
  else
    let found := (List.range 17).findSome? fun count => candidate tie value (count + 1)
    trim 17 (found.getD (value.toScientific 16))

end QuditSynth.Dyadic
