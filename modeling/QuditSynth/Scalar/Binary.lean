namespace QuditSynth

/-! # Binary numbers behind a double

A finite double is a whole number of units of a power of two. Text and exact
remainders are computed on that pair of integers.
-/

/-- The number `± significand · 2 ^ exponent`. -/
structure Dyadic where
  negative : Bool
  significand : Nat
  exponent : Int
deriving Repr, DecidableEq

/-- What the bits of a double stand for. -/
inductive Double
  | undefined
  | infinite (negative : Bool)
  | finite (value : Dyadic)
deriving Repr, DecidableEq

namespace Double

def ofBits (bits : Nat) : Double :=
  let negative := bits / Nat.pow 2 63 % 2 == 1
  let exponent : Nat := bits / Nat.pow 2 52 % Nat.pow 2 11
  let fraction := bits % Nat.pow 2 52
  if exponent = 2047 then
    if fraction = 0 then .infinite negative else .undefined
  else if exponent = 0 then .finite ⟨negative, fraction, -1074⟩
  else .finite ⟨negative, Nat.pow 2 52 + fraction, (exponent : Int) - 1075⟩

def ofFloat (x : Float) : Double := ofBits x.toBits.toNat

end Double

namespace Dyadic

/-- Exact for every dyadic number that a double can hold. -/
def toFloat (value : Dyadic) : Float :=
  let magnitude := (Float.ofNat value.significand).scaleB value.exponent
  if value.negative then -magnitude else magnitude

/-- The exact remainder towards zero, with the sign of the dividend. -/
def rem (dividend divisor : Dyadic) : Dyadic :=
  let unit := min dividend.exponent divisor.exponent
  let units (value : Dyadic) := value.significand * Nat.pow 2 (value.exponent - unit).toNat
  ⟨dividend.negative, units dividend % units divisor, unit⟩

end Dyadic
end QuditSynth
