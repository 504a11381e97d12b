namespace QuditSynth

/-! # Scalars

Angles, matrix entries and objective values are built from one scalar type.
Everything above this module is written for any `Scalar`, so the same
definitions run on binary floating point and can be read over exact numbers.

The comparisons follow the scalar's own order, in which a value that is not a
number is related to nothing; `totalLe` orders every pair of values and is used
where a whole list has to be sorted.
-/

/-- Arithmetic and the elementary functions needed by gates and searches. -/
class Scalar (R : Type) extends Zero R, One R, Add R, Sub R, Mul R, Div R, Neg R,
    LT R, LE R, BEq R, OfScientific R where
  decidableLT : DecidableLT R
  decidableLE : DecidableLE R
  ofNat : Nat → R
  pi : R
  abs : R → R
  sqrt : R → R
  sin : R → R
  cos : R → R
  /-- The angle of the point `(x, y)`, given as `atan2 y x`. -/
  atan2 : R → R → R
  /-- The length of the vector with the two given legs. -/
  hypot : R → R → R
  /-- The remainder of a division whose quotient is rounded towards zero. -/
  rem : R → R → R
  /-- The nearest whole number, halves away from zero. -/
  round : R → R
  /-- The least whole number not below the binary logarithm, at most `2 ^ 31 - 1`. -/
  ceilLog2 : R → Nat
  /-- A total order that agrees with `≤` wherever `≤` or its converse holds strictly. -/
  totalLe : R → R → Bool
  /-- A product and a third value added to it, as one step: only the result is rounded. -/
  mulAdd : R → R → R → R := fun x y z => x * y + z

namespace Scalar

variable {R : Type} [Scalar R]

instance : DecidableLT R := decidableLT

instance : DecidableLE R := decidableLE

def two : R := 1 + 1

def half (x : R) : R := x / two

/-- The quotient that has no value. -/
def undefined : R := 0 / 0

/-- The quotient that exceeds every bound. -/
def unbounded : R := 1 / 0

/-- A value is finite when subtracting it from itself leaves nothing. -/
def isFinite (x : R) : Bool := x - x == 0

/-- The larger value; one that is not a number gives way to the other. -/
def larger (x y : R) : R := if x < y || !(x == x) then y else x

/-- The smaller value; one that is not a number gives way to the other. -/
def smaller (x y : R) : R := if y < x || !(x == x) then y else x

/-- A total times a power, by repeated squaring from the lowest binary digit of the exponent on. -/
def mulPow (total base : R) (exponent : Nat) : R :=
  if exponent = 0 then total
  else mulPow (if exponent % 2 = 1 then total * base else total) (base * base) (exponent / 2)
termination_by exponent

def pow (base : R) (exponent : Nat) : R := mulPow 1 base exponent

/-- Powers with a negative exponent are quotients. -/
def powInt (base : R) : Int → R
  | .ofNat exponent => pow base exponent
  | .negSucc exponent => 1 / pow base (exponent + 1)

end Scalar
end QuditSynth
