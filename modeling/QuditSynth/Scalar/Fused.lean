namespace QuditSynth.Double

/-! # Fused steps on doubles

A product and a sum with a single rounding at the end. The rounding error of a sum
or a product of two doubles is itself a double; so the exact result is held as a
sum of a few doubles, and only that sum is rounded.
-/

/-- What rounding takes from the sum of two doubles. -/
@[inline]
def sumError (x y : Float) : Float :=
  let sum := x + y
  let rest := sum - x
  (x - (sum - rest)) + (y - rest)

/-- A double cut down to the upper half of its digits. -/
@[inline]
def upperHalf (x : Float) : Float :=
  let spread := 134217729.0 * x
  spread - (spread - x)

/-- What rounding takes from the product of two doubles. -/
@[inline]
def productError (x y : Float) : Float :=
  let xHigh := upperHalf x
  let yHigh := upperHalf y
  let xLow := x - xHigh
  let yLow := y - yHigh
  ((xHigh * yHigh - x * y) + xHigh * yLow + xLow * yHigh) + xLow * yLow

/-- The sum of two doubles, rounded so that nothing is lost on rounding it a second time: a sum
that is not exact gets an odd last digit. -/
@[inline]
def oddSum (x y : Float) : Float :=
  let sum := x + y
  let error := sumError x y
  if error == 0.0 || sum.toBits % 2 == 1 then sum
  else if (error > 0.0) == (sum > 0.0) then Float.ofBits (sum.toBits + 1)
  else Float.ofBits (sum.toBits - 1)

/-- A product and a third value added to it, for values whose products and errors are all in
range. -/
def mulAddInRange (x y z : Float) : Float :=
  let product := x * y
  let error := productError x y
  let low := z + error
  let sum := product + low
  sum + oddSum (sumError z error) (sumError product low)

/-- A bound below which a factor counts as very small. -/
@[noinline]
def smallFactor : Float := 1e-100

/-- A bound above which a factor counts as very large. -/
@[noinline]
def largeFactor : Float := 1e100

/-- A bound above which a value added to a product counts as very large. -/
@[noinline]
def largeSummand : Float := 1e200

/-- Whether a factor is neither very large nor very small. -/
@[inline]
def isModerate (x : Float) : Bool := smallFactor < x.abs && x.abs < largeFactor

/-- A double times a power of two, which is kept from vanishing. -/
def rescale (x : Float) (exponent : Int) : Float :=
  let scaled := x.scaleB exponent
  if scaled.abs < 1e-300 && x != 0.0 then if x < 0.0 then -1e-300 else 1e-300 else scaled

/-- A product and a third value added to it, with a single rounding. Very large or small values
are brought into range by a power of two first. There, of a third value that is very small only its
sign counts, and one that is very large is the result. -/
def mulAdd (x y z : Float) : Float :=
  if x == 0.0 || y == 0.0 || !x.isFinite || !y.isFinite then x * y + z
  else if !z.isFinite then z
  else if isModerate x && isModerate y && z.abs < largeSummand then mulAddInRange x y z
  else
    let (xPart, xExponent) := x.frExp
    let (yPart, yExponent) := y.frExp
    let exponent := xExponent + yExponent
    let zPart := rescale z (-exponent)
    if zPart.abs < largeSummand then (mulAddInRange xPart yPart zPart).scaleB exponent else z

end QuditSynth.Double
