import QuditSynth.Scalar
import QuditSynth.Scalar.Binary
import QuditSynth.Scalar.Fused

namespace QuditSynth.Double

/-! # Doubles as scalars -/

/-- The exact remainder of two doubles, towards zero. -/
def rem (x y : Float) : Float :=
  match ofFloat x, ofFloat y with
  | .finite dividend, .finite divisor =>
      if divisor.significand = 0 then 0.0 / 0.0 else (dividend.rem divisor).toFloat
  | .finite _, .infinite _ => x
  | _, _ => 0.0 / 0.0

/-- The length of a vector, without overflow of its squares. An infinite leg makes an infinite
length, whatever the other leg is. -/
def hypot (x y : Float) : Float :=
  let a := x.abs
  let b := y.abs
  if a.isInf || b.isInf then 1.0 / 0.0
  else
    let high := if a < b then b else a
    let low := if a < b then a else b
    if high == 0.0 || high.isNaN || low.isNaN then a + b
    else if high < 1e-140 || high > 1e140 then
      let ratio := low / high
      high * (1.0 + ratio * ratio).sqrt
    else (high * high + low * low).sqrt

/-- The nearest double to the ratio of a circle's circumference to its diameter. -/
def pi : Float := Float.ofBits 0x400921fb54442d18

/-- Places every double, including those that are not numbers, on one line: by bits, with the
negative half turned round. -/
def totalKey (x : Float) : Nat :=
  let bits := x.toBits.toNat
  if bits < Nat.pow 2 63 then Nat.pow 2 63 + bits else Nat.pow 2 64 - 1 - bits

def ceilLog2 (x : Float) : Nat :=
  let exponent := x.log2.ceil
  if exponent ≥ 2147483647.0 then 2147483647 else exponent.toUInt64.toNat

instance : Scalar Float where
  zero := 0.0
  one := 1.0
  decidableLT := inferInstance
  decidableLE := inferInstance
  ofNat := Float.ofNat
  pi := pi
  abs := Float.abs
  sqrt := Float.sqrt
  sin := Float.sin
  cos := Float.cos
  atan2 := Float.atan2
  hypot := hypot
  rem := rem
  round := Float.round
  ceilLog2 := ceilLog2
  totalLe x y := totalKey x ≤ totalKey y
  mulAdd := mulAdd

end QuditSynth.Double
