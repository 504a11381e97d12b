import QuditSynth.Scalar

namespace QuditSynth

/-! # Amplitudes

Complex numbers over a scalar type, in Cartesian form.
-/

/-- The complex number `re + im · i`. -/
structure Amplitude (R : Type) where
  re : R
  im : R
deriving Repr, DecidableEq

namespace Amplitude

variable {R : Type} [Scalar R]

instance : Zero (Amplitude R) := ⟨⟨0, 0⟩⟩

instance : One (Amplitude R) := ⟨⟨1, 0⟩⟩

instance : Add (Amplitude R) := ⟨fun a b => ⟨a.re + b.re, a.im + b.im⟩⟩

instance : Sub (Amplitude R) := ⟨fun a b => ⟨a.re - b.re, a.im - b.im⟩⟩

@[inline]
instance : Mul (Amplitude R) :=
  ⟨fun a b => ⟨a.re * b.re - a.im * b.im, a.re * b.im + a.im * b.re⟩⟩

instance : BEq (Amplitude R) := ⟨fun a b => a.re == b.re && a.im == b.im⟩

/-- Multiplication by a real factor, part by part. -/
def scale (a : Amplitude R) (factor : R) : Amplitude R := ⟨a.re * factor, a.im * factor⟩

/-- Division by a real number, part by part. -/
def divide (a : Amplitude R) (divisor : R) : Amplitude R := ⟨a.re / divisor, a.im / divisor⟩

def conj (a : Amplitude R) : Amplitude R := ⟨a.re, -a.im⟩

def norm (a : Amplitude R) : R := Scalar.hypot a.re a.im

def arg (a : Amplitude R) : R := Scalar.atan2 a.im a.re

/-- The amplitude of the given length at the given angle. -/
def polar (length angle : R) : Amplitude R :=
  ⟨length * Scalar.cos angle, length * Scalar.sin angle⟩

def ofReal (x : R) : Amplitude R := ⟨x, 0⟩

/-- Both parts at once. -/
def map (f : R → R) (a : Amplitude R) : Amplitude R := ⟨f a.re, f a.im⟩

/-- Adds `count` further terms, from the given index on, to a total held in its two parts. -/
@[specialize]
def sumFrom (term : Nat → Amplitude R) : Nat → Nat → R → R → Amplitude R
  | 0, _, re, im => ⟨re, im⟩
  | count + 1, index, re, im =>
      let next := term index
      sumFrom term count (index + 1) (re + next.re) (im + next.im)

/-- The sum of `term 0`, `term 1`, … below `count`, added in that order. -/
@[inline]
def sum (count : Nat) (term : Nat → Amplitude R) : Amplitude R := sumFrom term count 0 0 0

/-- Adds the products of `count` further pairs, from the given index on, to a total held in its two
parts. The four products of a pair are added one after the other. -/
@[specialize]
def dotFrom (left right : Nat → Amplitude R) : Nat → Nat → R → R → Amplitude R
  | 0, _, re, im => ⟨re, im⟩
  | count + 1, index, re, im =>
      let a := left index
      let b := right index
      dotFrom left right count (index + 1)
        (Scalar.mulAdd (-a.im) b.im (Scalar.mulAdd a.re b.re re))
        (Scalar.mulAdd a.im b.re (Scalar.mulAdd a.re b.im im))

/-- The sum of `left 0 * right 0`, `left 1 * right 1`, … below `count`, added in that order. -/
@[inline]
def dot (count : Nat) (left right : Nat → Amplitude R) : Amplitude R :=
  dotFrom left right count 0 0 0

end Amplitude
end QuditSynth
