import QuditSynth.Decimal.Shortest

namespace QuditSynth

/-! # Numbers as text

`NumberStyle` holds the decisions of one way of writing doubles. The three ways used
by this library are `fixedText`, `scientificText` and the styles `plainStyle`
and `documentStyle`.
-/

namespace Decimal

/-- Digits with leading zeros up to a width. -/
def padded (width n : Nat) : String :=
  let text := toString n
  "".pushn '0' (width - text.length) ++ text

/-- Positional notation with a given number of places after the point. -/
def positional (units places : Nat) : String :=
  if places = 0 then toString units
  else
    let unit := Nat.pow 10 places
    toString (units / unit) ++ "." ++ padded places (units % unit)

/-- Positional notation with as many places as the decimal needs. -/
def plain (decimal : Decimal) : String :=
  match decimal.exponent with
  | .ofNat zeros => toString (decimal.digits * Nat.pow 10 zeros)
  | .negSucc places => positional decimal.digits (places + 1)

/-- One digit, the remaining digits after a point, and the exponent after a mark. -/
def exponential (decimal : Decimal) (exponentText : Int → String) : String :=
  let places := digitCount decimal.digits - 1
  positional decimal.digits places ++ "e" ++ exponentText (decimal.exponent + places)

end Decimal

/-- The text of a value beyond every bound. -/
def infinityText : Bool → String
  | false => "inf"
  | true => "-inf"

private def signed (negative : Bool) (text : String) : String :=
  if negative then "-" ++ text else text

/-- A number rounded to a fixed number of places, a tie going to the even neighbour. The sign stays
when every digit is zero. -/
def fixedText (places : Nat) (x : Float) : String :=
  match Double.ofFloat x with
  | .undefined => "NaN"
  | .infinite negative => infinityText negative
  | .finite value =>
      signed value.negative (Decimal.positional (value.toUnits .toEven (-(places : Int))) places)

/-- A number with one digit before the point and a fixed number of places after it. -/
def scientificText (places : Nat) (x : Float) : String :=
  match Double.ofFloat x with
  | .undefined => "NaN"
  | .infinite negative => infinityText negative
  | .finite value =>
      let decimal := value.toScientific places
      let text := Decimal.positional decimal.digits places ++ "e" ++
        toString (if value.significand = 0 then 0 else decimal.exponent + places)
      signed value.negative text

/-- How the shortest digits of a double are laid out. -/
structure NumberStyle where
  /-- Where an exact tie between two shortest candidates goes. -/
  tie : Tie
  /-- The least exponent of the leading digit that is written positionally. -/
  leastPositional : Option Int
  /-- The first exponent of the leading digit that is no longer written positionally. -/
  firstExponential : Option Int
  /-- What follows a whole number. -/
  wholeSuffix : String
deriving Repr, DecidableEq

namespace NumberStyle

def isPositional (style : NumberStyle) (leading : Int) : Bool :=
  style.leastPositional.all (· ≤ leading) && style.firstExponential.all (leading < ·)

private def signedExponent (exponent : Int) : String :=
  if exponent < 0 then toString exponent else "+" ++ toString exponent

def magnitude (style : NumberStyle) (value : Dyadic) : String :=
  let decimal := value.shortest style.tie
  let leading := decimal.exponent + (digitCount decimal.digits - 1 : Nat)
  if value.significand = 0 || style.isPositional leading then
    if 0 ≤ decimal.exponent then decimal.plain ++ style.wholeSuffix else decimal.plain
  else decimal.exponential signedExponent

def text (style : NumberStyle) (x : Float) : String :=
  match Double.ofFloat x with
  | .undefined => "NaN"
  | .infinite negative => infinityText negative
  | .finite value => signed value.negative (style.magnitude value)

end NumberStyle

/-- Never an exponent, and no point in whole numbers. -/
def plainStyle : NumberStyle := ⟨.up, none, none, ""⟩

/-- Exponents below `10 ^ -5` and from `10 ^ 16` on, and a point in whole numbers. -/
def documentStyle : NumberStyle := ⟨.toEven, some (-5), some 16, ".0"⟩

end QuditSynth
