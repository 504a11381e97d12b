import QuditSynth.Decimal

namespace QuditSynth

/-! # Reading numbers

Whole numbers below a limit, and decimal fractions rounded to the nearest double.
-/

namespace Decimal

/-- Beyond these orders of magnitude every decimal is infinite, or zero, as a double. -/
def magnitudeBound : Int := 400

/-- The nearest double. -/
def toFloat (negative : Bool) (decimal : Decimal) : Float :=
  let magnitude := (digitCount decimal.digits : Int) + decimal.exponent
  let value :=
    if decimal.digits = 0 ∨ magnitude < -magnitudeBound then 0.0
    else if magnitudeBound < magnitude then 1.0 / 0.0
    else
      match decimal.exponent with
      | .ofNat exponent => Float.ofScientific decimal.digits false exponent
      | .negSucc exponent => Float.ofScientific decimal.digits true (exponent + 1)
  if negative then -value else value

end Decimal

namespace Numeral

def digit? (c : Char) : Option Nat :=
  if '0' ≤ c ∧ c ≤ '9' then some (c.toNat - '0'.toNat) else none

/-- The value of a list of digits. -/
def value (digits : List Char) : Nat :=
  digits.foldl (fun total c => total * 10 + (c.toNat - '0'.toNat)) 0

/-- The digits a text starts with, and what follows them. -/
def takeDigits (chars : List Char) : List Char × List Char := chars.span fun c => (digit? c).isSome

/-- Why a text is not a whole number. -/
inductive Fault
  | empty
  | invalidDigit
  | tooLarge
deriving Repr, DecidableEq

def Fault.message : Fault → String
  | empty => "cannot parse integer from empty string"
  | invalidDigit => "invalid digit found in string"
  | tooLarge => "number too large to fit in target type"

/-- Reads digits from the left; the first that is none, or that passes the limit, stops. -/
def scan (limit : Nat) : Nat → List Char → Except Fault Nat
  | total, [] => .ok total
  | total, c :: rest =>
      match digit? c with
      | none => .error .invalidDigit
      | some digit =>
          let next := total * 10 + digit
          if next < limit then scan limit next rest else .error .tooLarge

/-- A whole number below the limit: digits, with a plus sign before them or not. -/
def readNat (limit : Nat) (text : String) : Except Fault Nat :=
  match text.toList with
  | [] => .error .empty
  | ['+'] => .error .invalidDigit
  | '+' :: digits => scan limit 0 digits
  | digits => scan limit 0 digits

/-- The exponent part of a number, which may be missing. -/
def readExponent : List Char → Option Int
  | [] => some 0
  | mark :: rest =>
      if mark = 'e' ∨ mark = 'E' then
        let (negative, digits) := match rest with
          | '-' :: digits => (true, digits)
          | '+' :: digits => (false, digits)
          | digits => (false, digits)
        match takeDigits digits with
        | (_ :: _, []) =>
            let size : Int := value digits
            some (if negative then -size else size)
        | _ => none
      else none

/-- Digits with a point before, among or after them, and an exponent or none. -/
def readDecimal (chars : List Char) : Option Decimal := do
  let (whole, rest) := takeDigits chars
  let (part, rest) := match rest with
    | '.' :: rest => takeDigits rest
    | rest => ([], rest)
  if whole.isEmpty && part.isEmpty then none
  let exponent ← readExponent rest
  return ⟨value (whole ++ part), exponent - part.length⟩

/-- A double: a sign or none, then a decimal, an infinity or `nan`. -/
def readFloat (text : String) : Option Float :=
  let (negative, chars) := match text.toList with
    | '-' :: chars => (true, chars)
    | '+' :: chars => (false, chars)
    | chars => (false, chars)
  let sign (x : Float) := if negative then -x else x
  match String.ofList (chars.map Char.toLower) with
  | "inf" | "infinity" => some (sign (1.0 / 0.0))
  | "nan" => some (0.0 / 0.0)
  | _ => (readDecimal chars).map (·.toFloat negative)

end Numeral
end QuditSynth
