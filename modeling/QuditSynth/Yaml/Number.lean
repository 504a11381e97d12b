import QuditSynth.Decimal.Reading
import QuditSynth.Yaml.Node

namespace QuditSynth.Yaml

/-! # Numbers in YAML texts

Whole numbers may be written in four radices; a decimal with a leading zero is
not a number.
-/

/-- The rest of a text after one plus sign, if there is one. -/
def dropPlus : List Char → List Char
  | '+' :: rest => rest
  | chars => chars

def startsWithSign : List Char → Bool
  | '+' :: _ | '-' :: _ => true
  | _ => false

/-- Digits of a radix whose value is below a limit. -/
def radixNat (limit radix : Nat) (digits : List Char) : Option Nat := do
  if digits.isEmpty then none
  let value ← Text.radixValue radix digits
  if value < limit then some value else none

def hasLeadingZero : List Char → Bool
  | '0' :: digit :: rest => (digit :: rest).all fun c => (Numeral.digit? c).isSome
  | _ => false

/-- A whole number below a limit. -/
def readNat (limit : Nat) (text : String) : Option Nat :=
  let chars := dropPlus text.toList
  match chars with
  | '0' :: 'x' :: digits => radixNat limit 16 digits
  | '0' :: 'o' :: digits => radixNat limit 8 digits
  | '0' :: 'b' :: digits => radixNat limit 2 digits
  | chars => if hasLeadingZero chars then none else radixNat limit 10 chars

/-- A double; beyond the largest one there are only the two infinities written as such. -/
def readReal (text : String) : Option Float :=
  let unsigned := String.ofList (dropPlus text.toList)
  if text.startsWith "+" && startsWithSign unsigned.toList then none
  else
    match text, unsigned with
    | _, ".inf" | _, ".Inf" | _, ".INF" => some (1.0 / 0.0)
    | "-.inf", _ | "-.Inf", _ | "-.INF", _ => some (-1.0 / 0.0)
    | ".nan", _ | ".NaN", _ | ".NAN", _ => some (0.0 / 0.0)
    | _, unsigned => (Numeral.readFloat unsigned).filter Float.isFinite

namespace Node

def asNat (limit : Nat) (node : Node) : Option Nat := do readNat limit (← node.valueText? "int")

def asFloat (node : Node) : Option Float := do readReal (← node.valueText? "float")

end Node
end QuditSynth.Yaml
