namespace QuditSynth.Text

/-! # Hexadecimal digits -/

def hexDigit? (c : Char) : Option Nat :=
  if '0' ≤ c ∧ c ≤ '9' then some (c.toNat - '0'.toNat)
  else if 'a' ≤ c ∧ c ≤ 'f' then some (c.toNat - 'a'.toNat + 10)
  else if 'A' ≤ c ∧ c ≤ 'F' then some (c.toNat - 'A'.toNat + 10)
  else none

/-- The value of digits in a radix of at most sixteen. -/
def radixValue (radix : Nat) (digits : List Char) : Option Nat :=
  digits.foldlM (fun total c => do
    let digit ← hexDigit? c
    if digit < radix then some (total * radix + digit) else none) 0

def hexValue (digits : List Char) : Option Nat := radixValue 16 digits

end QuditSynth.Text
