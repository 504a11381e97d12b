import QuditSynth.Error

namespace QuditSynth

/-! # Registers of qudits with mixed dimensions

Basis states of a register are numbered in mixed radix, the first qudit being
the most significant digit. Sizes are 64-bit words, and one that does not fit in
a word is out of range.
-/

/-- One more than the largest size. -/
def wordLimit : Nat := Nat.pow 2 64

/-- A size as a word. -/
def word (size : Nat) : Except Error Nat :=
  if size < wordLimit then .ok size else .error .outOfRange

def product (dims : List Nat) : Nat := dims.foldr (· * ·) 1

/-- The product of dimensions, multiplied out in words from the first one on. -/
def wordProduct : List Nat → Except Error Nat
  | [] => .ok 1
  | first :: rest => do word (← rest.foldlM (fun total dim => word (total * dim)) first)

/-- The weight of each digit: the product of the dimensions after it. -/
def weights : List Nat → List Nat
  | [] => []
  | _ :: rest => product rest :: weights rest

/-- The weights as words. -/
def strides (dims : List Nat) : Except Error (List Nat) := (weights dims).mapM word

/-- The digit of a basis state at a stride, in a radix. -/
def digitAt (state stride radix : Nat) : Nat := state / stride % radix

/-- A non-empty list of qudit dimensions, each at least two. -/
structure Register where
  dims : List Nat
  dims_ne_nil : dims ≠ []
  two_le_of_mem : ∀ dim ∈ dims, 2 ≤ dim
deriving Repr, DecidableEq

namespace Register

/-- Refuses an empty list, then the first dimension below two. -/
def ofDims (dims : List Nat) : Except Error Register :=
  if nonempty : dims = [] then .error .emptyRegister
  else
    match small : dims.find? (· < 2) with
    | some dim => .error (.invalidDimension dim)
    | none => .ok {
        dims
        dims_ne_nil := nonempty
        two_le_of_mem := fun dim member =>
          Nat.not_lt.mp fun isSmall =>
            List.find?_eq_none.mp small dim member (decide_eq_true isSmall) }

def size (register : Register) : Nat := register.dims.length

def qudits (register : Register) : List Qudit := (List.range register.size).map Qudit.mk

def totalDimension (register : Register) : Except Error Nat := wordProduct register.dims

def dimensionOf (register : Register) (qudit : Qudit) : Except Error Nat :=
  match register.dims[qudit.index]? with
  | some dim => .ok dim
  | none => .error (.quditNotFound qudit none)

/-- The register of the named qudits, in the named order. -/
def select (register : Register) (qudits : List Qudit) : Except Error Register := do
  ofDims (← qudits.mapM register.dimensionOf)

end Register
end QuditSynth
