import QuditSynth.Amplitude
import QuditSynth.Capacity

namespace QuditSynth

/-! # Operators

Dense square matrices of amplitudes. An operator is read through `entry`, which
is zero outside the matrix, and built entry by entry through `ofFn`; the cells
in between are stored row by row so that no entry is computed twice.
-/

/-- A square matrix on `dim` basis states, stored row by row. -/
structure Operator (R : Type) where
  dim : Nat
  cells : Array (Amplitude R)
  size_cells : cells.size = dim * dim

namespace Operator

variable {R : Type} [Scalar R]

/-- Bytes of an amplitude, eight for each of its parts. -/
def amplitudeBytes : Nat := 16

/-- Refuses a dimension whose matrices are too large to be addressed. -/
def checkDim (dim : Nat) : Except Error Unit := checkCapacity (dim * dim) amplitudeBytes

/-- The entry at a row and a column, zero outside the matrix. -/
@[inline]
def entry (u : Operator R) (row col : Nat) : Amplitude R :=
  if col < u.dim then u.cells.getD (row * u.dim + col) 0 else 0

/-- Overwrites the entry at a row and a column of the matrix. -/
@[inline]
def setEntry (u : Operator R) (row col : Nat) (amplitude : Amplitude R) : Operator R where
  dim := u.dim
  cells := if col < u.dim then u.cells.setIfInBounds (row * u.dim + col) amplitude else u.cells
  size_cells := by split <;> simp [u.size_cells]

/-- The entry at a row and a column that have to exist. -/
def get (u : Operator R) (row col : Nat) : Except Error (Amplitude R) :=
  if row < u.dim ∧ col < u.dim then .ok (u.entry row col) else .error .outOfRange

@[specialize]
def ofFn (dim : Nat) (f : Nat → Nat → Amplitude R) : Operator R where
  dim
  cells := Array.ofFn fun index : Fin (dim * dim) => f (index.val / dim) (index.val % dim)
  size_cells := Array.size_ofFn

instance : BEq (Operator R) := ⟨fun u v => u.dim == v.dim && u.cells == v.cells⟩

def zero (dim : Nat) : Operator R where
  dim
  cells := Array.replicate (dim * dim) 0
  size_cells := Array.size_replicate

def identity (dim : Nat) : Operator R := ofFn dim fun row col => if row = col then 1 else 0

/-- The identity on a dimension that may be too large. -/
def identityOn (dim : Nat) : Except Error (Operator R) := do
  checkDim dim
  return identity dim

def diagonal (entries : List (Amplitude R)) : Operator R :=
  let entries := entries.toArray
  ofFn entries.size fun row col => if row = col then entries.getD row 0 else 0

/-- The operator of a rectangular table of cells, which has to be square. -/
def ofTable (rows cols : Nat) (cells : List (Amplitude R)) : Except Error (Operator R) :=
  if rows = cols then
    let cells := cells.toArray
    .ok (ofFn rows fun row col => cells.getD (row * rows + col) 0)
  else .error (.notSquare rows cols)

/-- Refuses the first row whose length is not the number of rows. -/
def ofRows (rows : List (List (Amplitude R))) : Except Error (Operator R) :=
  match rows.find? (·.length ≠ rows.length) with
  | some row => .error (.notSquare rows.length row.length)
  | none => ofTable rows.length rows.length rows.flatten

/-- All entries, row by row. -/
def toList (u : Operator R) : List (Amplitude R) := u.cells.toList

@[specialize]
def map (f : Amplitude R → Amplitude R) (u : Operator R) : Operator R where
  dim := u.dim
  cells := u.cells.map f
  size_cells := by rw [Array.size_map, u.size_cells]

/-- The matrix product of two operators of one dimension, times a factor. -/
@[specialize]
def mulScaled (factor : Amplitude R) (u v : Operator R) : Operator R :=
  ofFn u.dim fun row col => factor * Amplitude.dot u.dim (u.entry row) (v.entry · col)

/-- The matrix product of two operators of one dimension. -/
def mul (u v : Operator R) : Operator R := mulScaled 1 u v

instance : Mul (Operator R) := ⟨mul⟩

/-- The entrywise sum of two operators of one dimension. -/
def add (u v : Operator R) : Operator R :=
  ofFn u.dim fun row col => u.entry row col + v.entry row col

instance : Add (Operator R) := ⟨add⟩

def sameDim (operation : String) (u v : Operator R) : Except Error Unit :=
  if u.dim = v.dim then .ok () else .error (.dimensionMismatch operation u.dim v.dim)

def compose (u v : Operator R) : Except Error (Operator R) := do
  sameDim "compose" u v
  return u * v

/-- The Kronecker product, the left factor being the more significant digit. -/
def kronecker (u v : Operator R) : Operator R :=
  ofFn (u.dim * v.dim) fun row col =>
    u.entry (row / v.dim) (col / v.dim) * v.entry (row % v.dim) (col % v.dim)

/-- The Kronecker product of operators of any dimensions. Every entry of the left factor becomes a
copy of the right one, which therefore has to have entries. -/
def tensor (u v : Operator R) : Except Error (Operator R) := do
  if v.dim = 0 then throw .outOfRange
  checkDim (u.dim * v.dim)
  return u.kronecker v

/-- The conjugate transpose. -/
def dagger (u : Operator R) : Operator R := ofFn u.dim fun row col => (u.entry col row).conj

/-- The trace of `u.dagger * v`, summed entry by entry, row after row. -/
def traceOverlap (u v : Operator R) : Except Error (Amplitude R) := do
  sameDim "trace_overlap" u v
  return Amplitude.sum (u.dim * u.dim) fun index =>
    (u.entry (index / u.dim) (index % u.dim)).conj * v.entry (index / u.dim) (index % u.dim)

/-- One for operators that are equal up to a phase. -/
def fidelity (u v : Operator R) : Except Error R := do
  let overlap ← u.traceOverlap v
  return overlap.norm / Scalar.ofNat u.dim

/-- Zero for operators that are equal up to a phase, and never negative. -/
def distance (u v : Operator R) : Except Error R := do
  return Scalar.larger (1 - (← u.fidelity v)) 0

/-- The largest entry of `u.dagger * u` minus the identity; entries that are not numbers are
passed over. -/
def unitarityError (u : Operator R) : R :=
  let product := u.dagger * u
  let deviation := ofFn u.dim fun row col => product.entry row col - if row = col then 1 else 0
  deviation.cells.foldl (fun largest cell => Scalar.larger largest cell.norm) 0

/-- The tolerance below which an operator counts as unitary. -/
def unitarityTolerance : R := 1e-9

def isUnitary (u : Operator R) (tolerance : R) : Bool := u.unitarityError < tolerance

/-- Entrywise comparison, without freedom of phase. -/
def approxEq (u v : Operator R) (tolerance : R) : Bool :=
  u.dim == v.dim && (u.cells.zip v.cells).all fun (a, b) => decide ((a - b).norm < tolerance)

/-- Rounds both parts of every entry to a number of decimal places. -/
def round (u : Operator R) (decimals : Int) : Operator R :=
  let factor : R := Scalar.powInt 10.0 decimals
  u.map (Amplitude.map fun x => Scalar.round (x * factor) / factor + 0)

/-- Multiplies every entry by an amplitude. -/
def scale (u : Operator R) (factor : Amplitude R) : Operator R := u.map (· * factor)

end Operator
end QuditSynth
