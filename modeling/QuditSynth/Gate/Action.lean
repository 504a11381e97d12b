import QuditSynth.Gate
import QuditSynth.Operator.Embedding
import QuditSynth.Operator.Exponential

namespace QuditSynth

/-! # The operators that gates perform -/

namespace Operator

variable {R : Type} [Scalar R]

/-- Minus the imaginary unit. -/
def minusI : Amplitude R := ⟨0, -1⟩

/-- The four entries of a rotation between two levels, row by row. -/
structure Block (R : Type) where
  aa : Amplitude R
  ab : Amplitude R
  ba : Amplitude R
  bb : Amplitude R

/-- The rotation by `theta` about the axis at phase `phi`. -/
def rotationBlock (theta phi : R) : Block R :=
  let s := Scalar.sin (Scalar.half theta)
  let c := Scalar.cos (Scalar.half theta)
  { aa := .ofReal c
    ab := minusI * .polar s (-phi)
    ba := minusI * .polar s phi
    bb := .ofReal c }

/-- The identity with a block on two of its states. A state paired with itself takes the lower left
entry. -/
def ofBlock (dim a b : Nat) (block : Block R) : Operator R :=
  ofFn dim fun row col =>
    if row = b ∧ col = a then block.ba
    else if row = a ∧ col = b then block.ab
    else if row = b ∧ col = b then block.bb
    else if row = a ∧ col = a then block.aa
    else if row = col then 1 else 0

/-- The identity with a block on two of its states, which have to exist. -/
def blockOn (dim a b : Nat) (block : Block R) : Except Error (Operator R) := do
  checkDim dim
  if a < dim ∧ b < dim then return ofBlock dim a b block else throw .outOfRange

/-- Rotation between two levels that have to exist. -/
def rotation (dim a b : Nat) (theta phi : R) : Except Error (Operator R) :=
  blockOn dim a b (rotationBlock theta phi)

/-- A diagonal of ones with some phases set; the last setting of a level counts. -/
def phases (dim : Nat) (settings : List (Nat × Amplitude R)) : Except Error (Operator R) := do
  checkDim dim
  if settings.all fun (level, _) => level < dim then
    return ofFn dim fun row col => if row = col then (settings.reverse.lookup row).getD 1 else 0
  else throw .outOfRange

/-- Opposite half phases on two levels. -/
def relativePhase (dim a b : Nat) (theta : R) : Except Error (Operator R) :=
  phases dim [(a, .polar 1 (Scalar.half (-theta))), (b, .polar 1 (Scalar.half theta))]

/-- The phase `-theta` on one level. -/
def levelPhase (dim level : Nat) (theta : R) : Except Error (Operator R) :=
  phases dim [(level, .polar 1 (-theta))]

/-- Exchange of the lowest two levels, zero on all others. -/
def lowestFlip (dim : Nat) : Except Error (Operator R) := do
  checkDim dim
  if 2 ≤ dim then
    return ofFn dim fun row col => if row = 0 ∧ col = 1 ∨ row = 1 ∧ col = 0 then 1 else 0
  else throw .outOfRange

def fourier (dim : Nat) : Operator R :=
  let length : R := 1 / Scalar.sqrt (Scalar.ofNat dim)
  ofFn dim fun row col =>
    .polar length (Angle.phasePeriod * Scalar.ofNat (row * col % dim) / Scalar.ofNat dim)

/-- Every level moves up by one, the last to the first. -/
def cyclicShift (dim : Nat) : Operator R :=
  ofFn dim fun row col => if row = (col + 1) % dim then 1 else 0

/-- The second level grows by the first, modulo its dimension. -/
def controlledSum (controlDim dim : Nat) : Operator R :=
  ofFn (controlDim * dim) fun row col =>
    if row = col / dim * dim + (col / dim + col % dim) % dim then 1 else 0

end Operator

namespace Gate

variable {R : Type} [Scalar R] [Exponential R]

/-- The operator of a gate on operands of the given dimensions. -/
def operator (gate : Gate R) (dims : List Nat) : Except Error (Operator R) := do
  gate.checkLevels dims
  let first := dims.getD 0 0
  let second := dims.getD 1 0
  match gate with
  | r theta phi a b => Operator.rotation first a b theta phi
  | rz theta a b => Operator.relativePhase first a b theta
  | virtRz theta level => Operator.levelPhase first level theta
  | cex control a b phi =>
      (← Operator.rotation second a b Scalar.pi phi).embed dims [1] [(0, control)]
  | ms theta =>
      Operator.checkDim (first * second)
      let flips ← (← Operator.lowestFlip first).tensor (← Operator.lowestFlip second)
      return Exponential.exp (flips.scale ⟨0, Scalar.half (-theta)⟩)
  | h => do
      Operator.checkDim first
      return Operator.fourier first
  | x => do
      Operator.checkDim first
      return Operator.cyclicShift first
  | csum => do
      Operator.checkDim (first * second)
      return Operator.controlledSum first second
  | unitary _ operator => return operator

/-- What the name of an inverted operator ends in. -/
def inverseMark : List Char := ['_', 'd', 'g']

/-- Takes the mark of inversion off a name, or adds it. -/
def toggleInverse (name : String) : String :=
  let chars := name.toList
  if inverseMark.isSuffixOf chars then
    String.ofList (chars.take (chars.length - inverseMark.length))
  else String.ofList (chars ++ inverseMark)

/-- The inverse gate. Pulses invert through their angles; all other gates become the conjugate
transpose of their operator, under a marked name. -/
def dagger (gate : Gate R) (dims : List Nat) : Except Error (Gate R) := do
  let inverse ← match gate with
    | r theta phi a b => pure (r (-theta) phi a b)
    | rz theta a b => pure (rz (-theta) a b)
    | virtRz theta level => pure (virtRz (-theta) level)
    | cex control a b phi => pure (cex control a b (phi + Scalar.pi))
    | ms theta => pure (ms (-theta))
    | gate => do
        let operator ← gate.operator dims
        pure (unitary (toggleInverse gate.name) operator.dagger)
  return inverse.canonicalize

end Gate
end QuditSynth
