import QuditSynth.Gate.Action
import QuditSynth.Instruction

namespace QuditSynth

/-! # Local layers

A local layer reaches every operator on one qudit up to a phase: relative phases
of neighbouring levels, then a rotation of every pair of levels. The rotations
come in the reverse of the order in which a column-by-column elimination visits
the pairs.
-/

/-- Angles this close to a multiple of their period count as the identity. -/
def identityAngle {R : Type} [Scalar R] : R := 1e-10

/-- The level pairs `(column, row)` of an elimination, column by column, the last row first. -/
def eliminationOrder (dim : Nat) : List (Nat × Nat) :=
  (List.range (dim - 1)).flatMap fun col =>
    (List.range' (col + 1) (dim - (col + 1))).reverse.map fun row => (col, row)

/-- Splits off a number of parameters, all of which have to be there. -/
def splitParams {R : Type} (count : Nat) (params : List R) : Except Error (List R × List R) :=
  if count ≤ params.length then .ok (params.splitAt count) else .error .outOfRange

/-- Consecutive elements in pairs; an odd one at the end is left out. -/
def inPairs {R : Type} : List R → List (R × R)
  | first :: second :: rest => (first, second) :: inPairs rest
  | _ => []

/-- A local layer on a qudit of the given dimension. -/
structure LocalLayer where
  dim : Nat
deriving Repr, DecidableEq

namespace LocalLayer

/-- The level pairs of the rotations, in the order in which they act. -/
def pairs (layer : LocalLayer) : List (Nat × Nat) := (eliminationOrder layer.dim).reverse

def paramCount (layer : LocalLayer) : Nat := layer.dim * layer.dim - 1

/-- The number of parameters, worked out in words. -/
def countParams (layer : LocalLayer) : Except Error Nat := do
  let square ← word (layer.dim * layer.dim)
  if square = 0 then throw .outOfRange
  return square - 1

variable {R : Type}

/-- The phases and the rotations, each with its levels and angles. There is no layer on a qudit
without levels. -/
def split (layer : LocalLayer) (params : List R) :
    Except Error (List (R × Nat) × List ((Nat × Nat) × (R × R))) := do
  if layer.dim = 0 then throw .outOfRange
  let (phases, rest) ← splitParams (layer.dim - 1) params
  return (phases.zipIdx, layer.pairs.zip (inPairs rest))

variable [Scalar R]

/-- The diagonal made by the relative phases. -/
def diagonal (layer : LocalLayer) (phases : List (R × Nat)) : List (Amplitude R) :=
  phases.foldl (fun entries (theta, level) =>
    (entries.modify level (· * .polar 1 (Scalar.half (-theta)))).modify (level + 1)
      (· * .polar 1 (Scalar.half theta)))
    (List.replicate layer.dim 1)

/-- Mixes the entries of a column in two rows, both of which are read before they are written. -/
def rotateColumn (c : R) (block : Operator.Block R) (a b : Nat) (u : Operator R) (col : Nat) :
    Operator R :=
  let above := u.entry a col
  let below := u.entry b col
  (u.setEntry a col (above.scale c + block.ab * below)).setEntry b col
    (block.ba * above + below.scale c)

/-- Multiplies by a rotation of two levels from the left, which mixes two rows in every column. -/
def applyRotation (u : Operator R) (a b : Nat) (theta phi : R) : Operator R :=
  let c := Scalar.cos (Scalar.half theta)
  let block := Operator.rotationBlock theta phi
  (List.range u.dim).foldl (rotateColumn c block a b) u

def operator (layer : LocalLayer) (params : List R) : Except Error (Operator R) := do
  let (phases, rotations) ← layer.split params
  return rotations.foldl (fun u ((a, b), (theta, phi)) => applyRotation u a b theta phi)
    (Operator.diagonal (layer.diagonal phases))

/-- The gates of the layer, before any is dropped. -/
def gates (layer : LocalLayer) (params : List R) : Except Error (List (Gate R)) := do
  let (phases, rotations) ← layer.split params
  return phases.map (fun (theta, level) => .rz theta level (level + 1)) ++
    rotations.map fun ((a, b), (theta, phi)) => .r theta phi a b

/-- Drops gates that do nothing and puts the others on a qudit. -/
def emit (qudit : Qudit) (gates : List (Gate R)) : List (Instruction R) :=
  (gates.filter fun gate => !gate.isIdentity identityAngle).map fun gate =>
    .ofGate gate.canonicalize [qudit]

def instructions (layer : LocalLayer) (params : List R) (qudit : Qudit) :
    Except Error (List (Instruction R)) := do
  return emit qudit (← layer.gates params)

end LocalLayer
end QuditSynth
