import QuditSynth.CompileError
import QuditSynth.LocalLayer

namespace QuditSynth

/-! # Exact decomposition of one-qudit operators

Rotations of level pairs eliminate the entries below the diagonal column by
column and leave a diagonal of phases. The inverse rotations, after the phases
relative to the first level, perform the operator up to a phase.
-/

/-- A rotation of two levels. -/
structure PlaneRotation (R : Type) where
  col : Nat
  row : Nat
  theta : R
  phi : R

namespace Elimination

variable {R : Type} [Scalar R]

/-- An entry shorter than this counts as eliminated. -/
def eliminated : R := 1e-14

/-- The operator so far, and the rotations that led to it, the last one first. -/
structure State (R : Type) where
  operator : Operator R
  rotations : List (PlaneRotation R)

/-- Rotates one entry below the diagonal into the diagonal entry of its column. -/
def step (state : State R) (pair : Nat × Nat) : State R :=
  let (col, row) := pair
  let x := state.operator.entry col col
  let y := state.operator.entry row col
  if y.norm < eliminated then state
  else
    let theta := Scalar.two * Scalar.atan2 y.norm x.norm
    let phi := y.arg - x.arg - Scalar.half Scalar.pi
    { operator := LocalLayer.applyRotation state.operator col row theta phi
      rotations := ⟨col, row, theta, phi⟩ :: state.rotations }

def run (u : Operator R) : State R := (eliminationOrder u.dim).foldl step ⟨u, []⟩

/-- The gates that undo an elimination, in the order in which they act. -/
def gates (state : State R) : List (Gate R) :=
  let reference := (state.operator.entry 0 0).arg
  let phases := (List.range' 1 (state.operator.dim - 1)).map fun level =>
    Gate.virtRz (reference - (state.operator.entry level level).arg) level
  phases ++ state.rotations.map fun rotation =>
    .r (-rotation.theta) rotation.phi rotation.col rotation.row

end Elimination

variable {R : Type} [Scalar R]

/-- Rotations and virtual phases that perform a unitary operator on a qudit, up to a phase. -/
def decomposeSingleQudit (u : Operator R) (qudit : Qudit) :
    Except (CompileError R) (List (Instruction R)) := do
  if !u.isUnitary (Operator.unitarityTolerance * 1e3) then
    throw (.circuit (.nonUnitary s!"{u.dim}x{u.dim} block on {qudit.text}"))
  if u.dim = 0 then throw (.circuit .outOfRange)
  return LocalLayer.emit qudit (Elimination.gates (Elimination.run u))

end QuditSynth
