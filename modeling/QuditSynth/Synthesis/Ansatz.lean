import QuditSynth.Generator
import QuditSynth.LocalLayer

namespace QuditSynth

/-! # Layered ansatz

A local layer on both qudits, then a number of times an entangler and a further
local layer. Parameters come in the same order, so zeros at the end are layers
that do nothing.
-/

structure Ansatz (R : Type) where
  generator : Generator R
  layers : Nat

namespace Ansatz

variable {R : Type}

def first (ansatz : Ansatz R) : LocalLayer := ⟨ansatz.generator.dims.1⟩

def second (ansatz : Ansatz R) : LocalLayer := ⟨ansatz.generator.dims.2⟩

/-- Parameters of a local layer on both qudits. -/
def localParams (ansatz : Ansatz R) : Nat := ansatz.first.paramCount + ansatz.second.paramCount

def entanglerParams (ansatz : Ansatz R) : Nat := ansatz.generator.paramCount

def paramCount (ansatz : Ansatz R) : Nat :=
  (ansatz.layers + 1) * ansatz.localParams + ansatz.layers * ansatz.entanglerParams

/-- The number of parameters, worked out in words. -/
def countParams (ansatz : Ansatz R) : Except Error Nat := do
  let inner ← word ((← ansatz.first.countParams) + (← ansatz.second.countParams))
  let locals ← word ((← word (ansatz.layers + 1)) * inner)
  word (locals + (← word (ansatz.layers * ansatz.entanglerParams)))

/-- Parameters cut into those of the first local layer and those of each entangler with the local
layer after it. -/
structure Slices (R : Type) where
  opening : List R
  blocks : List (List R × List R)

/-- Cuts the blocks of the given number of layers off a list of parameters. -/
def sliceBlocks (ansatz : Ansatz R) : Nat → List R → Except Error (List (List R × List R))
  | 0, _ => .ok []
  | layers + 1, params => do
      let (angles, params) ← splitParams ansatz.entanglerParams params
      let (inner, params) ← splitParams ansatz.localParams params
      return (angles, inner) :: (← ansatz.sliceBlocks layers params)

def slices (ansatz : Ansatz R) (params : List R) : Except Error (Slices R) := do
  let (opening, params) ← splitParams ansatz.localParams params
  return ⟨opening, ← ansatz.sliceBlocks ansatz.layers params⟩

variable [Scalar R]

/-- The angle and the phase of an entangler, zero where missing. -/
def anglePhase (angles : List R) : R × R := (angles.getD 0 0, angles.getD 1 0)

def localOperator (ansatz : Ansatz R) (params : List R) : Except Error (Operator R) := do
  let (p, q) ← splitParams ansatz.first.paramCount params
  (← ansatz.first.operator p).tensor (← ansatz.second.operator q)

def localInstructions (ansatz : Ansatz R) (params : List R) :
    Except Error (List (Instruction R)) := do
  let (p, q) ← splitParams ansatz.first.paramCount params
  return (← ansatz.first.instructions p Generator.localFirst) ++
    (← ansatz.second.instructions q Generator.localSecond)

/-- The operator of the ansatz for a list of parameters. -/
def operator (ansatz : Ansatz R) (params : List R) : Except (CompileError R) (Operator R) := do
  let slices ← ansatz.slices params
  slices.blocks.foldlM (fun total (angles, inner) => do
    let (angle, phase) := anglePhase angles
    let entangler ← ansatz.generator.operator angle phase
    return (← ansatz.localOperator inner) * (entangler * total))
    (← ansatz.localOperator slices.opening)

/-- The pulses of an entangler, none when its angle is a multiple of its period. -/
def entanglerInstructions (ansatz : Ansatz R) (angles : List R) :
    Except (CompileError R) (List (Instruction R)) :=
  let (angle, phase) := anglePhase angles
  let reduced := Angle.wrap angle Angle.rotationPeriod
  if identityAngle < reduced ∧ identityAngle < Angle.rotationPeriod - reduced then
    ansatz.generator.sequence angle phase
  else .ok []

/-- The native instructions of the ansatz for a list of parameters. -/
def instructions (ansatz : Ansatz R) (params : List R) :
    Except (CompileError R) (List (Instruction R)) := do
  let slices ← ansatz.slices params
  slices.blocks.foldlM (fun emitted (angles, inner) => do
    let pulses ← ansatz.entanglerInstructions angles
    return emitted ++ pulses ++ (← ansatz.localInstructions inner))
    (← ansatz.localInstructions slices.opening)

end Ansatz
end QuditSynth
