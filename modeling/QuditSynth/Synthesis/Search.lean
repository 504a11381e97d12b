import QuditSynth.Minimizer.Adam
import QuditSynth.Minimizer.NelderMead
import QuditSynth.Random.SeedStream
import QuditSynth.Circuit
import QuditSynth.Synthesis.Ansatz

namespace QuditSynth

/-! # Layered search

A linear search over the number of entanglers. For each number, several restarts
tune the angles of the ansatz, the first of them going on from the best angles
of the previous number. The first number whose best distance is within tolerance
wins.
-/

/-- What a successful search found. -/
structure Synthesis (R : Type) where
  /-- Instructions on the qudits 0 and 1. -/
  instructions : List (Instruction R)
  distance : R
  layers : Nat
  family : Family
  /-- The angles as the minimizer left them, not reduced modulo their periods. -/
  params : List R
  /-- The best distance for each number of layers up to `layers`. -/
  layerDistances : List R

namespace Synthesis

variable {R : Type}

/-- The instructions moved onto two qudits of a circuit. -/
def remapped (synthesis : Synthesis R) (first second : Qudit) : List (Instruction R) :=
  synthesis.instructions.map fun instruction =>
    instruction.remap fun qudit => if qudit = Generator.localFirst then first else second

/-- The instructions as a circuit on two qudits. -/
def circuit (synthesis : Synthesis R) (dims : Nat × Nat) : Except Error (Circuit R) := do
  (← Circuit.ofDims "synthesized" [dims.1, dims.2]).withInstructions synthesis.instructions

end Synthesis

/-- The outcome of one restart. -/
structure Restart (R : Type) where
  index : Nat
  distance : R
  params : List R

namespace Restart

variable {R : Type} [Scalar R]

/-- Whether a restart beats another: by its distance, then by its index. -/
def beats (restart other : Restart R) : Bool :=
  !Scalar.totalLe other.distance restart.distance ||
    (Scalar.totalLe restart.distance other.distance && decide (restart.index < other.index))

def better (first second : Restart R) : Restart R := if second.beats first then second else first

/-- The best of some restarts. -/
def best : List (Restart R) → Option (Restart R)
  | [] => none
  | first :: rest => some (rest.foldl better first)

end Restart

namespace Search

variable {R : Type} [Scalar R]

/-- How far the ansatz is from the target at some angles. -/
def objective (ansatz : Ansatz R) (target : Operator R) (params : List R) : R :=
  match ansatz.operator params with
  | .ok operator =>
      match operator.distance target with
      | .ok distance => distance
      | .error _ => Scalar.undefined
  | .error _ => Scalar.undefined

def minimize (config : Config R) (objective : List R → R) (start : List R) : Minimum R :=
  match config.optimizer with
  | .adam =>
      let adam : Adam R := { Adam.standard with
        maxIterations := config.maxIterations
        learningRate := config.learningRate
        target := config.tolerance }
      Id.run (adam.minimize (fun params => pure (objective params)) start)
  | .nelderMead =>
      let settings : NelderMead R := { NelderMead.standard with
        maxIterations := config.maxIterations
        target := config.tolerance }
      Id.run (settings.minimize (fun params => pure (objective params)) start)

/-- Parameters cut or padded with zeros to a length. -/
def resize (count : Nat) (params : List R) : List R :=
  params.take count ++ List.replicate (count - params.length) 0

/-- Where a restart begins: at the previous angles for the first restart, if there are any, and
otherwise at random. -/
def start (config : Config R) (ansatz : Ansatz R) (warm : Option (List R)) (index : Nat) :
    List R :=
  match index, warm with
  | 0, some previous => resize ansatz.paramCount previous
  | index, _ =>
      SeedStream.angles (SeedStream.restartSeed config.seed ansatz.layers index) ansatz.paramCount

/-- Runs one restart; a run that broke down has no outcome. -/
def restart (config : Config R) (ansatz : Ansatz R) (target : Operator R)
    (warm : Option (List R)) (index : Nat) : Option (Restart R) :=
  let minimum := minimize config (objective ansatz target) (start config ansatz warm index)
  if Scalar.isFinite minimum.value then some ⟨index, minimum.value, minimum.point⟩ else none

/-- The best of all restarts for one number of layers. -/
def bestRestart (config : Config R) (ansatz : Ansatz R) (target : Operator R)
    (warm : Option (List R)) : Option (Restart R) :=
  Restart.best ((List.range config.restarts).filterMap (restart config ansatz target warm))

/-- Bytes of a distance or of an angle. -/
def numberBytes : Nat := 8

/-- Bytes of the outcome of a restart: its index, its distance and where its angles are. -/
def restartBytes : Nat := 40

/-- Bytes of a vertex of a simplex: where its angles are. -/
def vertexBytes : Nat := 24

/-- A search keeps one distance for every number of layers and the outcomes of all restarts, and
makes room for them before it begins. -/
def checkRoom (config : Config R) : Except Error Unit := do
  checkCapacity config.maxLayers numberBytes
  checkCapacity config.restarts restartBytes

/-- Angles to go on from are kept in a table that grows. -/
def checkWarm (count : Nat) : Option (List R) → Except Error Unit
  | none => .ok ()
  | some previous => checkCapacity (grownCells previous.length count) numberBytes

/-- A simplex has one vertex more than there are angles. -/
def checkVertices (count : Nat) : Optimizer → Except Error Unit
  | .adam => .ok ()
  | .nelderMead => checkCapacity (filledCells (count + 1)) vertexBytes

/-- For every number of layers the restarts make room for the angles they begin with and for the
tables of the minimizer. -/
def checkAngles (config : Config R) (ansatz : Ansatz R) (warm : Option (List R)) :
    Except Error Unit := do
  let count ← ansatz.countParams
  checkCapacity count numberBytes
  checkWarm count warm
  checkVertices count config.optimizer

/-- What a search carries from one number of layers to the next. -/
structure Progress (R : Type) where
  /-- The least distance so far. -/
  best : Option R := none
  /-- The best distance for each number of layers so far, the last one first. -/
  layerDistances : List R := []
  /-- The angles to go on from. -/
  warm : Option (List R) := none

def leastDistance (best : Option R) (distance : R) : R :=
  match best with
  | none => distance
  | some least => Scalar.smaller least distance

/-- Searches the given number of further layer counts, from `layers` on. -/
def climb (config : Config R) (family : Family) (generator : Generator R) (target : Operator R) :
    Nat → Nat → Progress R → Except (CompileError R) (Synthesis R)
  | 0, _, progress =>
      .error (.unreachable (progress.best.getD Scalar.unbounded) config.maxLayers config.tolerance
        progress.layerDistances.reverse)
  | remaining + 1, layers, progress => do
      let ansatz : Ansatz R := ⟨generator, layers⟩
      checkAngles config ansatz progress.warm
      match bestRestart config ansatz target progress.warm with
      | none =>
          climb config family generator target remaining (layers + 1)
            { progress with layerDistances := Scalar.unbounded :: progress.layerDistances }
      | some best =>
          let distances := best.distance :: progress.layerDistances
          if best.distance ≤ Scalar.larger config.tolerance 0 then
            return {
              instructions := ← ansatz.instructions best.params
              distance := best.distance
              layers
              family
              params := best.params
              layerDistances := distances.reverse }
          else
            climb config family generator target remaining (layers + 1)
              { best := some (leastDistance progress.best best.distance)
                layerDistances := distances
                warm := some best.params }

/-- Synthesises a two-qudit operator with a family of entanglers. -/
def synthesizeWith (config : Config R) (family : Family) (target : Operator R)
    (dims : Nat × Nat) : Except (CompileError R) (Synthesis R) := do
  config.validate
  let expected ← word (dims.1 * dims.2)
  if target.dim ≠ expected then
    throw (.circuit (.dimensionMismatch "variational_compile" target.dim expected))
  let generator ← family.generator dims
  checkRoom config
  climb config family generator target config.maxLayers 1 {}

/-- Synthesises a two-qudit operator with the configured family. -/
def synthesize (config : Config R) (target : Operator R) (dims : Nat × Nat) :
    Except (CompileError R) (Synthesis R) :=
  synthesizeWith config config.family target dims

/-- The operator and the dimensions of a circuit, which has to have two qudits. -/
def targetOf [Exponential R] (circuit : Circuit R) : Except Error (Operator R × (Nat × Nat)) := do
  match circuit.dims with
  | [first, second] => return (← circuit.operator, (first, second))
  | dims => throw (.quditCountMismatch circuit.name 2 dims.length)

end Search
end QuditSynth
