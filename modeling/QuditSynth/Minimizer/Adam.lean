import QuditSynth.Minimizer

namespace QuditSynth

/-! # Adam

Steps along a gradient taken by central differences, scaled by running moments
of the gradient. The step size shrinks now and then, and a run that no longer
improves is given up.
-/

structure Adam (R : Type) where
  maxIterations : Nat
  learningRate : R
  /-- How much of the running gradient is kept in each step. -/
  beta1 : R
  /-- How much of the running squared gradient is kept in each step. -/
  beta2 : R
  /-- Keeps the denominator away from zero. -/
  epsilon : R
  /-- The distance of the two points of a difference from the current point. -/
  differenceStep : R
  /-- The factor by which the step size shrinks. -/
  decay : R
  /-- The number of iterations between two shrinkings. -/
  decayEvery : Nat
  /-- The number of iterations without improvement after which a run is given up. -/
  patience : Nat
  /-- A value at which the run is content. -/
  target : R

namespace Adam

/-- Where a run stands between two iterations. -/
structure State (R : Type) where
  point : List R
  bestPoint : List R
  bestValue : R
  gradientMoment : List R
  squareMoment : List R
  /-- Iterations since the last improvement. -/
  stall : Nat
  evaluations : Nat
  iterations : Nat

/-- A state with which a run goes on, or with which it stops. -/
inductive Progress (R : Type)
  | goOn (state : State R)
  | stop (state : State R)

variable {R : Type} [Scalar R]

def standard : Adam R where
  maxIterations := 600
  learningRate := 0.08
  beta1 := 0.9
  beta2 := 0.999
  epsilon := 1e-8
  differenceStep := 1e-6
  decay := 0.6
  decayEvery := 100
  patience := 80
  target := -Scalar.unbounded

/-- An improvement smaller than this does not count. -/
def leastGain : R := 1e-14

/-- The central differences at a point, coordinate by coordinate. -/
@[specialize]
def gradient {m : Type → Type} [Monad m] (adam : Adam R) (objective : List R → m R)
    (point : List R) : m (List R) :=
  (List.range point.length).mapM fun index => do
    let above ← objective (point.modify index (· + adam.differenceStep))
    let below ← objective (point.modify index (· - adam.differenceStep))
    return (above - below) / (Scalar.two * adam.differenceStep)

/-- The running average with a new sample. -/
def blend (keep : R) (average sample : List R) : List R :=
  average.zipWith (fun old new => keep * old + (1 - keep) * new) sample

/-- The running average of squares with a new sample. -/
def blendSquare (keep : R) (average sample : List R) : List R :=
  average.zipWith (fun old new => keep * old + (1 - keep) * new * new) sample

/-- Exponents are signed and stored in 32 bits. -/
def exponentLimit : Nat := Nat.pow 2 32

/-- The power of a base for a number of iterations. -/
def power (base : R) (count : Nat) : R := Scalar.powInt base ((count : Int).bmod exponentLimit)

/-- The point after a step, given the updated moments. -/
def move (adam : Adam R) (iteration : Nat) (point gradientMoment squareMoment : List R) : List R :=
  let rate := adam.learningRate * power adam.decay (iteration / max adam.decayEvery 1)
  let bias1 := 1 - power adam.beta1 iteration
  let bias2 := 1 - power adam.beta2 iteration
  point.zipWith (fun x step => x - step)
    (gradientMoment.zipWith (fun m v =>
      rate * (m / bias1) / (Scalar.sqrt (v / bias2) + adam.epsilon)) squareMoment)

/-- What the value at the new point means for the run. -/
def judge (adam : Adam R) (state : State R) (value : R) : Progress R :=
  if !Scalar.isFinite value then .stop { state with bestValue := value }
  else if value < state.bestValue - leastGain then
    let state := { state with bestValue := value, bestPoint := state.point, stall := 0 }
    if state.bestValue ≤ adam.target then .stop state else .goOn state
  else
    let state := { state with stall := state.stall + 1 }
    if adam.patience ≤ state.stall ∨ state.bestValue ≤ adam.target then .stop state
    else .goOn state

/-- One iteration: a gradient, a step and a value at the new point. -/
@[specialize]
def step {m : Type → Type} [Monad m] (adam : Adam R) (objective : List R → m R)
    (state : State R) : m (Progress R) := do
  let gradient ← adam.gradient objective state.point
  let state := { state with
    iterations := state.iterations + 1
    evaluations := state.evaluations + 2 * state.point.length }
  if gradient.any fun slope => !Scalar.isFinite slope then
    return .stop { state with bestValue := Scalar.undefined }
  else
    let gradientMoment := blend adam.beta1 state.gradientMoment gradient
    let squareMoment := blendSquare adam.beta2 state.squareMoment gradient
    let point := adam.move state.iterations state.point gradientMoment squareMoment
    let value ← objective point
    return adam.judge
      { state with point, gradientMoment, squareMoment, evaluations := state.evaluations + 1 } value

/-- At most the given number of iterations. -/
@[specialize]
def iterate {m : Type → Type} [Monad m] (adam : Adam R) (objective : List R → m R) :
    Nat → State R → m (State R)
  | 0, state => return state
  | remaining + 1, state => do
      match ← adam.step objective state with
      | .goOn state => adam.iterate objective remaining state
      | .stop state => return state

def State.result (state : State R) (target : R) : Minimum R where
  point := state.bestPoint
  value := state.bestValue
  evaluations := state.evaluations
  iterations := state.iterations
  converged := decide (state.bestValue ≤ target)

@[specialize]
def minimize {m : Type → Type} [Monad m] (adam : Adam R) (objective : List R → m R)
    (start : List R) : m (Minimum R) := do
  let value ← objective start
  let zeros := List.replicate start.length 0
  let state : State R :=
    { point := start, bestPoint := start, bestValue := value, gradientMoment := zeros,
      squareMoment := zeros, stall := 0, evaluations := 1, iterations := 0 }
  if !Scalar.isFinite value || decide (value ≤ adam.target) || start.isEmpty then
    return state.result adam.target
  else
    return (← adam.iterate objective adam.maxIterations state).result adam.target

end Adam
end QuditSynth
