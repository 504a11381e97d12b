import QuditSynth.Minimizer

namespace QuditSynth

/-! # Nelder–Mead

A simplex of one point more than there are coordinates moves downhill: its worst
vertex is reflected, expanded or contracted through the centroid of the others,
and failing that the simplex shrinks towards its best vertex.
-/

structure NelderMead (R : Type) where
  maxIterations : Nat
  /-- The length of the edges of the first simplex. -/
  initialStep : R
  /-- A simplex whose values spread less than this is given up. -/
  spread : R
  /-- A value at which the run is content. -/
  target : R

namespace NelderMead

/-- A point with the value of the objective there. -/
structure Vertex (R : Type) where
  point : List R
  value : R
deriving Repr

/-- Where a run stands between two iterations. -/
structure State (R : Type) where
  vertices : List (Vertex R)
  evaluations : Nat
  iterations : Nat
  converged : Bool

/-- A state with which a run goes on, or with which it stops. -/
inductive Progress (R : Type)
  | goOn (state : State R)
  | stop (state : State R)

variable {R : Type} [Scalar R]

def standard : NelderMead R where
  maxIterations := 2000
  initialStep := 0.5
  spread := 1e-12
  target := -Scalar.unbounded

/-- Vertices with their positions, the least value first; equal values keep their order. -/
def ranked (vertices : List (Vertex R)) : List (Vertex R × Nat) :=
  vertices.zipIdx.mergeSort fun a b => Scalar.totalLe a.1.value b.1.value

/-- The first vertex of least value. -/
def lowest : List (Vertex R) → Option (Vertex R)
  | [] => none
  | first :: rest => some (rest.foldl (fun best vertex =>
      if Scalar.totalLe best.value vertex.value then best else vertex) first)

/-- The mean of some points. -/
def centroid (dimension : Nat) (points : List (List R)) : List R :=
  let sum := points.foldl (fun total point => total.zipWith (· + ·) point)
    (List.replicate dimension 0)
  sum.map (· / Scalar.ofNat points.length)

/-- The point on the line from a vertex through the centroid, `scale` times as far beyond it. -/
def beyond (centroid vertex : List R) (scale : R) : List R :=
  centroid.zipWith (fun c w => c + scale * (c - w)) vertex

variable {m : Type → Type} [Monad m]

/-- Asks for the value at a point. -/
@[specialize]
def probe (objective : List R → m R) (point : List R) : m (Vertex R) := do
  return ⟨point, ← objective point⟩

/-- Moves every vertex but one halfway towards it. -/
@[specialize]
def shrink (objective : List R → m R) (vertices : List (Vertex R)) (best : Vertex R × Nat) :
    m (List (Vertex R)) :=
  vertices.zipIdx.mapM fun (vertex, position) =>
    if position = best.2 then return vertex
    else probe objective (vertex.point.zipWith (fun x a => 0.5 * (x + a)) best.1.point)

/-- One move of the simplex, given its best, its two worst vertices and the centroid of all but the
worst. -/
@[specialize]
def move (objective : List R → m R) (state : State R) (best worst secondWorst : Vertex R × Nat)
    (centroid : List R) : m (State R) := do
  let replaced (vertex : Vertex R) (count : Nat) : State R :=
    { state with
      vertices := state.vertices.set worst.2 vertex
      evaluations := state.evaluations + count }
  let reflected ← probe objective (beyond centroid worst.1.point 1)
  if reflected.value < best.1.value then
    let expanded ← probe objective (beyond centroid worst.1.point Scalar.two)
    if expanded.value < reflected.value then return replaced expanded 2
    else return replaced reflected 2
  else if reflected.value < secondWorst.1.value then return replaced reflected 1
  else
    let contracted ← probe objective (beyond centroid worst.1.point (-0.5))
    if contracted.value < worst.1.value then return replaced contracted 2
    else
      let vertices ← shrink objective state.vertices best
      return { state with
        vertices
        evaluations := state.evaluations + 2 + (state.vertices.length - 1) }

/-- One iteration: ranks the vertices, and stops or moves. -/
@[specialize]
def step (settings : NelderMead R) (objective : List R → m R) (state : State R) :
    m (Progress R) := do
  let state := { state with iterations := state.iterations + 1 }
  let order := ranked state.vertices
  match order.reverse, order with
  | worst :: secondWorst :: _, best :: _ =>
      if !Scalar.isFinite best.1.value then return .stop state
      else if best.1.value ≤ settings.target then return .stop { state with converged := true }
      else if Scalar.abs (worst.1.value - best.1.value) < settings.spread then return .stop state
      else
        let others := order.dropLast.map fun (vertex, _) => vertex.point
        let centroid := centroid best.1.point.length others
        return .goOn (← move objective state best worst secondWorst centroid)
  | _, _ => return .stop state

/-- At most the given number of iterations. -/
@[specialize]
def iterate (settings : NelderMead R) (objective : List R → m R) : Nat → State R → m (State R)
  | 0, state => return state
  | remaining + 1, state => do
      match ← settings.step objective state with
      | .goOn state => settings.iterate objective remaining state
      | .stop state => return state

/-- The start and one further point along every coordinate. -/
def simplex (settings : NelderMead R) (start : List R) : List (List R) :=
  start :: (List.range start.length).map fun index => start.modify index (· + settings.initialStep)

def State.result (state : State R) (start : Vertex R) (target : R) : Minimum R :=
  let best := (lowest state.vertices).getD start
  { point := best.point
    value := best.value
    evaluations := state.evaluations
    iterations := state.iterations
    converged := state.converged || decide (best.value ≤ target) }

@[specialize]
def minimize (settings : NelderMead R) (objective : List R → m R) (start : List R) :
    m (Minimum R) := do
  let first ← probe objective start
  let others ← (settings.simplex start).tail.mapM (probe objective)
  let state : State R :=
    { vertices := first :: others
      evaluations := 1 + others.length
      iterations := 0
      converged := decide (first.value ≤ settings.target) }
  if state.converged || start.isEmpty then return state.result first settings.target
  else
    return (← settings.iterate objective settings.maxIterations state).result first settings.target

end NelderMead
end QuditSynth
