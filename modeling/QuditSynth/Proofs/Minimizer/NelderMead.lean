import Mathlib.Data.List.Infix
import Mathlib.Data.List.Sigma
import QuditSynth.Minimizer.NelderMead
import QuditSynth.Proofs.Minimizer.Recording

namespace QuditSynth

/-! # The books of a simplex search

The vertices of a simplex carry the values at their points. A move replaces the
worst vertex or draws all vertices but the best towards it, so each vertex stays
true to the objective. Each step says what it makes of a state and which points it
asks for; whatever these keep, a run keeps.
-/

section Fold

variable {α : Type} {pick : α → α → α} {first : α} {rest : List α}

/-- Picking from a list, element by element, ends with one of its elements. -/
theorem foldl_pick_mem (picked : ∀ a b, pick a b = a ∨ pick a b = b) :
    rest.foldl pick first ∈ first :: rest := by
  induction rest generalizing first with
  | nil => exact List.mem_cons_self
  | cons second rest ih =>
      rw [List.foldl_cons]
      rcases picked first second with same | same
      · rw [same]
        rcases List.mem_cons.mp ih with atFirst | later
        · exact atFirst ▸ List.mem_cons_self
        · exact List.mem_cons_of_mem _ (List.mem_cons_of_mem _ later)
      · rw [same]
        exact List.mem_cons_of_mem _ ih

theorem foldl_pick_le (below : α → α → Prop) (refl : ∀ a, below a a)
    (trans : ∀ a b c, below a b → below b c → below a c) (lower : ∀ a b, below (pick a b) a)
    (lowerNext : ∀ a b, below (pick a b) b) :
    ∀ element ∈ first :: rest, below (rest.foldl pick first) element := by
  induction rest generalizing first with
  | nil =>
      intro element member
      rw [List.mem_singleton.mp member]
      exact refl first
  | cons second rest ih =>
      rw [List.foldl_cons]
      have reached : below (rest.foldl pick (pick first second)) (pick first second) :=
        ih _ List.mem_cons_self
      intro element member
      rcases List.mem_cons.mp member with rfl | member
      · exact trans _ _ _ reached (lower _ _)
      · rcases List.mem_cons.mp member with rfl | later
        · exact trans _ _ _ reached (lowerNext _ _)
        · exact ih _ (List.mem_cons_of_mem _ later)

end Fold

namespace NelderMead

variable {R : Type} [Scalar R]

def Progress.state : Progress R → State R
  | .goOn state => state
  | .stop state => state

variable {settings : NelderMead R} {objective : List R → R} {dimension : Nat} {state : State R}
  {vertices : List (Vertex R)} {best worst secondWorst : Vertex R × Nat} {centroid : List R}

theorem lowest_mem {vertex : Vertex R} (found : lowest vertices = some vertex) :
    vertex ∈ vertices := by
  cases vertices with
  | nil => cases found
  | cons first rest =>
      cases found
      refine foldl_pick_mem fun a b => ?_
      split
      · exact Or.inl rfl
      · exact Or.inr rfl

theorem mem_ranked_iff {vertex : Vertex R × Nat} :
    vertex ∈ ranked vertices ↔ vertices[vertex.2]? = some vertex.1 :=
  List.mem_mergeSort.trans List.mem_zipIdx_iff_getElem?

theorem nodup_ranked (vertices : List (Vertex R)) : ((ranked vertices).map Prod.snd).Nodup :=
  ((List.mergeSort_perm _ _).map Prod.snd).nodup_iff.mpr (List.nodup_zipIdx_map_snd vertices)

/-! ## One move -/

/-- A point with the value there. -/
def sample (objective : List R → R) (point : List R) : Vertex R := ⟨point, objective point⟩

/-- The mean of all vertices but the worst. -/
def centre (vertices : List (Vertex R)) (best : Vertex R × Nat) : List R :=
  NelderMead.centroid best.1.point.length
    ((ranked vertices).dropLast.map fun (vertex, _) => vertex.point)

/-- The vertices drawn halfway towards one of them, which stays. -/
def shrunk (objective : List R → R) (vertices : List (Vertex R)) (best : Vertex R × Nat) :
    List (Vertex R) :=
  vertices.zipIdx.map fun (vertex, position) =>
    if position = best.2 then vertex
    else sample objective (vertex.point.zipWith (fun x a => 0.5 * (x + a)) best.1.point)

theorem shrink_eq (objective : List R → R) (vertices : List (Vertex R)) (best : Vertex R × Nat) :
    Id.run (shrink (fun point => pure (objective point)) vertices best) =
      shrunk objective vertices best := by
  rw [shrink, List.idRun_mapM, shrunk]
  refine List.map_congr_left fun (vertex, position) _ => ?_
  dsimp only
  split <;> rfl

omit [Scalar R] in
theorem asks_probe (objective : List R → R) (point : List R) :
    Asks (probe (ask objective) point) (sample objective point) [point] :=
  (asks_ask objective point).bind (asks_pure _)

/-- Every entry of a list but the one at a position. -/
theorem length_flatMap_skip {α β : Type} (f : α → β) (position : Nat) (elements : List α)
    (first : Nat) :
    ((elements.zipIdx first).flatMap fun entry =>
      if entry.2 = position then [] else [f entry.1]).length +
        (if first ≤ position ∧ position < first + elements.length then 1 else 0) =
      elements.length := by
  induction elements generalizing first with
  | nil => simp
  | cons a elements ih =>
      have rest := ih (first + 1)
      rw [List.zipIdx_cons, List.flatMap_cons, List.length_append, List.length_cons]
      by_cases here : first = position
      · rw [if_neg (by omega)] at rest
        rw [if_pos here, if_pos (by omega), List.length_nil]
        omega
      · have same : (first ≤ position ∧ position < first + (elements.length + 1)) ↔
            (first + 1 ≤ position ∧ position < first + 1 + elements.length) := by
          omega
        rw [if_neg here, List.length_singleton]
        simp only [same]
        omega

/-- The points that a shrinking simplex asks for. -/
def drawn (vertices : List (Vertex R)) (best : Vertex R × Nat) : List (List R) :=
  vertices.zipIdx.flatMap fun entry =>
    if entry.2 = best.2 then []
    else [entry.1.point.zipWith (fun x a => 0.5 * (x + a)) best.1.point]

theorem shrink_asks (objective : List R → R) (vertices : List (Vertex R)) (best : Vertex R × Nat) :
    Asks (shrink (ask objective) vertices best) (shrunk objective vertices best)
      (drawn vertices best) := by
  refine Asks.mapM (fun entry => ?_) vertices.zipIdx
  by_cases same : entry.2 = best.2
  · simp only [if_pos same]
    exact asks_pure entry.1
  · simp only [if_neg same]
    exact asks_probe objective _

theorem length_drawn (placed : best.2 < vertices.length) :
    (drawn vertices best).length = vertices.length - 1 := by
  have count := length_flatMap_skip
    (fun vertex : Vertex R => vertex.point.zipWith (fun x a => 0.5 * (x + a)) best.1.point)
    best.2 vertices 0
  rw [if_pos (by omega)] at count
  exact Nat.eq_sub_of_add_eq count

def State.replaced (state : State R) (position : Nat) (vertex : Vertex R) (count : Nat) : State R :=
  { state with
    vertices := state.vertices.set position vertex
    evaluations := state.evaluations + count }

/-- What a move makes of a state, and the points it asks for. The points on the line from the worst
vertex through the centroid are given by how far beyond it they lie. -/
inductive Moves (objective : List R → R) (state : State R)
    (best worst secondWorst : Vertex R × Nat) (along : R → List R) :
    State R → List (List R) → Prop
  | expands (lower : objective (along 1) < best.1.value)
      (further : objective (along Scalar.two) < objective (along 1)) :
      Moves objective state best worst secondWorst along
        (state.replaced worst.2 (sample objective (along Scalar.two)) 2)
        [along 1, along Scalar.two]
  | reflects (lower : objective (along 1) < best.1.value)
      (nearer : ¬ objective (along Scalar.two) < objective (along 1)) :
      Moves objective state best worst secondWorst along
        (state.replaced worst.2 (sample objective (along 1)) 2) [along 1, along Scalar.two]
  | accepts (above : ¬ objective (along 1) < best.1.value)
      (lower : objective (along 1) < secondWorst.1.value) :
      Moves objective state best worst secondWorst along
        (state.replaced worst.2 (sample objective (along 1)) 1) [along 1]
  | contracts (above : ¬ objective (along 1) < best.1.value)
      (lower : objective (along (-0.5)) < worst.1.value) :
      Moves objective state best worst secondWorst along
        (state.replaced worst.2 (sample objective (along (-0.5))) 2) [along 1, along (-0.5)]
  | shrinks (above : ¬ objective (along 1) < best.1.value)
      (higher : ¬ objective (along (-0.5)) < worst.1.value) :
      Moves objective state best worst secondWorst along
        { state with
          vertices := shrunk objective state.vertices best
          evaluations := state.evaluations + 2 + (state.vertices.length - 1) }
        (along 1 :: along (-0.5) :: drawn state.vertices best)

theorem move_asks (objective : List R → R) (state : State R)
    (best worst secondWorst : Vertex R × Nat) (centroid : List R) :
    ∃ next points,
      Id.run (move (fun point => pure (objective point)) state best worst secondWorst centroid) =
        next ∧
      Asks (move (ask objective) state best worst secondWorst centroid) next points ∧
      Moves objective state best worst secondWorst (beyond centroid worst.1.point) next points := by
  have recorded := fun scale => asks_probe objective (beyond centroid worst.1.point scale)
  by_cases lower : objective (beyond centroid worst.1.point 1) < best.1.value
  · by_cases further : objective (beyond centroid worst.1.point Scalar.two) <
        objective (beyond centroid worst.1.point 1)
    · refine ⟨_, _, ?_, (recorded 1).bind ?_, .expands lower further⟩
      · simp only [move, probe, pure_bind, lower, further, ↓reduceIte]
        rfl
      · simp only [sample, lower, ↓reduceIte]
        refine (recorded Scalar.two).bind ?_
        simp only [sample, further, ↓reduceIte]
        exact asks_pure _
    · refine ⟨_, _, ?_, (recorded 1).bind ?_, .reflects lower further⟩
      · simp only [move, probe, pure_bind, lower, further, ↓reduceIte]
        rfl
      · simp only [sample, lower, ↓reduceIte]
        refine (recorded Scalar.two).bind ?_
        simp only [sample, further, ↓reduceIte]
        exact asks_pure _
  · by_cases middling : objective (beyond centroid worst.1.point 1) < secondWorst.1.value
    · refine ⟨_, _, ?_, (recorded 1).bind ?_, .accepts lower middling⟩
      · simp only [move, probe, pure_bind, lower, middling, ↓reduceIte]
        rfl
      · simp only [sample, lower, middling, ↓reduceIte]
        exact asks_pure _
    · by_cases inner : objective (beyond centroid worst.1.point (-0.5)) < worst.1.value
      · refine ⟨_, _, ?_, (recorded 1).bind ?_, .contracts lower inner⟩
        · simp only [move, probe, pure_bind, lower, middling, inner, ↓reduceIte]
          rfl
        · simp only [sample, lower, middling, ↓reduceIte]
          refine (recorded (-0.5)).bind ?_
          simp only [sample, inner, ↓reduceIte]
          exact asks_pure _
      · refine ⟨_, _, ?_, (recorded 1).bind ?_, .shrinks lower inner⟩
        · simp only [move, probe, pure_bind, lower, middling, inner, ↓reduceIte, Id.run_bind,
            shrink_eq]
          rfl
        · simp only [sample, lower, middling, ↓reduceIte]
          refine (recorded (-0.5)).bind ?_
          simp only [sample, inner, ↓reduceIte]
          exact (shrink_asks objective state.vertices best).bind_pure _

/-- The best and the worst vertex of a simplex, each with its position. -/
structure Corners (vertices : List (Vertex R)) (best worst : Vertex R × Nat) : Prop where
  bestAt : vertices[best.2]? = some best.1
  worstAt : vertices[worst.2]? = some worst.1
  apart : worst.2 ≠ best.2
  first : ∃ rest, ranked vertices = best :: rest

theorem corners_of_ranked {rest others : List (Vertex R × Nat)}
    (backwards : (ranked vertices).reverse = worst :: secondWorst :: others)
    (forwards : ranked vertices = best :: rest) : Corners vertices best worst := by
  have worstIn : worst ∈ rest := by
    rw [forwards, List.reverse_cons] at backwards
    cases reversed : rest.reverse with
    | nil => simp [reversed] at backwards
    | cons last before =>
        rw [reversed, List.cons_append, List.cons.injEq] at backwards
        rw [← List.mem_reverse, reversed, backwards.1]
        exact List.mem_cons_self
  have distinct := nodup_ranked vertices
  rw [forwards, List.map_cons, List.nodup_cons] at distinct
  refine ⟨?_, ?_, fun same => distinct.1 (same ▸ List.mem_map_of_mem worstIn), rest, forwards⟩
  · exact mem_ranked_iff.mp (forwards ▸ List.mem_cons_self)
  · exact mem_ranked_iff.mp (forwards ▸ List.mem_cons_of_mem _ worstIn)

/-- What a step makes of a state, and the points it asks for. -/
inductive Steps (settings : NelderMead R) (objective : List R → R) (state : State R) :
    Progress R → List (List R) → Prop
  | stopped (converged : Bool) (reached : converged = true →
      state.converged = true ∨ ∃ vertex ∈ state.vertices, vertex.value ≤ settings.target) :
      Steps settings objective state
        (.stop { state with iterations := state.iterations + 1, converged }) []
  | moved {best worst secondWorst : Vertex R × Nat} {next : State R} {points : List (List R)}
      (corners : Corners state.vertices best worst)
      (moves : Moves objective { state with iterations := state.iterations + 1 } best worst
        secondWorst (beyond (centre state.vertices best) worst.1.point) next points) :
      Steps settings objective state (.goOn next) points

theorem step_asks (settings : NelderMead R) (objective : List R → R) (state : State R) :
    ∃ next points,
      Id.run (settings.step (fun point => pure (objective point)) state) = next ∧
      Asks (settings.step (ask objective) state) next points ∧
      Steps settings objective state next points := by
  have unmoved : Steps settings objective state
      (.stop { state with iterations := state.iterations + 1 }) [] := .stopped _ Or.inl
  simp only [step]
  split
  · next worst secondWorst others best rest backwards forwards =>
    have corners := corners_of_ranked backwards forwards
    by_cases broken : (!Scalar.isFinite best.1.value) = true
    · simp only [broken, ↓reduceIte]
      exact ⟨_, _, rfl, asks_pure _, unmoved⟩
    · by_cases reached : best.1.value ≤ settings.target
      · simp only [broken, reached, ↓reduceIte, Bool.false_eq_true]
        exact ⟨_, _, rfl, asks_pure _, .stopped true fun _ =>
          Or.inr ⟨best.1, List.mem_of_getElem? corners.bestAt, reached⟩⟩
      · by_cases flat : Scalar.abs (worst.1.value - best.1.value) < settings.spread
        · simp only [broken, reached, flat, ↓reduceIte, Bool.false_eq_true]
          exact ⟨_, _, rfl, asks_pure _, unmoved⟩
        · simp only [broken, reached, flat, ↓reduceIte, Bool.false_eq_true]
          obtain ⟨next, points, moved, asked, moves⟩ := move_asks objective
            { state with iterations := state.iterations + 1 } best worst secondWorst
            (centre state.vertices best)
          exact ⟨.goOn next, points, congrArg Progress.goOn moved, asked.bind_pure _,
            .moved corners moves⟩
  · exact ⟨_, _, rfl, asks_pure _, unmoved⟩

/-! ## Runs -/

theorem Moves.iterations_eq {along : R → List R} {next : State R} {points : List (List R)}
    (moves : Moves objective state best worst secondWorst along next points) :
    next.iterations = state.iterations := by
  cases moves <;> rfl

theorem Steps.iterations_eq {next : Progress R} {points : List (List R)}
    (steps : Steps settings objective state next points) :
    next.state.iterations = state.iterations + 1 := by
  cases steps with
  | stopped => rfl
  | moved _ moves => exact moves.iterations_eq

/-- What every step keeps of a state and the points asked for so far, a run keeps. -/
theorem iterate_asks {invariant : State R → List (List R) → Prop}
    (kept : ∀ state asked next points, Steps settings objective state next points →
      invariant state asked → invariant next.state (asked ++ points))
    (remaining : Nat) {asked : List (List R)} (initial : invariant state asked) :
    ∃ final points,
      Id.run (settings.iterate (fun point => pure (objective point)) remaining state) = final ∧
      Asks (settings.iterate (ask objective) remaining state) final points ∧
      invariant final (asked ++ points) ∧ final.iterations ≤ state.iterations + remaining := by
  induction remaining generalizing state asked with
  | zero =>
      refine ⟨state, [], rfl, asks_pure state, ?_, le_refl _⟩
      rwa [List.append_nil]
  | succ remaining ih =>
      obtain ⟨next, points, stepped, recorded, steps⟩ := step_asks settings objective state
      have after := kept state asked next points steps initial
      have counted := steps.iterations_eq
      simp only [iterate, Id.run_bind, stepped]
      cases next with
      | goOn next =>
          obtain ⟨final, more, finished, rest, held, bound⟩ := ih after
          refine ⟨final, points ++ more, finished, recorded.bind rest, ?_, by omega⟩
          rwa [← List.append_assoc]
      | stop last =>
          change last.iterations = state.iterations + 1 at counted
          refine ⟨last, points, rfl, ?_, after, by omega⟩
          rw [← List.append_nil points]
          exact recorded.bind (asks_pure last)

def begin (settings : NelderMead R) (objective : List R → R) (start : List R) : List (Vertex R) :=
  (settings.simplex start).map (sample objective)

/-- Where a run stands before its first iteration. -/
def opening (settings : NelderMead R) (objective : List R → R) (start : List R) : State R where
  vertices := settings.begin objective start
  evaluations := 1 + ((settings.simplex start).tail.map (sample objective)).length
  iterations := 0
  converged := decide (objective start ≤ settings.target)

/-- What is left of a run once the first simplex is sampled. -/
def conclude {m : Type → Type} [Monad m] (settings : NelderMead R) (objective : List R → m R)
    (start : List R) (first : Vertex R) (state : State R) : m (Minimum R) :=
  if state.converged || start.isEmpty then return state.result first settings.target
  else
    return (← settings.iterate objective settings.maxIterations state).result first settings.target

theorem minimize_eq (settings : NelderMead R) (objective : List R → R) (start : List R) :
    Id.run (settings.minimize (fun point => pure (objective point)) start) =
      Id.run (settings.conclude (fun point => pure (objective point)) start
        (sample objective start) (settings.opening objective start)) := by
  have sampled : Id.run ((settings.simplex start).tail.mapM
      (probe fun point => pure (objective point))) =
        (settings.simplex start).tail.map (sample objective) := List.idRun_mapM
  simp only [minimize, Id.run_bind, sampled]
  rfl

theorem asks_minimize {minimum : Minimum R} {points : List (List R)} (settings : NelderMead R)
    (objective : List R → R) (start : List R)
    (rest : Asks (settings.conclude (ask objective) start (sample objective start)
      (settings.opening objective start)) minimum points) :
    Asks (settings.minimize (ask objective) start) minimum (settings.simplex start ++ points) := by
  have others := Asks.mapM (asks_probe objective) (settings.simplex start).tail
  rw [List.flatMap_singleton'] at others
  exact (asks_probe objective start).bind (Asks.bind others rest)

theorem minimize_asks (settings : NelderMead R) (objective : List R → R) (start : List R)
    (invariant : State R → List (List R) → Prop)
    (initial : invariant (settings.opening objective start) (settings.simplex start))
    (kept : ∀ state asked next points, Steps settings objective state next points →
      invariant state asked → invariant next.state (asked ++ points)) :
    ∃ final points,
      Id.run (settings.minimize (fun point => pure (objective point)) start) =
        final.result (sample objective start) settings.target ∧
      Asks (settings.minimize (ask objective) start)
        (final.result (sample objective start) settings.target)
        (settings.simplex start ++ points) ∧
      invariant final (settings.simplex start ++ points) ∧
      final.iterations ≤ settings.maxIterations := by
  rw [minimize_eq]
  by_cases done : ((settings.opening objective start).converged || start.isEmpty) = true
  · refine ⟨settings.opening objective start, [], ?_, asks_minimize settings objective start ?_, ?_,
      Nat.zero_le _⟩
    · rw [conclude, if_pos done]
      rfl
    · rw [conclude, if_pos done]
      exact asks_pure _
    · rwa [List.append_nil]
  · obtain ⟨final, points, finished, recorded, held, bound⟩ :=
      iterate_asks kept settings.maxIterations initial
    refine ⟨final, points, ?_, asks_minimize settings objective start ?_, held,
      bound.trans (Nat.zero_add _).le⟩
    · rw [conclude, if_neg done, Id.run_bind, finished]
      rfl
    · rw [conclude, if_neg done]
      exact recorded.bind_pure _

/-- A vertex of a dimension that carries the value at its point. -/
def Vertex.Faithful (objective : List R → R) (dimension : Nat) (vertex : Vertex R) : Prop :=
  vertex.point.length = dimension ∧ vertex.value = objective vertex.point

omit [Scalar R] in
theorem faithful_sample {point : List R} (length : point.length = dimension) :
    (sample objective point).Faithful objective dimension := ⟨length, rfl⟩

theorem length_centroid {points : List (List R)}
    (lengths : ∀ point ∈ points, point.length = dimension) :
    (NelderMead.centroid dimension points).length = dimension := by
  have sums : ∀ total : List R, total.length = dimension →
      (points.foldl (fun total point => total.zipWith (· + ·) point) total).length = dimension := by
    induction points with
    | nil => exact fun total length => length
    | cons point points ih =>
        obtain ⟨pointLength, others⟩ := List.forall_mem_cons.mp lengths
        intro total length
        exact ih others _ (by simp [length, pointLength])
  simp [NelderMead.centroid, sums _ List.length_replicate]

theorem length_centre
    (faithful : ∀ vertex ∈ vertices, vertex.Faithful objective dimension)
    (bestLength : best.1.point.length = dimension) : (centre vertices best).length = dimension := by
  rw [centre, bestLength]
  refine length_centroid fun point member => ?_
  obtain ⟨vertex, listed, rfl⟩ := List.mem_map.mp member
  have place := mem_ranked_iff.mp (List.mem_of_mem_dropLast listed)
  exact (faithful _ (List.mem_of_getElem? place)).1

theorem Corners.length_beyond (corners : Corners vertices best worst)
    (faithful : ∀ vertex ∈ vertices, vertex.Faithful objective dimension) (scale : R) :
    (beyond (centre vertices best) worst.1.point scale).length = dimension := by
  have bestLength := (faithful _ (List.mem_of_getElem? corners.bestAt)).1
  have worstLength := (faithful _ (List.mem_of_getElem? corners.worstAt)).1
  simp [beyond, length_centre faithful bestLength, worstLength]

theorem Moves.vertices_cases {along : R → List R} {next : State R} {points : List (List R)}
    (moves : Moves objective state best worst secondWorst along next points) :
    (∃ scale, next.vertices = state.vertices.set worst.2 (sample objective (along scale))) ∨
    next.vertices = shrunk objective state.vertices best := by
  cases moves with
  | expands => exact Or.inl ⟨Scalar.two, rfl⟩
  | reflects => exact Or.inl ⟨1, rfl⟩
  | accepts => exact Or.inl ⟨1, rfl⟩
  | contracts => exact Or.inl ⟨-0.5, rfl⟩
  | shrinks => exact Or.inr rfl

theorem Steps.faithful {next : Progress R} {points : List (List R)}
    (steps : Steps settings objective state next points)
    (faithful : ∀ vertex ∈ state.vertices, vertex.Faithful objective dimension) :
    ∀ vertex ∈ next.state.vertices, vertex.Faithful objective dimension := by
  cases steps with
  | stopped => exact faithful
  | @moved best worst _ next _ corners moves =>
      have bestLength := (faithful _ (List.mem_of_getElem? corners.bestAt)).1
      intro vertex member
      change vertex ∈ next.vertices at member
      rcases moves.vertices_cases with ⟨scale, replaced⟩ | drawn
      · rw [replaced] at member
        rcases List.mem_or_eq_of_mem_set member with old | rfl
        · exact faithful vertex old
        · exact faithful_sample (corners.length_beyond faithful scale)
      · rw [drawn] at member
        obtain ⟨⟨old, position⟩, listed, rfl⟩ := List.mem_map.mp member
        have oldFaithful := faithful old (List.fst_mem_of_mem_zipIdx listed)
        dsimp only
        split
        · exact oldFaithful
        · exact faithful_sample (by simp [oldFaithful.1, bestLength])

theorem faithful_step
    (faithful : ∀ vertex ∈ state.vertices, vertex.Faithful objective dimension) :
    ∀ vertex ∈ (Id.run (settings.step (fun point => pure (objective point)) state)).state.vertices,
      vertex.Faithful objective dimension := by
  obtain ⟨next, _, stepped, _, steps⟩ := step_asks settings objective state
  rw [stepped]
  exact steps.faithful faithful

theorem faithful_begin (settings : NelderMead R) (objective : List R → R) (start : List R) :
    ∀ vertex ∈ settings.begin objective start, vertex.Faithful objective start.length := by
  intro vertex member
  obtain ⟨point, corner, rfl⟩ := List.mem_map.mp member
  rcases List.mem_cons.mp corner with rfl | shifted
  · exact faithful_sample rfl
  · obtain ⟨index, _, rfl⟩ := List.mem_map.mp shifted
    exact faithful_sample (by simp)

theorem minimize_books (settings : NelderMead R) (objective : List R → R) (start : List R) :
    let minimum := Id.run (settings.minimize (fun point => pure (objective point)) start)
    minimum.point.length = start.length ∧ minimum.value = objective minimum.point := by
  obtain ⟨final, _, reported, _, faithful, _⟩ := minimize_asks settings objective start
    (fun state _ => ∀ vertex ∈ state.vertices, vertex.Faithful objective start.length)
    (faithful_begin settings objective start)
    fun _ _ _ _ steps faithful => steps.faithful faithful
  simp only [reported]
  change ((lowest final.vertices).getD (sample objective start)).Faithful objective start.length
  cases found : lowest final.vertices with
  | none => exact faithful_sample rfl
  | some vertex => exact faithful vertex (lowest_mem found)

end NelderMead
end QuditSynth
