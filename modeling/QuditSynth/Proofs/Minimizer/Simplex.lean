import QuditSynth.Proofs.Minimizer.NelderMead
import QuditSynth.Proofs.Scalar.TotalOrder

namespace QuditSynth.NelderMead

/-! # The best point of a simplex search

The best vertex survives every move, and a candidate is thrown away only for a
vertex that is no worse. Every point a run has asked for is therefore matched by a
vertex of the simplex, and what the run reports is the best of them.
-/

variable {R : Type} [Scalar R] {settings : NelderMead R} {objective : List R → R}
  {dimension : Nat} {state : State R} {vertices : List (Vertex R)}
  {best worst secondWorst : Vertex R × Nat} {along : R → List R} {next : State R}
  {asked points : List (List R)}

theorem finite_of_faithful
    (measured : ∀ point, point.length = dimension → Scalar.isFinite (objective point) = true)
    (faithful : ∀ vertex ∈ vertices, vertex.Faithful objective dimension) :
    ∀ vertex ∈ vertices, Scalar.isFinite vertex.value = true := by
  intro vertex member
  obtain ⟨length, value⟩ := faithful vertex member
  rw [value]
  exact measured _ length

/-- Some vertex is no worse than a bound. -/
def Reaches (vertices : List (Vertex R)) (bound : R) : Prop :=
  ∃ vertex ∈ vertices, vertex.value ≤ bound

section Least

variable (ordered : Scalar.Ranked R)
  (finite : ∀ vertex ∈ vertices, Scalar.isFinite vertex.value = true)

include ordered finite

theorem lowest_le {bound : R} (reached : Reaches vertices bound) :
    ∃ low, lowest vertices = some low ∧ low.value ≤ bound := by
  obtain ⟨vertex, member, small⟩ := reached
  cases vertices with
  | nil => cases member
  | cons first rest =>
      let low := rest.foldl (fun best vertex =>
        if Scalar.totalLe best.value vertex.value then best else vertex) first
      have lowMember : low ∈ first :: rest := lowest_mem rfl
      have least : Scalar.totalLe low.value vertex.value = true := by
        refine foldl_pick_le (fun a b => Scalar.totalLe a.value b.value = true) (fun a => ?_)
          (fun a b c => ordered.totalLe_trans _ _ _) (fun a b => ?_) (fun a b => ?_) vertex member
        · exact (ordered.totalLe_total a.value a.value).elim id id
        · split
          · exact (ordered.totalLe_total a.value a.value).elim id id
          · next larger => exact (ordered.totalLe_total a.value b.value).resolve_left larger
        · split
          · assumption
          · exact (ordered.totalLe_total b.value b.value).elim id id
      refine ⟨low, rfl, ordered.le_bound _ _ _ ?_ small⟩
      exact ordered.le_of_totalLe _ _ (finite low lowMember) (finite vertex member) least

theorem Corners.least (corners : Corners vertices best worst) :
    ∀ vertex ∈ vertices, best.1.value ≤ vertex.value := by
  have sorted : (ranked vertices).Pairwise fun a b =>
      Scalar.totalLe a.1.value b.1.value = true := by
    refine List.pairwise_mergeSort (fun a b c => ?_) (fun a b => ?_) _
    · exact ordered.totalLe_trans _ _ _
    · rw [Bool.or_eq_true]
      exact ordered.totalLe_total _ _
  obtain ⟨rest, forwards⟩ := corners.first
  rw [forwards, List.pairwise_cons] at sorted
  have bestFinite := finite best.1 (List.mem_of_getElem? corners.bestAt)
  intro vertex member
  obtain ⟨position, place⟩ := List.mem_iff_getElem?.mp member
  have listed : (vertex, position) ∈ ranked vertices := mem_ranked_iff.mpr place
  rw [forwards] at listed
  rcases List.mem_cons.mp listed with same | later
  · rw [← same] at bestFinite ⊢
    exact ordered.le_refl _ bestFinite
  · exact ordered.le_of_totalLe _ _ bestFinite (finite vertex member) (sorted.1 _ later)

end Least

/-- The worst vertex is replaced, or all but the best are. -/
theorem Moves.best_mem (moves : Moves objective state best worst secondWorst along next points)
    (corners : Corners state.vertices best worst) :
    best.1 ∈ next.vertices := by
  rcases moves.vertices_cases with ⟨scale, replaced⟩ | drawn
  · rw [replaced]
    apply List.mem_of_getElem? (i := best.2)
    rw [List.getElem?_set_ne corners.apart]
    exact corners.bestAt
  · rw [drawn]
    refine List.mem_map.mpr ⟨best, List.mem_zipIdx_iff_getElem?.mpr corners.bestAt, ?_⟩
    exact if_pos rfl

theorem mem_shrunk {point : List R} (member : point ∈ drawn vertices best) :
    sample objective point ∈ shrunk objective vertices best := by
  obtain ⟨entry, listed, asked⟩ := List.mem_flatMap.mp member
  refine List.mem_map.mpr ⟨entry, listed, ?_⟩
  split at asked
  · cases asked
  · next other =>
    dsimp only
    rw [if_neg other, List.mem_singleton.mp asked]

section Candidates

variable (moves : Moves objective state best worst secondWorst along next points)
  (corners : Corners state.vertices best worst)

include moves corners

theorem Moves.evaluations_eq : next.evaluations = state.evaluations + points.length := by
  have placed : best.2 < state.vertices.length := (List.getElem?_eq_some_iff.mp corners.bestAt).1
  cases moves with
  | expands | reflects | contracts | accepts => rfl
  | shrinks =>
      rw [List.length_cons, List.length_cons, length_drawn placed]
      dsimp only
      omega

variable (faithful : ∀ vertex ∈ state.vertices, vertex.Faithful objective dimension)
  (lengths : ∀ scale, (along scale).length = dimension)

include faithful lengths

theorem Moves.length_points : ∀ point ∈ points, point.length = dimension := by
  have bestLength := (faithful _ (List.mem_of_getElem? corners.bestAt)).1
  cases moves with
  | expands | reflects | contracts =>
      rw [List.forall_mem_cons, List.forall_mem_singleton]
      exact ⟨lengths _, lengths _⟩
  | accepts => exact List.forall_mem_singleton.mpr (lengths 1)
  | shrinks =>
      rw [List.forall_mem_cons, List.forall_mem_cons]
      refine ⟨lengths _, lengths _, fun point member => ?_⟩
      obtain ⟨entry, listed, drawn⟩ := List.mem_flatMap.mp member
      have entryLength := (faithful entry.1 (List.fst_mem_of_mem_zipIdx listed)).1
      split at drawn
      · cases drawn
      · rw [List.mem_singleton.mp drawn]
        simp [entryLength, bestLength]

/-- A candidate that is thrown away is no better than a vertex that is kept. -/
theorem Moves.reaches_points (ordered : Scalar.Ranked R)
    (measured : ∀ point, point.length = dimension → Scalar.isFinite (objective point) = true) :
    ∀ point ∈ points, Reaches next.vertices (objective point) := by
  have finite := finite_of_faithful measured faithful
  have finiteAlong : ∀ scale, Scalar.isFinite (objective (along scale)) = true :=
    fun scale => measured _ (lengths scale)
  have bestKept := moves.best_mem corners
  have bestFinite := finite best.1 (List.mem_of_getElem? corners.bestAt)
  have placed : worst.2 < state.vertices.length := (List.getElem?_eq_some_iff.mp corners.worstAt).1
  have replacing : ∀ vertex : Vertex R, vertex ∈ state.vertices.set worst.2 vertex :=
    fun vertex => List.mem_set placed vertex
  have self : ∀ scale, objective (along scale) ≤ objective (along scale) :=
    fun scale => ordered.le_refl _ (finiteAlong scale)
  have pointLengths := moves.length_points corners faithful lengths
  cases moves with
  | expands lower further =>
      have kept := replacing (sample objective (along Scalar.two))
      rw [List.forall_mem_cons, List.forall_mem_singleton]
      exact ⟨⟨_, kept, ordered.le_of_lt _ _ (finiteAlong _) (finiteAlong _) further⟩,
        ⟨_, kept, self _⟩⟩
  | reflects lower nearer =>
      have kept := replacing (sample objective (along 1))
      rw [List.forall_mem_cons, List.forall_mem_singleton]
      exact ⟨⟨_, kept, self _⟩,
        ⟨_, kept, ordered.le_of_not_lt _ _ (finiteAlong _) (finiteAlong _) nearer⟩⟩
  | accepts above lower =>
      rw [List.forall_mem_singleton]
      exact ⟨_, replacing (sample objective (along 1)), self _⟩
  | contracts above lower =>
      rw [List.forall_mem_cons, List.forall_mem_singleton]
      exact ⟨⟨_, bestKept, ordered.le_of_not_lt _ _ (finiteAlong _) bestFinite above⟩,
        ⟨_, replacing (sample objective (along (-0.5))), self _⟩⟩
  | shrinks above higher =>
      have worstMember := List.mem_of_getElem? corners.worstAt
      have contracted := ordered.le_of_not_lt _ _ (finiteAlong _) (finite _ worstMember) higher
      have least := corners.least ordered finite worst.1 worstMember
      rw [List.forall_mem_cons, List.forall_mem_cons]
      refine ⟨⟨_, bestKept, ordered.le_of_not_lt _ _ (finiteAlong _) bestFinite above⟩,
        ⟨_, bestKept, ordered.le_bound _ _ _ least contracted⟩, fun point member => ?_⟩
      have length := pointLengths point (List.mem_cons_of_mem _ (List.mem_cons_of_mem _ member))
      exact ⟨_, mem_shrunk member, ordered.le_refl _ (measured point length)⟩

end Candidates

/-- What a state and the points asked for so far owe to each other. -/
structure Ledger (settings : NelderMead R) (objective : List R → R) (dimension : Nat)
    (state : State R) (asked : List (List R)) : Prop where
  count : state.vertices.length = dimension + 1
  faithful : ∀ vertex ∈ state.vertices, vertex.Faithful objective dimension
  evaluations : state.evaluations = asked.length
  lengths : ∀ point ∈ asked, point.length = dimension
  reached : ∀ point ∈ asked, Reaches state.vertices (objective point)
  converged : state.converged = true → Reaches state.vertices settings.target

theorem Moves.length_vertices
    (moves : Moves objective state best worst secondWorst along next points) :
    next.vertices.length = state.vertices.length := by
  rcases moves.vertices_cases with ⟨scale, replaced⟩ | drawn
  · rw [replaced, List.length_set]
  · rw [drawn, shrunk, List.length_map, List.length_zipIdx]

theorem Moves.converged_eq
    (moves : Moves objective state best worst secondWorst along next points) :
    next.converged = state.converged := by
  cases moves <;> rfl

/-- One step keeps the ledger. -/
theorem Ledger.step (ordered : Scalar.Ranked R)
    (measured : ∀ point, point.length = dimension → Scalar.isFinite (objective point) = true)
    {after : Progress R} (ledger : Ledger settings objective dimension state asked)
    (steps : Steps settings objective state after points) :
    Ledger settings objective dimension after.state (asked ++ points) := by
  have faithful := steps.faithful ledger.faithful
  cases steps with
  | stopped converged reached =>
      rw [List.append_nil]
      refine ⟨ledger.count, faithful, ledger.evaluations, ledger.lengths, ledger.reached, ?_⟩
      intro set
      rcases reached set with before | now
      · exact ledger.converged before
      · exact now
  | @moved best worst _ next _ corners moves =>
      have finite := finite_of_faithful measured ledger.faithful
      have lengths := corners.length_beyond ledger.faithful
      -- Whatever bound was reached is reached by the best vertex, which stays.
      have stays : ∀ bound, Reaches state.vertices bound → Reaches next.vertices bound := by
        rintro bound ⟨vertex, member, small⟩
        exact ⟨best.1, moves.best_mem corners,
          ordered.le_bound _ _ _ (corners.least ordered finite vertex member) small⟩
      refine ⟨moves.length_vertices.trans ledger.count, faithful, ?_, ?_, ?_, fun set => ?_⟩
      · change next.evaluations = _
        rw [moves.evaluations_eq corners, List.length_append,
          ← ledger.evaluations]
      · exact List.forall_mem_append.mpr
          ⟨ledger.lengths, moves.length_points corners ledger.faithful lengths⟩
      · refine List.forall_mem_append.mpr
          ⟨fun point member => stays _ (ledger.reached point member), ?_⟩
        exact moves.reaches_points corners ledger.faithful lengths ordered measured
      · exact stays _ (ledger.converged (moves.converged_eq.symm.trans set))

theorem Ledger.result_spec (ordered : Scalar.Ranked R)
    (measured : ∀ point, point.length = dimension → Scalar.isFinite (objective point) = true)
    (ledger : Ledger settings objective dimension state asked) (first : Vertex R) :
    ∃ low : Vertex R, low.Faithful objective dimension ∧
      (∀ point ∈ asked, low.value ≤ objective point) ∧
      ((state.converged || decide (low.value ≤ settings.target)) = true ↔
        low.value ≤ settings.target) ∧
      state.result first settings.target = ⟨low.point, low.value, asked.length, state.iterations,
        state.converged || decide (low.value ≤ settings.target)⟩ := by
  have finite := finite_of_faithful measured ledger.faithful
  obtain ⟨vertex, member⟩ : ∃ vertex, vertex ∈ state.vertices :=
    List.exists_mem_of_length_pos (by rw [ledger.count]; exact Nat.succ_pos _)
  obtain ⟨low, found, _⟩ :=
    lowest_le ordered finite ⟨vertex, member, ordered.le_refl _ (finite vertex member)⟩
  have least : ∀ bound, Reaches state.vertices bound → low.value ≤ bound := by
    intro bound reached
    obtain ⟨same, again, lower⟩ := lowest_le ordered finite reached
    rw [found] at again
    cases again
    exact lower
  refine ⟨low, ledger.faithful low (lowest_mem found),
    fun point member => least _ (ledger.reached point member), ?_, ?_⟩
  · rw [Bool.or_eq_true, decide_eq_true_iff, or_iff_right_iff_imp]
    exact fun set => least _ (ledger.converged set)
  · rw [State.result, found, ← ledger.evaluations]
    rfl

theorem ledger_opening (ordered : Scalar.Ranked R) {start : List R}
    (measured : ∀ point, point.length = start.length → Scalar.isFinite (objective point) = true) :
    Ledger settings objective start.length (settings.opening objective start)
      (settings.simplex start) := by
  have sampled : ∀ point ∈ settings.simplex start,
      sample objective point ∈ (settings.opening objective start).vertices :=
    fun point corner => List.mem_map_of_mem corner
  have faithful := faithful_begin settings objective start
  have lengths : ∀ point ∈ settings.simplex start, point.length = start.length :=
    fun point corner => (faithful _ (sampled point corner)).1
  refine ⟨?_, faithful, ?_, lengths, fun point corner => ?_, fun set => ?_⟩
  · simp [opening, begin, simplex]
  · simp [opening, simplex, Nat.add_comm]
  · exact ⟨_, sampled point corner, ordered.le_refl _ (measured point (lengths point corner))⟩
  · exact ⟨_, sampled start List.mem_cons_self, of_decide_eq_true set⟩

theorem minimize_le_start (ordered : Scalar.Ranked R) (settings : NelderMead R) {start : List R}
    (measured : ∀ point, point.length = start.length → Scalar.isFinite (objective point) = true) :
    (Id.run (settings.minimize (fun point => pure (objective point)) start)).value ≤
      objective start := by
  obtain ⟨final, points, reported, _, ledger, _⟩ := minimize_asks settings objective start
    (Ledger settings objective start.length) (ledger_opening ordered measured)
    fun _ _ _ _ steps ledger => ledger.step ordered measured steps
  obtain ⟨low, _, least, _, result⟩ :=
    ledger.result_spec ordered measured (sample objective start)
  rw [reported, result]
  exact least start List.mem_cons_self

/-! ## The states of a run -/

/-- The states between the iterations of a run, from a given one to the last. -/
def visited (settings : NelderMead R) (objective : List R → R) : Nat → State R → List (State R)
  | 0, state => [state]
  | remaining + 1, state =>
      state :: match Id.run (settings.step (fun point => pure (objective point)) state) with
        | .goOn next => settings.visited objective remaining next
        | .stop last => [last]

/-- All states of a run; without coordinates there is nothing to iterate. -/
def visits (settings : NelderMead R) (objective : List R → R) (start : List R) : List (State R) :=
  let state := settings.opening objective start
  if state.converged || start.isEmpty then [state]
  else settings.visited objective settings.maxIterations state

theorem getLast?_visited (settings : NelderMead R) (objective : List R → R) (remaining : Nat)
    (state : State R) : (settings.visited objective remaining state).getLast? =
      some (Id.run (settings.iterate (fun point => pure (objective point)) remaining state)) := by
  induction remaining generalizing state with
  | zero => rfl
  | succ remaining ih =>
      rw [visited, iterate, Id.run_bind]
      cases Id.run (settings.step (fun point => pure (objective point)) state) with
      | goOn next =>
          rw [List.getLast?_cons, ih next]
          rfl
      | stop last => rfl

theorem visited_keeps {invariant : State R → Prop}
    (kept : ∀ state next points, Steps settings objective state next points →
      invariant state → invariant next.state)
    (remaining : Nat) (initial : invariant state) :
    ∀ reached ∈ settings.visited objective remaining state, invariant reached := by
  induction remaining generalizing state with
  | zero => exact List.forall_mem_singleton.mpr initial
  | succ remaining ih =>
      obtain ⟨next, points, stepped, _, steps⟩ := step_asks settings objective state
      have after := kept state next points steps initial
      rw [visited, stepped]
      cases next with
      | goOn next => exact List.forall_mem_cons.mpr ⟨initial, ih after⟩
      | stop last =>
          exact List.forall_mem_cons.mpr ⟨initial, List.forall_mem_singleton.mpr after⟩

theorem minimize_eq_last (settings : NelderMead R) (objective : List R → R) (start : List R) :
    ∃ final, (settings.visits objective start).getLast? = some final ∧
      Id.run (settings.minimize (fun point => pure (objective point)) start) =
        final.result (sample objective start) settings.target := by
  rw [minimize_eq, visits, conclude]
  split
  · exact ⟨_, rfl, rfl⟩
  · exact ⟨_, getLast?_visited settings objective settings.maxIterations _, rfl⟩

theorem ledger_visits (ordered : Scalar.Ranked R) {start : List R}
    (measured : ∀ point, point.length = start.length → Scalar.isFinite (objective point) = true) :
    ∀ state ∈ settings.visits objective start,
      ∃ asked, Ledger settings objective start.length state asked := by
  have initial : ∃ asked, Ledger settings objective start.length
      (settings.opening objective start) asked := ⟨_, ledger_opening ordered measured⟩
  rw [visits]
  split
  · exact List.forall_mem_singleton.mpr initial
  · refine visited_keeps ?_ settings.maxIterations initial
    rintro state next points steps ⟨asked, ledger⟩
    exact ⟨asked ++ points, ledger.step ordered measured steps⟩

/-- The positions in a ranking are those of the vertices. -/
theorem positions_ranked (vertices : List (Vertex R)) :
    ((ranked vertices).map Prod.snd).Perm (List.range vertices.length) := by
  have listed : vertices.zipIdx.map Prod.snd = List.range vertices.length := by
    rw [List.zipIdx_map_snd, List.range_eq_range']
  rw [← listed]
  exact (List.mergeSort_perm _ _).map Prod.snd

/-- A search over finite values keeps its books and reports the best point it has asked for. -/
theorem minimize_best_asked (ordered : Scalar.Ranked R) (settings : NelderMead R)
    (objective : List R → R) (start : List R)
    (measured : ∀ point, point.length = start.length → Scalar.isFinite (objective point) = true) :
    ∃ minimum asked final,
      Id.run (settings.minimize (fun point => pure (objective point)) start) = minimum ∧
      (settings.minimize (ask objective) start).run [] = (minimum, asked) ∧
      (∀ state ∈ settings.visits objective start,
        state.vertices.length = start.length + 1 ∧
        (∀ vertex ∈ state.vertices,
          vertex.point.length = start.length ∧ vertex.value = objective vertex.point) ∧
        ((ranked state.vertices).map Prod.snd).Perm (List.range (start.length + 1))) ∧
      (start = [] → settings.visits objective start = [settings.opening objective start]) ∧
      (settings.visits objective start).getLast? = some final ∧
      minimum = final.result (sample objective start) settings.target ∧
      minimum.point.length = start.length ∧ minimum.value = objective minimum.point ∧
      start ∈ asked ∧
      (∀ point ∈ asked, point.length = start.length ∧ minimum.value ≤ objective point) ∧
      minimum.evaluations = asked.length ∧ minimum.iterations ≤ settings.maxIterations ∧
      (minimum.converged = true ↔ minimum.value ≤ settings.target) := by
  obtain ⟨last, points, reported, recorded, ledger, bound⟩ := minimize_asks settings objective start
    (Ledger settings objective start.length) (ledger_opening ordered measured)
    fun _ _ _ _ steps ledger => ledger.step ordered measured steps
  obtain ⟨final, isLast, concluded⟩ := minimize_eq_last settings objective start
  obtain ⟨low, faithful, least, converged, result⟩ :=
    ledger.result_spec ordered measured (sample objective start)
  refine ⟨_, _, final, reported, recorded [], fun state visited => ?_, fun empty => ?_, isLast,
    reported.symm.trans concluded, ?_⟩
  · obtain ⟨asked, ledger⟩ := ledger_visits ordered measured state visited
    refine ⟨ledger.count, ledger.faithful, ?_⟩
    rw [← ledger.count]
    exact positions_ranked state.vertices
  · rw [visits, empty]
    exact if_pos (Bool.or_true _)
  · rw [result]
    refine ⟨faithful.1, faithful.2, List.mem_cons_self, fun point member => ?_, rfl, bound,
      converged⟩
    exact ⟨ledger.lengths point member, least point member⟩

theorem minimize_best_asked_step :
    let settings : NelderMead Float := { standard with maxIterations := 5 }
    let objective : List Float → Float := fun point => if point.headD 0 < 0.75 then 1 else 0.25
    (∀ point, point.length = 2 → Scalar.isFinite (objective point) = true) ∧
      ∃ minimum asked, (settings.minimize (ask objective) [0, 1]).run [] = (minimum, asked) ∧
        [0, 1] ∈ asked ∧ (∀ point ∈ asked, minimum.value ≤ objective point) ∧
        minimum.value = objective minimum.point ∧ minimum.evaluations = asked.length ∧
        minimum.iterations ≤ 5 := by
  intro settings objective
  have measured : ∀ point, point.length = 2 → Scalar.isFinite (objective point) = true := by
    intro point _
    by_cases below : point.headD 0 < 0.75
    · simp only [objective, below, ↓reduceIte]
      decide
    · simp only [objective, below, ↓reduceIte]
      decide
  obtain ⟨minimum, asked, _, _, recorded, _, _, _, _, _, value, started, least, evaluations,
    iterations, _⟩ := minimize_best_asked Double.ranked settings objective [0, 1] measured
  exact ⟨measured, minimum, asked, recorded, started, fun point member => (least point member).2,
    value, evaluations, iterations⟩

end QuditSynth.NelderMead
