import QuditSynth.Proofs.Minimizer.Adam
import QuditSynth.Proofs.Minimizer.NelderMead
import QuditSynth.Proofs.Outcome

namespace QuditSynth

/-! # What a minimizer asks for

A minimizer asks for values only at points with as many coordinates as the one it
starts from, however the values turn out. An objective that may fail elsewhere
therefore never fails in a run.
-/

variable {R : Type} [Scalar R] {ε : Type} {measure : List R → Except ε R}
  {objective : List R → R} {dimension : Nat}

/-- An objective that succeeds at all points of a dimension. -/
def Measures (measure : List R → Except ε R) (objective : List R → R) (dimension : Nat) : Prop :=
  ∀ point, point.length = dimension → measure point = .ok (objective point)

namespace Adam

variable {adam : Adam R} {state : State R}

theorem Level.step (level : Level dimension state) (adam : Adam R) (objective : List R → R) :
    Level dimension (Id.run (adam.step (fun point => pure (objective point)) state)).state := by
  obtain ⟨next, _, stepped, _, steps⟩ := step_asks adam objective state
  rw [stepped]
  exact steps.level level

theorem gradient_measured (measures : Measures measure objective dimension) {point : List R}
    (length : point.length = dimension) :
    adam.gradient measure point = .ok (adam.slopes objective point) := by
  refine Outcome.mapM_eq_map fun index _ => ?_
  rw [measures _ (by simpa using length), Outcome.ok_bind, measures _ (by simpa using length)]
  rfl

theorem step_measured (measures : Measures measure objective dimension)
    (level : Level dimension state) :
    adam.step measure state =
      .ok (Id.run (adam.step (fun point => pure (objective point)) state)) := by
  have asked : measure (adam.moved objective state).point =
      .ok (objective (adam.moved objective state).point) :=
    measures _ (level.moved adam objective).point
  rw [step_eq, step, gradient_measured measures level.point, Outcome.ok_bind]
  dsimp only
  split
  · rfl
  · change (measure (adam.moved objective state).point >>= _) = _
    rw [asked]
    rfl

theorem iterate_measured (measures : Measures measure objective dimension) (remaining : Nat)
    (level : Level dimension state) :
    adam.iterate measure remaining state =
      .ok (Id.run (adam.iterate (fun point => pure (objective point)) remaining state)) := by
  induction remaining generalizing state with
  | zero => rfl
  | succ remaining ih =>
      have next := level.step adam objective
      rw [iterate, iterate, step_measured measures level, Outcome.ok_bind, Id.run_bind]
      cases stepped : Id.run (adam.step (fun point => pure (objective point)) state) with
      | goOn state =>
          rw [stepped] at next
          exact ih next
      | stop state => rfl

theorem minimize_measured (adam : Adam R) {start : List R}
    (measures : Measures measure objective start.length) :
    adam.minimize measure start =
      .ok (Id.run (adam.minimize (fun point => pure (objective point)) start)) := by
  rw [minimize, minimize, measures start rfl, Outcome.ok_bind, Id.run_bind]
  dsimp only [Id.run_pure]
  split
  · rfl
  · change (adam.iterate measure adam.maxIterations (begin objective start) >>= _) = _
    rw [iterate_measured measures _ (level_begin objective start)]
    rfl

end Adam

namespace NelderMead

variable {settings : NelderMead R} {state : State R} {vertices : List (Vertex R)}
  {best worst secondWorst : Vertex R × Nat} {centroid : List R}

omit [Scalar R] in
theorem probe_measured (measures : Measures measure objective dimension) {point : List R}
    (length : point.length = dimension) : probe measure point = .ok (sample objective point) := by
  rw [probe, measures point length]
  rfl

theorem shrink_measured (measures : Measures measure objective dimension)
    (faithful : ∀ vertex ∈ vertices, vertex.Faithful objective dimension)
    (bestLength : best.1.point.length = dimension) :
    shrink measure vertices best = .ok (shrunk objective vertices best) := by
  refine Outcome.mapM_eq_map fun (vertex, position) listed => ?_
  have old := faithful vertex (List.fst_mem_of_mem_zipIdx listed)
  dsimp only
  split
  · rfl
  · exact probe_measured measures (by simp [old.1, bestLength])

theorem move_measured (measures : Measures measure objective dimension)
    (faithful : ∀ vertex ∈ state.vertices, vertex.Faithful objective dimension)
    (bestLength : best.1.point.length = dimension) (worstLength : worst.1.point.length = dimension)
    (centroidLength : centroid.length = dimension) :
    move measure state best worst secondWorst centroid =
      .ok (Id.run (move (fun point => pure (objective point)) state best worst secondWorst
        centroid)) := by
  have asked : ∀ scale, probe measure (beyond centroid worst.1.point scale) =
      .ok (sample objective (beyond centroid worst.1.point scale)) :=
    fun scale => probe_measured measures (by simp [beyond, centroidLength, worstLength])
  have answered : ∀ point, probe (fun point => pure (objective point)) point =
      (pure (sample objective point) : Id (Vertex R)) := fun _ => rfl
  simp only [move, asked, answered, shrink_measured measures faithful bestLength, Outcome.ok_bind,
    pure_bind]
  split
  · split <;> rfl
  · split
    · rfl
    · split
      · rfl
      · rw [Id.run_bind, shrink_eq]
        rfl

theorem step_measured (measures : Measures measure objective dimension)
    (faithful : ∀ vertex ∈ state.vertices, vertex.Faithful objective dimension) :
    settings.step measure state =
      .ok (Id.run (settings.step (fun point => pure (objective point)) state)) := by
  simp only [step]
  split
  · next worst secondWorst others best rest backwards forwards =>
    have corners := corners_of_ranked backwards forwards
    have bestLength := (faithful _ (List.mem_of_getElem? corners.bestAt)).1
    have worstLength := (faithful _ (List.mem_of_getElem? corners.worstAt)).1
    split
    · rfl
    · split
      · rfl
      · split
        · rfl
        · let counted : State R := { state with iterations := state.iterations + 1 }
          have moved : move measure counted best worst secondWorst (centre state.vertices best) =
              _ :=
            move_measured measures faithful bestLength worstLength
              (length_centre faithful bestLength)
          change (move measure counted best worst secondWorst (centre state.vertices best) >>=
            _) = _
          rw [moved]
          rfl
  · rfl

theorem iterate_measured (measures : Measures measure objective dimension) (remaining : Nat)
    (faithful : ∀ vertex ∈ state.vertices, vertex.Faithful objective dimension) :
    settings.iterate measure remaining state =
      .ok (Id.run (settings.iterate (fun point => pure (objective point)) remaining state)) := by
  induction remaining generalizing state with
  | zero => rfl
  | succ remaining ih =>
      have next : ∀ vertex ∈ (Id.run (settings.step (fun point => pure (objective point))
          state)).state.vertices, vertex.Faithful objective dimension := faithful_step faithful
      rw [iterate, iterate, step_measured measures faithful, Outcome.ok_bind, Id.run_bind]
      cases stepped : Id.run (settings.step (fun point => pure (objective point)) state) with
      | goOn state =>
          rw [stepped] at next
          exact ih next
      | stop state => rfl

theorem minimize_measured (settings : NelderMead R) {start : List R}
    (measures : Measures measure objective start.length) :
    settings.minimize measure start =
      .ok (Id.run (settings.minimize (fun point => pure (objective point)) start)) := by
  have sampled : (settings.simplex start).tail.mapM (probe measure) =
      .ok ((settings.simplex start).tail.map (sample objective)) := by
    refine Outcome.mapM_eq_map fun point corner => ?_
    obtain ⟨index, _, rfl⟩ := List.mem_map.mp corner
    exact probe_measured measures (by simp)
  have first : Id.run (probe (fun point => pure (objective point)) start) =
      sample objective start := rfl
  have answered : Id.run ((settings.simplex start).tail.mapM
      (probe fun point => pure (objective point))) =
        (settings.simplex start).tail.map (sample objective) := List.idRun_mapM
  rw [minimize, minimize, probe_measured measures rfl, Outcome.ok_bind, sampled, Outcome.ok_bind,
    Id.run_bind, first, Id.run_bind, answered]
  dsimp only [Id.run_pure]
  split
  · rfl
  · rw [iterate_measured measures _ (faithful_begin settings objective start)]
    rfl

end NelderMead

end QuditSynth
