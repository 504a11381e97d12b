import QuditSynth.Minimizer.Adam
import QuditSynth.Proofs.Exact.Scalar
import QuditSynth.Proofs.Minimizer.Recording

namespace QuditSynth

/-! # The books of a gradient descent

A descent reports the best point it has accepted together with the value there.
Neither is touched by a step that does not improve enough, so as long as every
value and every slope is finite the two belong together, and over exact numbers
the reported value never exceeds the first one.
-/

variable {R : Type} [Scalar R]

/-- The objective is finite at all points of some dimension, and so are its difference quotients
there. -/
structure Steady (objective : List R → R) (dimension : Nat) : Prop where
  value : ∀ point, point.length = dimension → Scalar.isFinite (objective point) = true
  slope : ∀ above below, above.length = dimension → below.length = dimension →
    Scalar.isFinite ((objective above - objective below) /
      (Scalar.two * Adam.standard.differenceStep)) = true

theorem steady_exact (objective : List ℝ → ℝ) (dimension : Nat) : Steady objective dimension :=
  ⟨fun _ _ => Scalar.isFinite_exact _, fun _ _ _ _ => Scalar.isFinite_exact _⟩

namespace Adam

def Progress.state : Progress R → State R
  | .goOn state => state
  | .stop state => state

variable {adam : Adam R} {objective : List R → R} {dimension : Nat} {state : State R}
  {next : Progress R} {points : List (List R)}

/-- A value is not finite, or it replaces the best one, or it is passed over. -/
theorem judge_cases (adam : Adam R) (state : State R) (value : R) :
    (Scalar.isFinite value = false ∧
      (adam.judge state value).state = { state with bestValue := value }) ∨
    (value < state.bestValue - leastGain ∧ (adam.judge state value).state =
      { state with bestValue := value, bestPoint := state.point, stall := 0 }) ∨
    (¬ value < state.bestValue - leastGain ∧
      (adam.judge state value).state = { state with stall := state.stall + 1 }) := by
  unfold judge
  split
  · next broken => exact Or.inl ⟨by simpa using broken, rfl⟩
  · split
    · next better =>
      refine Or.inr (Or.inl ⟨better, ?_⟩)
      dsimp only
      split <;> rfl
    · next passed =>
      refine Or.inr (Or.inr ⟨passed, ?_⟩)
      dsimp only
      split <;> rfl

/-- The central differences at a point. -/
def slopes (adam : Adam R) (objective : List R → R) (point : List R) : List R :=
  (List.range point.length).map fun index =>
    (objective (point.modify index (· + adam.differenceStep)) -
      objective (point.modify index (· - adam.differenceStep))) /
      (Scalar.two * adam.differenceStep)

/-- The points at which a gradient asks for values. -/
def probes (adam : Adam R) (point : List R) : List (List R) :=
  (List.range point.length).flatMap fun index =>
    [point.modify index (· + adam.differenceStep), point.modify index (· - adam.differenceStep)]

theorem length_probes (adam : Adam R) (point : List R) :
    (adam.probes point).length = 2 * point.length := by
  simp [probes, List.length_flatMap, Nat.mul_comm]

/-- The state once the point has moved along the slopes, before the value there is known. -/
def moved (adam : Adam R) (objective : List R → R) (state : State R) : State R :=
  let slopes := adam.slopes objective state.point
  let gradientMoment := blend adam.beta1 state.gradientMoment slopes
  let squareMoment := blendSquare adam.beta2 state.squareMoment slopes
  { state with
    point := adam.move (state.iterations + 1) state.point gradientMoment squareMoment
    gradientMoment
    squareMoment
    iterations := state.iterations + 1
    evaluations := state.evaluations + 2 * state.point.length + 1 }

theorem gradient_eq (adam : Adam R) (objective : List R → R) (point : List R) :
    Id.run (adam.gradient (fun point => pure (objective point)) point) =
      adam.slopes objective point := by
  rw [gradient, List.idRun_mapM]
  rfl

theorem asks_gradient (adam : Adam R) (objective : List R → R) (point : List R) :
    Asks (adam.gradient (ask objective) point) (adam.slopes objective point)
      (adam.probes point) :=
  Asks.mapM (fun _ => (asks_ask objective _).bind ((asks_ask objective _).bind_pure _)) _

theorem step_eq (adam : Adam R) (objective : List R → R) (state : State R) :
    Id.run (adam.step (fun point => pure (objective point)) state) =
      if (adam.slopes objective state.point).any fun slope => !Scalar.isFinite slope then
        .stop { state with
          iterations := state.iterations + 1
          evaluations := state.evaluations + 2 * state.point.length
          bestValue := Scalar.undefined }
      else
        adam.judge (adam.moved objective state) (objective (adam.moved objective state).point) := by
  simp only [step, Id.run_bind, gradient_eq]
  split <;> rfl

/-- What a step makes of a state, and the points it asks for. -/
inductive Steps (adam : Adam R) (objective : List R → R) (state : State R) :
    Progress R → List (List R) → Prop
  | broke (broken : ¬ ∀ slope ∈ adam.slopes objective state.point,
      Scalar.isFinite slope = true) :
      Steps adam objective state
        (.stop { state with
          iterations := state.iterations + 1
          evaluations := state.evaluations + 2 * state.point.length
          bestValue := Scalar.undefined })
        (adam.probes state.point)
  | moved (finite : ∀ slope ∈ adam.slopes objective state.point, Scalar.isFinite slope = true) :
      Steps adam objective state
        (adam.judge (adam.moved objective state) (objective (adam.moved objective state).point))
        (adam.probes state.point ++ [(adam.moved objective state).point])

theorem step_asks (adam : Adam R) (objective : List R → R) (state : State R) :
    ∃ next points,
      Id.run (adam.step (fun point => pure (objective point)) state) = next ∧
      Asks (adam.step (ask objective) state) next points ∧
      Steps adam objective state next points := by
  have recorded := asks_gradient adam objective state.point
  by_cases finite : ∀ slope ∈ adam.slopes objective state.point, Scalar.isFinite slope = true
  · have none : (adam.slopes objective state.point).any (fun slope => !Scalar.isFinite slope) =
        false := by
      simpa using finite
    refine ⟨_, _, ?_, recorded.bind ?_, .moved finite⟩
    · rw [step_eq, none]
      rfl
    · simp only [none, Bool.false_eq_true, ↓reduceIte]
      exact (asks_ask objective _).bind_pure _
  · have some : (adam.slopes objective state.point).any (fun slope => !Scalar.isFinite slope) =
        true := by
      simpa using finite
    refine ⟨_, _, ?_, ?_, .broke finite⟩
    · rw [step_eq, some]
      rfl
    · rw [← List.append_nil (adam.probes state.point)]
      refine recorded.bind ?_
      simp only [some, ↓reduceIte]
      exact asks_pure _

theorem judge_kept (adam : Adam R) (state : State R) (value : R) :
    (adam.judge state value).state.point = state.point ∧
      (adam.judge state value).state.evaluations = state.evaluations ∧
      (adam.judge state value).state.iterations = state.iterations := by
  rcases judge_cases adam state value with ⟨_, judged⟩ | ⟨_, judged⟩ | ⟨_, judged⟩
  · rw [judged]
    exact ⟨rfl, rfl, rfl⟩
  · rw [judged]
    exact ⟨rfl, rfl, rfl⟩
  · rw [judged]
    exact ⟨rfl, rfl, rfl⟩

theorem Steps.iterations_eq (steps : Steps adam objective state next points) :
    next.state.iterations = state.iterations + 1 := by
  cases steps with
  | broke => rfl
  | moved => exact (judge_kept adam (adam.moved objective state) _).2.2

theorem Steps.evaluations_eq (steps : Steps adam objective state next points) :
    next.state.evaluations = state.evaluations + points.length := by
  cases steps with
  | broke =>
      rw [length_probes]
      rfl
  | moved =>
      rw [(judge_kept adam (adam.moved objective state) _).2.1, List.length_append, length_probes]
      rfl

/-! ## Runs -/

/-- What every step keeps of a state and the points asked for so far, a run keeps. -/
theorem iterate_asks {invariant : State R → List (List R) → Prop}
    (kept : ∀ state asked next points, Steps adam objective state next points →
      invariant state asked → invariant next.state (asked ++ points))
    (remaining : Nat) {asked : List (List R)} (initial : invariant state asked) :
    ∃ final points,
      Id.run (adam.iterate (fun point => pure (objective point)) remaining state) = final ∧
      Asks (adam.iterate (ask objective) remaining state) final points ∧
      invariant final (asked ++ points) ∧ final.iterations ≤ state.iterations + remaining := by
  induction remaining generalizing state asked with
  | zero =>
      refine ⟨state, [], rfl, asks_pure state, ?_, le_refl _⟩
      rwa [List.append_nil]
  | succ remaining ih =>
      obtain ⟨next, points, stepped, recorded, steps⟩ := step_asks adam objective state
      have after := kept state asked next points steps initial
      have counted := steps.iterations_eq
      simp only [iterate, Id.run_bind, stepped]
      cases next with
      | goOn next =>
          obtain ⟨final, more, finished, rest, held, bound⟩ := ih after
          refine ⟨final, points ++ more, finished, recorded.bind rest, ?_, by omega⟩
          rwa [← List.append_assoc]
      | stop last =>
          change last.iterations = state.iterations + 1 at counted
          refine ⟨last, points, rfl, ?_, after, by omega⟩
          rw [← List.append_nil points]
          exact recorded.bind (asks_pure last)

def begin (objective : List R → R) (start : List R) : State R where
  point := start
  bestPoint := start
  bestValue := objective start
  gradientMoment := List.replicate start.length 0
  squareMoment := List.replicate start.length 0
  stall := 0
  evaluations := 1
  iterations := 0

/-- A run reports a state that keeps, with the points asked for, what the first one has and every
step preserves. -/
theorem minimize_asks (adam : Adam R) (objective : List R → R) (start : List R)
    (invariant : State R → List (List R) → Prop)
    (initial : invariant (begin objective start) [start])
    (kept : ∀ state asked next points, Steps adam objective state next points →
      invariant state asked → invariant next.state (asked ++ points)) :
    ∃ final points,
      Id.run (adam.minimize (fun point => pure (objective point)) start) =
        final.result adam.target ∧
      Asks (adam.minimize (ask objective) start) (final.result adam.target) (start :: points) ∧
      invariant final (start :: points) ∧ final.iterations ≤ adam.maxIterations := by
  by_cases done : (!Scalar.isFinite (objective start) || decide (objective start ≤ adam.target) ||
      start.isEmpty) = true
  · refine ⟨begin objective start, [], ?_, (asks_ask objective start).bind ?_, initial,
      Nat.zero_le _⟩
    · rw [minimize, Id.run_bind]
      exact if_pos done
    · dsimp only
      rw [if_pos done]
      exact asks_pure _
  · obtain ⟨final, points, finished, recorded, held, bound⟩ :=
      iterate_asks kept adam.maxIterations initial
    refine ⟨final, points, ?_, (asks_ask objective start).bind ?_, held,
      bound.trans (Nat.zero_add _).le⟩
    · rw [← finished, minimize, Id.run_bind]
      exact if_neg done
    · dsimp only
      rw [if_neg done]
      exact recorded.bind_pure _

/-- The lists of a run have one entry for each coordinate. -/
structure Level (dimension : Nat) (state : State R) : Prop where
  point : state.point.length = dimension
  gradientMoment : state.gradientMoment.length = dimension
  squareMoment : state.squareMoment.length = dimension
  bestPoint : state.bestPoint.length = dimension

theorem Level.moved (level : Level dimension state) (adam : Adam R) (objective : List R → R) :
    Level dimension (adam.moved objective state) := by
  have slopes : (adam.slopes objective state.point).length = dimension := by
    simpa [Adam.slopes] using level.point
  refine ⟨?_, ?_, ?_, level.bestPoint⟩
  · simp [Adam.moved, move, blend, blendSquare, level.point, level.gradientMoment,
      level.squareMoment, slopes]
  · simp [Adam.moved, blend, level.gradientMoment, slopes]
  · simp [Adam.moved, blendSquare, level.squareMoment, slopes]

theorem Level.judge (level : Level dimension state) (adam : Adam R) (value : R) :
    Level dimension (adam.judge state value).state := by
  rcases judge_cases adam state value with ⟨_, judged⟩ | ⟨_, judged⟩ | ⟨_, judged⟩
  · rw [judged]
    exact ⟨level.point, level.gradientMoment, level.squareMoment, level.bestPoint⟩
  · rw [judged]
    exact ⟨level.point, level.gradientMoment, level.squareMoment, level.point⟩
  · rw [judged]
    exact ⟨level.point, level.gradientMoment, level.squareMoment, level.bestPoint⟩

theorem Steps.level (steps : Steps adam objective state next points)
    (level : Level dimension state) : Level dimension next.state := by
  cases steps with
  | broke => exact ⟨level.point, level.gradientMoment, level.squareMoment, level.bestPoint⟩
  | moved => exact (level.moved adam objective).judge adam _

theorem level_begin (objective : List R → R) (start : List R) :
    Level start.length (begin objective start) :=
  ⟨rfl, List.length_replicate, List.length_replicate, rfl⟩

/-- The lists of a run have one entry for each coordinate, and the best value is the value at the
best point. -/
structure Books (objective : List R → R) (dimension : Nat) (state : State R) : Prop
    extends Level dimension state where
  bestValue : state.bestValue = objective state.bestPoint

theorem Books.moved (books : Books objective dimension state) (adam : Adam R) :
    Books objective dimension (adam.moved objective state) :=
  ⟨books.toLevel.moved adam objective, books.bestValue⟩

theorem Books.judge (books : Books objective dimension state) (adam : Adam R)
    (finite : Scalar.isFinite (objective state.point) = true) :
    Books objective dimension (adam.judge state (objective state.point)).state := by
  refine ⟨books.toLevel.judge adam _, ?_⟩
  rcases judge_cases adam state (objective state.point) with
    ⟨broken, _⟩ | ⟨_, judged⟩ | ⟨_, judged⟩
  · rw [finite] at broken
    cases broken
  · rw [judged]
  · rw [judged]
    exact books.bestValue

theorem slopes_steady (steady : Steady objective dimension)
    (differences : adam.differenceStep = Adam.standard.differenceStep) {point : List R}
    (length : point.length = dimension) :
    ∀ slope ∈ adam.slopes objective point, Scalar.isFinite slope = true := by
  intro slope member
  obtain ⟨index, _, rfl⟩ := List.mem_map.mp member
  rw [differences]
  exact steady.slope _ _ (by simpa using length) (by simpa using length)

theorem Steps.books (steps : Steps adam objective state next points)
    (steady : Steady objective dimension)
    (differences : adam.differenceStep = Adam.standard.differenceStep)
    (books : Books objective dimension state) : Books objective dimension next.state := by
  cases steps with
  | broke broken => exact absurd (slopes_steady steady differences books.point) broken
  | moved => exact (books.moved adam).judge adam (steady.value _ (books.moved adam).point)

theorem minimize_books {start : List R} (steady : Steady objective start.length)
    (differences : adam.differenceStep = Adam.standard.differenceStep) :
    let minimum := Id.run (adam.minimize (fun point => pure (objective point)) start)
    minimum.point.length = start.length ∧ minimum.value = objective minimum.point := by
  obtain ⟨final, _, reported, _, books, _⟩ :=
    minimize_asks adam objective start (fun state _ => Books objective start.length state)
      ⟨level_begin objective start, rfl⟩
      fun _ _ _ _ steps books => steps.books steady differences books
  simp only [reported]
  exact ⟨books.bestPoint, books.bestValue⟩

section Exact

variable {adam : Adam ℝ} {objective : List ℝ → ℝ} {state : State ℝ} {next : Progress ℝ}

theorem leastGain_nonneg : (0 : ℝ) ≤ leastGain := by
  change (0 : ℝ) ≤ 1e-14
  norm_num

theorem Steps.descends {points : List (List ℝ)} (steps : Steps adam objective state next points) :
    next.state.bestValue ≤ state.bestValue := by
  cases steps with
  | broke broken => exact absurd (fun _ _ => Scalar.isFinite_exact _) broken
  | moved =>
      rcases judge_cases adam (adam.moved objective state)
        (objective (adam.moved objective state).point) with
        ⟨broken, _⟩ | ⟨better, judged⟩ | ⟨_, judged⟩
      · rw [Scalar.isFinite_exact] at broken
        cases broken
      · rw [judged]
        exact better.le.trans (sub_le_self _ leastGain_nonneg)
      · rw [judged]
        exact le_refl state.bestValue

/-- A descent never reports more than the value it started from. -/
theorem minimize_le_start (start : List ℝ) :
    (Id.run (adam.minimize (fun point => pure (objective point)) start)).value ≤
      objective start := by
  obtain ⟨final, _, reported, _, below, _⟩ := minimize_asks adam objective start
    (fun state _ => state.bestValue ≤ objective start) (le_refl (objective start))
    fun _ _ _ _ steps below => steps.descends.trans below
  rw [reported]
  exact below

end Exact

end Adam
end QuditSynth
