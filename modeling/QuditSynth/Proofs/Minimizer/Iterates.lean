import QuditSynth.Proofs.Exact.Number
import QuditSynth.Proofs.Minimizer.Adam

namespace QuditSynth.Adam

/-! # The iterates of a gradient descent

A descent asks for the value at its start and then, in each iteration, for values
around its point and at the point it moves to. Over exact numbers the reported
point is no worse than the start, and worse than no iterate by more than the least
gain that counts. A difference quotient over a step of no length has no value; the
run breaks down there, in its first iteration.
-/

section Sweep

variable {R : Type} [Scalar R] {m : Type → Type} [Monad m]

/-- The gradient taken in place: one coordinate after the other is moved up, down and back. -/
def sweep (adam : Adam R) (objective : List R → m R) : StateT (List R) m (List R) := do
  let point ← get
  (List.range point.length).mapM fun index => do
    let held := (← get).getD index 0
    modify (·.set index (held + adam.differenceStep))
    let above ← objective (← get)
    modify (·.set index (held - adam.differenceStep))
    let below ← objective (← get)
    modify (·.set index held)
    return (above - below) / (Scalar.two * adam.differenceStep)

variable [LawfulMonad m]

theorem run_mapM_kept {α β σ : Type} {run : α → StateT σ m β} {value : α → m β} {state : σ}
    {elements : List α}
    (each : ∀ a ∈ elements, (run a).run state = do return (← value a, state)) :
    (elements.mapM run).run state = do return (← elements.mapM value, state) := by
  induction elements with
  | nil => simp
  | cons a elements ih =>
      obtain ⟨first, rest⟩ := List.forall_mem_cons.mp each
      simp [List.mapM_cons, first, ih rest]

theorem set_getD {point : List R} {index : Nat} (bound : index < point.length) (step : R → R) :
    point.set index (step (point[index]?.getD 0)) = point.modify index step := by
  rw [List.modify_eq_set_getElem?, List.getElem?_eq_getElem bound]
  rfl

/-- A sweep leaves the point as it found it. -/
theorem run_sweep (adam : Adam R) (objective : List R → m R) (point : List R) :
    (adam.sweep objective).run point = do return (← adam.gradient objective point, point) := by
  simp only [sweep, StateT.run_bind, StateT.run_get, pure_bind]
  refine run_mapM_kept fun index listed => ?_
  have bound := List.mem_range.mp listed
  have above := set_getD bound (· + adam.differenceStep)
  have below := set_getD bound (· - adam.differenceStep)
  have back : point.set index (point[index]?.getD 0) = point :=
    (set_getD bound id).trans (List.modify_id _ _)
  simp [above, below, back]

end Sweep

section Calls

variable {R : Type} [Scalar R] {objective : List R → R} {start : List R}

/-- The points a descent asks for as it moves from a point through its iterates. -/
def calls (adam : Adam R) (point : List R) : List (List R) → List (List R)
  | [] => []
  | next :: iterates => adam.probes point ++ next :: adam.calls next iterates

theorem calls_append (adam : Adam R) (point next : List R) (iterates : List (List R)) :
    adam.calls point (iterates ++ [next]) =
      adam.calls point iterates ++ (adam.probes (iterates.getLastD point) ++ [next]) := by
  induction iterates generalizing point with
  | nil => rfl
  | cons first iterates ih =>
      rw [List.cons_append, calls, calls, ih, List.getLastD_cons, List.append_assoc,
        List.cons_append]

/-- A run that takes no step reports its start. -/
theorem minimize_idle (adam : Adam R)
    (idle : start = [] ∨ adam.maxIterations = 0 ∨ objective start ≤ adam.target) :
    Asks (adam.minimize (ask objective) start) ((begin objective start).result adam.target)
      [start] := by
  refine (asks_ask objective start).bind ?_
  dsimp only
  split
  · exact asks_pure _
  · next entered =>
    have none : adam.maxIterations = 0 := by
      simp only [Bool.or_eq_true, decide_eq_true_iff, List.isEmpty_iff, not_or] at entered
      rcases idle with empty | none | reached
      · exact absurd empty entered.2
      · exact none
      · exact absurd reached entered.1.2
    rw [none]
    exact (asks_pure (begin objective start)).bind_pure _

/-- A run breaks down in its first iteration if there is a slope that is not finite. -/
theorem minimize_broken (adam : Adam R) (some : adam.maxIterations ≠ 0)
    (entered : (!Scalar.isFinite (objective start) || decide (objective start ≤ adam.target) ||
      start.isEmpty) = false)
    (broken : ¬ ∀ slope ∈ adam.slopes objective start, Scalar.isFinite slope = true) :
    Asks (adam.minimize (ask objective) start)
      ⟨start, Scalar.undefined, 1 + 2 * start.length, 1,
        decide (Scalar.undefined ≤ adam.target)⟩ (start :: adam.probes start) := by
  obtain ⟨_, _, _, recorded, steps⟩ := step_asks adam objective (begin objective start)
  obtain ⟨remaining, count⟩ := Nat.exists_eq_succ_of_ne_zero some
  refine (asks_ask objective start).bind ?_
  dsimp only
  rw [entered, count]
  cases steps with
  | moved finite => exact absurd finite broken
  | broke =>
      have stopped : Asks (adam.iterate (ask objective) (remaining + 1) (begin objective start))
          _ _ := recorded.bind (asks_pure _)
      rw [List.append_nil] at stopped
      exact stopped.bind_pure _

end Calls

section Exact

open Number

variable {adam : Adam Number} {objective : List Number → ℝ} {start : List Number}
  {state : State Number} {iterates : List (List Number)} {next : Progress Number}
  {points : List (List Number)}

theorem slopes_there (objective : List Number → ℝ) (point : List Number)
    (there : ∃ h : ℝ, adam.differenceStep = real h ∧ h ≠ 0) :
    ∀ slope ∈ adam.slopes (valued objective) point, Scalar.isFinite slope = true := by
  intro slope member
  obtain ⟨index, _, rfl⟩ := List.mem_map.mp member
  exact (isFinite_quotient _ _ _).mpr there

theorem there_of_slopes {point : List Number} (nonempty : point ≠ [])
    (finite : ∀ slope ∈ adam.slopes (valued objective) point, Scalar.isFinite slope = true) :
    ∃ h : ℝ, adam.differenceStep = real h ∧ h ≠ 0 := by
  have first : 0 ∈ List.range point.length :=
    List.mem_range.mpr (List.length_pos_iff.mpr nonempty)
  exact (isFinite_quotient _ _ _).mp (finite _ (List.mem_map_of_mem first))

/-- What a state owes to the start and the iterates that led to it. -/
structure Ledger (objective : List Number → ℝ) (start : List Number) (state : State Number)
    (iterates : List (List Number)) : Prop extends Books (valued objective) start.length state where
  current : iterates.getLastD start = state.point
  listed : state.bestPoint ∈ start :: iterates
  lowered : objective state.bestPoint ≤ objective start
  passed : ∀ point ∈ iterates, objective state.bestPoint ≤ objective point + leastGain
  iterations : state.iterations = iterates.length
  evaluations : state.evaluations = 1 + state.iterations * (2 * start.length + 1)

theorem ledger_begin (objective : List Number → ℝ) (start : List Number) :
    Ledger objective start (begin (valued objective) start) [] where
  toLevel := level_begin _ start
  bestValue := rfl
  current := rfl
  listed := List.mem_cons_self
  lowered := le_refl _
  passed := by simp
  iterations := rfl
  evaluations := by simp [begin]

/-- A value is accepted if it is lower by the least gain, and passed over otherwise. -/
theorem judge_best (adam : Adam Number) (state : State Number) {best : ℝ}
    (known : state.bestValue = real best) (value : ℝ) :
    (value ≤ best ∧ (adam.judge state (real value)).state.bestPoint = state.point) ∨
      (best ≤ value + leastGain ∧
        (adam.judge state (real value)).state.bestPoint = state.bestPoint) := by
  rcases judge_cases adam state (real value) with ⟨broken, _⟩ | ⟨better, judged⟩ | ⟨passed, judged⟩
  · rw [isFinite_real] at broken
    cases broken
  · rw [known] at better
    have lower : value < best - leastGain := better
    rw [judged]
    exact Or.inl ⟨lower.le.trans (sub_le_self _ leastGain_nonneg), rfl⟩
  · rw [known] at passed
    have higher : ¬ value < best - leastGain := passed
    rw [judged]
    exact Or.inr ⟨by linarith, rfl⟩

/-- One step keeps the ledger, with the point it moves to as a further iterate. -/
theorem Ledger.step (there : ∃ h : ℝ, adam.differenceStep = real h ∧ h ≠ 0)
    (ledger : Ledger objective start state iterates)
    (steps : Steps adam (valued objective) state next points) :
    ∃ point, points = adam.probes (iterates.getLastD start) ++ [point] ∧
      Ledger objective start next.state (iterates ++ [point]) := by
  cases steps with
  | broke broken => exact absurd (slopes_there objective state.point there) broken
  | moved =>
      let after := adam.moved (valued objective) state
      let judged := (adam.judge after (valued objective after.point)).state
      have books : Books (valued objective) start.length judged :=
        (ledger.toBooks.moved adam).judge adam (isFinite_real _)
      obtain ⟨current, evaluations, iterations⟩ :=
        judge_kept adam after (valued objective after.point)
      have best : judged.bestPoint ∈ start :: (iterates ++ [after.point]) ∧
          objective judged.bestPoint ≤ objective start ∧
          ∀ point ∈ iterates ++ [after.point],
            objective judged.bestPoint ≤ objective point + leastGain := by
        rw [List.forall_mem_append, List.forall_mem_singleton]
        rcases judge_best adam after ledger.bestValue (objective after.point) with
          ⟨lower, same⟩ | ⟨higher, same⟩
        · have known : judged.bestPoint = after.point := same
          rw [known]
          refine ⟨by simp, lower.trans ledger.lowered, fun point member => ?_, ?_⟩
          · exact lower.trans (ledger.passed point member)
          · exact le_add_of_nonneg_right leastGain_nonneg
        · have known : judged.bestPoint = state.bestPoint := same
          rw [known]
          refine ⟨?_, ledger.lowered, ledger.passed, higher⟩
          rw [← List.cons_append]
          exact List.mem_append_left _ ledger.listed
      refine ⟨after.point, by rw [ledger.current], books, ?_, best.1, best.2.1, best.2.2, ?_, ?_⟩
      · rw [List.getLastD_concat]
        exact current.symm
      · rw [List.length_append, ← ledger.iterations]
        exact iterations
      · rw [evaluations, iterations]
        change state.evaluations + 2 * state.point.length + 1 =
          1 + (state.iterations + 1) * (2 * start.length + 1)
        rw [ledger.evaluations, ledger.point]
        ring

/-- A run that takes steps, over differences that have no value. -/
def Breaks (adam : Adam Number) (objective : List Number → ℝ) (start : List Number) : Prop :=
  start ≠ [] ∧ adam.maxIterations ≠ 0 ∧ ¬ valued objective start ≤ adam.target ∧
    ¬ ∃ h : ℝ, adam.differenceStep = real h ∧ h ≠ 0

theorem ledger_minimize (whole : ¬ adam.Breaks objective start) :
    ∃ final iterates,
      Asks (adam.minimize (ask (valued objective)) start) (final.result adam.target)
        (start :: adam.calls start iterates) ∧
      Ledger objective start final iterates := by
  by_cases there : ∃ h : ℝ, adam.differenceStep = real h ∧ h ≠ 0
  · obtain ⟨final, points, _, recorded, ⟨iterates, same, ledger⟩, _⟩ :=
      minimize_asks adam (valued objective) start
        (fun state asked => ∃ iterates, asked = start :: adam.calls start iterates ∧
          Ledger objective start state iterates)
        ⟨[], rfl, ledger_begin objective start⟩ (by
          rintro state _ next points steps ⟨iterates, rfl, ledger⟩
          obtain ⟨point, rfl, after⟩ := ledger.step there steps
          refine ⟨iterates ++ [point], ?_, after⟩
          rw [calls_append, List.cons_append])
    rw [same] at recorded
    exact ⟨final, iterates, recorded, ledger⟩
  · have idle : start = [] ∨ adam.maxIterations = 0 ∨ valued objective start ≤ adam.target := by
      by_contra steps
      rw [not_or, not_or] at steps
      exact whole ⟨steps.1, steps.2.1, steps.2.2, there⟩
    exact ⟨_, [], minimize_idle adam idle, ledger_begin objective start⟩

theorem asks_broken (breaks : adam.Breaks objective start) :
    Asks (adam.minimize (ask (valued objective)) start)
      ⟨start, missing, 1 + 2 * start.length, 1, false⟩ (start :: adam.probes start) := by
  obtain ⟨nonempty, some, above, absent⟩ := breaks
  have entered : (!Scalar.isFinite (valued objective start) ||
      decide (valued objective start ≤ adam.target) || start.isEmpty) = false := by
    have finite : Scalar.isFinite (valued objective start) = true := isFinite_real _
    simp [finite, nonempty, above]
  have broken := minimize_broken adam some entered fun finite =>
    absent (there_of_slopes nonempty finite)
  rwa [undefined_eq, decide_eq_false (not_missing_le _)] at broken

end Exact

theorem minimize_best_iterate (adam : Adam Number) (objective : List Number → ℝ)
    (start : List Number) :
    ∃ minimum asked,
      Id.run (adam.minimize (fun point => pure (Number.valued objective point)) start) = minimum ∧
      (adam.minimize (ask (Number.valued objective)) start).run [] = (minimum, asked) ∧
      minimum.point.length = start.length ∧
      minimum.iterations ≤ adam.maxIterations ∧ minimum.evaluations = asked.length ∧
      (minimum.converged = true ↔ minimum.value ≤ adam.target) ∧
      (∀ point, (adam.sweep (ask (Number.valued objective))).run point = do
        return (← adam.gradient (ask (Number.valued objective)) point, point)) ∧
      (¬ adam.Breaks objective start → ∃ iterates,
        asked = start :: adam.calls start iterates ∧ iterates.length = minimum.iterations ∧
        minimum.value = .real (objective minimum.point) ∧ minimum.point ∈ start :: iterates ∧
        objective minimum.point ≤ objective start ∧
        (∀ point ∈ iterates, objective minimum.point ≤ objective point + leastGain) ∧
        minimum.evaluations = 1 + minimum.iterations * (2 * start.length + 1)) ∧
      (adam.Breaks objective start →
        asked = start :: adam.probes start ∧
        minimum = ⟨start, .missing, 1 + 2 * start.length, 1, false⟩) := by
  obtain ⟨final, points, reported, recorded, ⟨level, evaluations⟩, bound⟩ :=
    minimize_asks adam (Number.valued objective) start
      (fun state asked => Level start.length state ∧ state.evaluations = asked.length)
      ⟨level_begin _ start, rfl⟩ (by
        rintro state asked next points steps ⟨level, evaluations⟩
        refine ⟨steps.level level, ?_⟩
        rw [steps.evaluations_eq, List.length_append, evaluations])
  refine ⟨_, _, reported, recorded [], level.bestPoint, bound, evaluations, decide_eq_true_iff,
    run_sweep adam _, fun whole => ?_, fun breaks => ?_⟩
  · obtain ⟨last, iterates, asked, ledger⟩ := ledger_minimize whole
    obtain ⟨same, calls⟩ := recorded.unique asked
    rw [same]
    exact ⟨iterates, calls, ledger.iterations.symm, ledger.bestValue, ledger.listed,
      ledger.lowered, ledger.passed, ledger.evaluations⟩
  · obtain ⟨same, asked⟩ := recorded.unique (asks_broken breaks)
    exact ⟨asked, same⟩

theorem minimize_best_iterate_standard :
    ¬ Breaks standard (fun point => point.length) [.real 1, .real 2] ∧
      ∃ minimum iterates,
        ((standard : Adam Number).minimize (ask (Number.valued fun point => point.length))
          [.real 1, .real 2]).run [] =
            (minimum, [.real 1, .real 2] :: calls standard [.real 1, .real 2] iterates) ∧
        minimum.evaluations = 1 + minimum.iterations * 5 := by
  have whole : ¬ Breaks standard (fun point => point.length) [.real 1, .real 2] := by
    rintro ⟨_, _, _, absent⟩
    refine absent ⟨_, rfl, ?_⟩
    norm_num
  obtain ⟨minimum, asked, _, recorded, _, _, _, _, _, kept, _⟩ :=
    minimize_best_iterate standard (fun point => point.length) [.real 1, .real 2]
  obtain ⟨iterates, rfl, _, _, _, _, _, evaluations⟩ := kept whole
  exact ⟨whole, minimum, iterates, recorded, evaluations⟩

/-- Differences over no length leave a constant objective without a value. -/
theorem flat_differences_break :
    let adam : Adam Number := { standard with maxIterations := 1, differenceStep := .real 0 }
    ∃ minimum asked,
      (adam.minimize (ask (Number.valued fun _ => 1)) [.real 0]).run [] = (minimum, asked) ∧
      minimum.value ≠ Number.valued (fun _ => 1) minimum.point ∧
      minimum.iterations = 1 ∧ minimum.evaluations = 3 := by
  intro adam
  have breaks : adam.Breaks (fun _ => 1) [.real 0] := by
    refine ⟨List.cons_ne_nil _ _, one_ne_zero, ?_, ?_⟩
    · change ¬ Number.real 1 ≤ -Scalar.unbounded
      rw [Number.unbounded_eq]
      exact id
    · rintro ⟨h, same, nonzero⟩
      exact nonzero (Number.real.inj same).symm
  exact ⟨_, _, asks_broken breaks [], Number.noConfusion, rfl, rfl⟩

end QuditSynth.Adam
