import QuditSynth.Pipeline
import QuditSynth.Proofs.Outcome

namespace QuditSynth

/-! # Runs of pipelines

A run threads one circuit through the passes. Whether a pass has anything to do
is asked of the circuit that the passes before it left; an analysis leaves it as
it is, and the first pass that fails ends the run. Lists of passes therefore run
one after the other, and an analysis that succeeds could as well not be there.
-/

variable {R : Type} {pass : Pass R} {circuit current next : Circuit R} {cause : CompileError R}

namespace Pass

theorem apply_idle (idle : pass.shouldRun circuit = false) : pass.apply circuit = .ok circuit := by
  simp [apply, idle]

theorem apply_transformation (due : pass.shouldRun circuit = true)
    (kind : pass.kind = .transformation) : pass.apply circuit = pass.run circuit := by
  simp [apply, due, kind]

theorem apply_analysis (due : pass.shouldRun circuit = true) (kind : pass.kind = .analysis) :
    pass.apply circuit = (do let _ ← pass.run circuit; return circuit) := by
  simp [apply, due, kind]

/-- A pass fails only by being run. -/
theorem apply_eq_error_iff : pass.apply circuit = .error cause ↔
    pass.shouldRun circuit = true ∧ pass.run circuit = .error cause := by
  cases due : pass.shouldRun circuit with
  | false => simp [apply_idle due]
  | true =>
      cases kind : pass.kind with
      | transformation => simp [apply_transformation due kind]
      | analysis =>
          rw [apply_analysis due kind]
          cases pass.run circuit with
          | error failure => simp
          | ok report => simp

theorem apply_harmless (kind : pass.kind = .analysis)
    (succeeds : pass.shouldRun circuit = true → ∃ report, pass.run circuit = .ok report) :
    pass.apply circuit = .ok circuit := by
  cases due : pass.shouldRun circuit with
  | false => exact apply_idle due
  | true =>
      obtain ⟨report, reported⟩ := succeeds due
      rw [apply_analysis due kind, reported]
      rfl

end Pass

namespace Pipeline

variable {first second : List (Pass R)}

theorem run_nil (circuit : Circuit R) : run ⟨[]⟩ circuit = .ok circuit := rfl

theorem run_cons (pass : Pass R) (rest : List (Pass R)) (circuit : Circuit R) :
    run ⟨pass :: rest⟩ circuit = (pass.apply circuit >>= run ⟨rest⟩) :=
  List.foldlM_cons

theorem run_append (first second : List (Pass R)) (circuit : Circuit R) :
    run ⟨first ++ second⟩ circuit = (run ⟨first⟩ circuit >>= run ⟨second⟩) :=
  List.foldlM_append

theorem run_append_of_ok (reached : run ⟨first⟩ circuit = .ok current)
    (second : List (Pass R)) : run ⟨first ++ second⟩ circuit = run ⟨second⟩ current := by
  rw [run_append, reached, Outcome.ok_bind]

theorem run_append_of_error (failed : run ⟨first⟩ circuit = .error cause)
    (second : List (Pass R)) : run ⟨first ++ second⟩ circuit = .error cause := by
  rw [run_append, failed, Outcome.error_bind]

/-- A pass that hands on what it is given, wherever it is reached, can be left out. -/
theorem run_without (hands : ∀ current, run ⟨first⟩ circuit = .ok current →
      pass.apply current = .ok current) (second : List (Pass R)) :
    run ⟨first ++ pass :: second⟩ circuit = run ⟨first ++ second⟩ circuit := by
  cases reached : run ⟨first⟩ circuit with
  | error failure => rw [run_append_of_error reached, run_append_of_error reached]
  | ok current =>
      rw [run_append_of_ok reached, run_append_of_ok reached, run_cons, hands current reached,
        Outcome.ok_bind]

/-- What a transformation returns is what the passes after it get. -/
theorem run_transformation (reached : run ⟨first⟩ circuit = .ok current)
    (due : pass.shouldRun current = true) (kind : pass.kind = .transformation)
    (second : List (Pass R)) :
    run ⟨first ++ pass :: second⟩ circuit = (pass.run current >>= run ⟨second⟩) := by
  rw [run_append_of_ok reached, run_cons, Pass.apply_transformation due kind]

/-- The passes after an analysis get what the analysis was given. -/
theorem run_analysis (reached : run ⟨first⟩ circuit = .ok current)
    (due : pass.shouldRun current = true) (kind : pass.kind = .analysis)
    (second : List (Pass R)) :
    run ⟨first ++ pass :: second⟩ circuit =
      (pass.run current >>= fun _ => run ⟨second⟩ current) := by
  rw [run_append_of_ok reached, run_cons, Pass.apply_analysis due kind, bind_assoc]
  exact bind_congr fun report => Outcome.ok_bind _ _

/-- The pass that ends a run: it is reached, has something to do and fails. -/
def EndsRun (circuit : Circuit R) (before : List (Pass R)) (pass : Pass R)
    (cause : CompileError R) : Prop :=
  ∃ current, run ⟨before⟩ circuit = .ok current ∧ pass.shouldRun current = true ∧
    pass.run current = .error cause

theorem EndsRun.run_eq {before : List (Pass R)} (ends : EndsRun circuit before pass cause)
    (after : List (Pass R)) : run ⟨before ++ pass :: after⟩ circuit = .error cause := by
  obtain ⟨current, reached, due, failed⟩ := ends
  rw [run_append_of_ok reached, run_cons, Pass.apply_eq_error_iff.mpr ⟨due, failed⟩,
    Outcome.error_bind]

theorem exists_endsRun {passes : List (Pass R)} (failed : run ⟨passes⟩ circuit = .error cause) :
    ∃ before pass after, passes = before ++ pass :: after ∧ EndsRun circuit before pass cause := by
  induction passes generalizing circuit with
  | nil => cases failed
  | cons pass rest ih =>
      rw [run_cons] at failed
      cases applied : pass.apply circuit with
      | error failure =>
          rw [applied] at failed
          cases failed
          obtain ⟨due, run⟩ := Pass.apply_eq_error_iff.mp applied
          exact ⟨[], pass, rest, rfl, circuit, run_nil circuit, due, run⟩
      | ok next =>
          rw [applied, Outcome.ok_bind] at failed
          obtain ⟨before, last, after, rfl, current, reached, due, run⟩ := ih failed
          refine ⟨pass :: before, last, after, rfl, current, ?_, due, run⟩
          rw [run_cons, applied, Outcome.ok_bind, reached]

/-- The passes of a list in which some are marked as put in. -/
def marked (passes : List (Pass R × Bool)) : List (Pass R) := passes.map Prod.fst

/-- The passes that were there before the marked ones were put in. -/
def unmarked (passes : List (Pass R × Bool)) : List (Pass R) :=
  (passes.filter fun entry => !entry.2).map Prod.fst

/-- Every marked pass is an analysis and succeeds, if it is reached and has something to do. -/
def HarmlessMarks (circuit : Circuit R) (passes : List (Pass R × Bool)) : Prop :=
  ∀ before pass after, passes = before ++ (pass, true) :: after →
    pass.kind = .analysis ∧ ∀ current, run ⟨marked before⟩ circuit = .ok current →
      pass.shouldRun current = true → ∃ report, pass.run current = .ok report

theorem HarmlessMarks.tail {entry : Pass R × Bool} {rest : List (Pass R × Bool)}
    (harmless : HarmlessMarks circuit (entry :: rest))
    (applied : entry.1.apply circuit = .ok next) : HarmlessMarks next rest := by
  intro before pass after split
  obtain ⟨kind, succeeds⟩ := harmless (entry :: before) pass after (by rw [split]; rfl)
  refine ⟨kind, fun current reached => succeeds current ?_⟩
  rw [marked, List.map_cons, run_cons, applied, Outcome.ok_bind]
  exact reached

theorem run_marked {passes : List (Pass R × Bool)} (harmless : HarmlessMarks circuit passes) :
    run ⟨marked passes⟩ circuit = run ⟨unmarked passes⟩ circuit := by
  induction passes generalizing circuit with
  | nil => rfl
  | cons entry rest ih =>
      obtain ⟨pass, isMarked⟩ := entry
      cases isMarked with
      | true =>
          obtain ⟨kind, succeeds⟩ := harmless [] pass rest rfl
          have applied := Pass.apply_harmless kind (succeeds circuit (run_nil circuit))
          change run ⟨pass :: marked rest⟩ circuit = run ⟨unmarked rest⟩ circuit
          rw [run_cons, applied, Outcome.ok_bind, ih (harmless.tail applied)]
      | false =>
          change run ⟨pass :: marked rest⟩ circuit = run ⟨pass :: unmarked rest⟩ circuit
          rw [run_cons, run_cons]
          cases applied : pass.apply circuit with
          | error failure => rfl
          | ok next => exact ih (harmless.tail applied)

/-- Lists of passes run one after the other. The passes after a transformation get what it returns,
those after an analysis what the analysis was given. A pass that is not reached or has nothing to do
is not run: it makes no difference what it would do. Analyses that do not fail make no difference
either, however many are put in. The first pass that is run and fails ends the run with its error,
whatever comes after it, and a run fails in no other way. -/
theorem run_semantics (first second : List (Pass R)) (circuit : Circuit R) :
    run ⟨first ++ second⟩ circuit = (do run ⟨second⟩ (← run ⟨first⟩ circuit)) ∧
    (∀ pass current, run ⟨first⟩ circuit = .ok current → pass.shouldRun current = true →
      (pass.kind = .transformation →
        run ⟨first ++ pass :: second⟩ circuit = (do run ⟨second⟩ (← pass.run current))) ∧
      (pass.kind = .analysis →
        run ⟨first ++ pass :: second⟩ circuit =
          (do let _ ← pass.run current; run ⟨second⟩ current))) ∧
    (∀ pass : Pass R,
      (∀ current, run ⟨first⟩ circuit = .ok current → pass.shouldRun current = false) →
      ∀ perform, run ⟨first ++ { pass with run := perform } :: second⟩ circuit =
        run ⟨first ++ second⟩ circuit) ∧
    (∀ passes, HarmlessMarks circuit passes →
      run ⟨marked passes⟩ circuit = run ⟨unmarked passes⟩ circuit) ∧
    (∀ pass cause, EndsRun circuit first pass cause →
      run ⟨first ++ pass :: second⟩ circuit = .error cause) ∧
    (∀ cause, run ⟨first⟩ circuit = .error cause ↔
      ∃ before pass after, first = before ++ pass :: after ∧
        EndsRun circuit before pass cause) := by
  refine ⟨run_append first second circuit, ?_, ?_, fun _ => run_marked, ?_, fun cause => ⟨?_, ?_⟩⟩
  · intro pass current reached due
    exact ⟨fun kind => run_transformation reached due kind second,
      fun kind => run_analysis reached due kind second⟩
  · intro pass idle perform
    have unchanged : ∀ current, run ⟨first⟩ circuit = .ok current →
        Pass.apply { pass with run := perform } current = .ok current :=
      fun current reached => Pass.apply_idle (idle current reached)
    exact run_without unchanged second
  · intro pass cause ends
    exact ends.run_eq second
  · exact exists_endsRun
  · rintro ⟨before, pass, after, rfl, ends⟩
    exact ends.run_eq after

/-- A pass that empties the circuit does so as a transformation only. -/
theorem run_semantics_clearing :
    let register : Register := ⟨[2], by decide, by decide⟩
    let circuit : Circuit Nat := ⟨"c", register, [.ofGate .x [⟨0⟩]]⟩
    let clearing (kind : PassKind) : Pass Nat :=
      { name := "clearing", kind, run := fun circuit => .ok { circuit with instructions := [] } }
    let passes := [(clearing .analysis, true), (clearing .transformation, false)]
    HarmlessMarks circuit passes ∧
      run ⟨[clearing .analysis, clearing .transformation]⟩ circuit =
        run ⟨[clearing .transformation]⟩ circuit ∧
      run ⟨[clearing .transformation]⟩ circuit = .ok { circuit with instructions := [] } ∧
      run ⟨[clearing .analysis]⟩ circuit = .ok circuit := by
  intro register circuit clearing passes
  have harmless : HarmlessMarks circuit passes := by
    intro before pass after split
    rcases before with _ | ⟨entry, rest⟩
    · obtain ⟨same, _⟩ := List.cons.inj split
      cases same
      exact ⟨rfl, fun current _ _ => ⟨_, rfl⟩⟩
    · simp [passes, List.cons_eq_append_iff] at split
  obtain ⟨_, due, _, marks, _⟩ := run_semantics [] [] circuit
  obtain ⟨transformed, _⟩ := due (clearing .transformation) circuit rfl rfl
  exact ⟨harmless, marks passes harmless, transformed rfl, rfl⟩

end Pipeline
end QuditSynth
