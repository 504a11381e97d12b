import QuditSynth.Proofs.Minimizer.Questions
import QuditSynth.Proofs.Synthesis.Contract

namespace QuditSynth

/-! # How a search can fail

A search for an operator on two qudits fails for its configuration, for lack of
room, or because its layers are exhausted, and for nothing else. This needs no
assumption on the distances, which may even be undefined: every minimizer keeps
the number of angles, so the ansatz has an operator wherever its distance is
asked for, and instructions wherever a search stops.
-/

namespace Search

variable {R : Type} [Scalar R] {config : Config R} {family : Family} {target : Operator R}
  {dims : Nat × Nat}

/-- The distance of the ansatz from the target, where the ansatz has an operator. -/
def measure (ansatz : Ansatz R) (target : Operator R) (params : List R) :
    Except (CompileError R) R := do
  (← ansatz.operator params).distance target

/-- The configured minimizer, for an objective that may do more than return a value. -/
def minimizeWith {m : Type → Type} [Monad m] (config : Config R) (objective : List R → m R)
    (start : List R) : m (Minimum R) :=
  match config.optimizer with
  | .adam => Adam.minimize { Adam.standard with
      maxIterations := config.maxIterations
      learningRate := config.learningRate
      target := config.tolerance } objective start
  | .nelderMead => NelderMead.minimize { NelderMead.standard with
      maxIterations := config.maxIterations
      target := config.tolerance } objective start

theorem minimize_eq (config : Config R) (objective : List R → R) (start : List R) :
    minimize config objective start =
      Id.run (minimizeWith config (fun params => pure (objective params)) start) := by
  unfold minimize minimizeWith
  cases config.optimizer <;> rfl

theorem minimizeWith_measured {ε : Type} {measure : List R → Except ε R} {objective : List R → R}
    {start : List R} (config : Config R) (measures : Measures measure objective start.length) :
    minimizeWith config measure start = .ok (minimize config objective start) := by
  rw [minimize_eq]
  unfold minimizeWith
  cases config.optimizer with
  | adam => exact Adam.minimize_measured _ measures
  | nelderMead => exact NelderMead.minimize_measured _ measures

/-- Why a search for an operator on two qudits may fail. -/
inductive Failure (config : Config R) (generator : Generator R) : CompileError R → Prop
  | configuration {error : ConfigError R} (refused : config.validate = .error error) :
      Failure config generator (.config error)
  | exhausted (valid : config.validate = .ok ()) (best : R) (distances : List R) :
      Failure config generator (.unreachable best config.maxLayers config.tolerance distances)
  /-- The tables of the search cannot be addressed. -/
  | crowded (valid : config.validate = .ok ())
      (large : ¬ (config.maxLayers * 8 < 2 ^ 63 ∧ config.restarts * 40 < 2 ^ 63)) :
      Failure config generator (.circuit .outOfRange)
  /-- The angles of some number of layers cannot be addressed. -/
  | cramped (valid : config.validate = .ok ()) {layers : Nat} (some : 1 ≤ layers)
      (inside : layers ≤ config.maxLayers) (large : ¬ Roomy config generator layers) :
      Failure config generator (.circuit .outOfRange)

section Entangler

variable (levels : 2 ≤ dims.1 ∧ 2 ≤ dims.2)

include levels

/-- The minimizers ask for the distance only where the ansatz has an operator. -/
theorem minimize_measured (size : target.dim = dims.1 * dims.2)
    (room : Operator.checkDim (dims.1 * dims.2) = .ok ()) (config : Config R) (family : Family)
    (layers : Nat) (warm : Option (List R)) (index : Nat) :
    let ansatz : Ansatz R := ⟨family.entangler dims, layers⟩
    minimizeWith config (measure ansatz target) (start config ansatz warm index) =
      .ok (minimize config (objective ansatz target) (start config ansatz warm index)) := by
  intro ansatz
  refine minimizeWith_measured config fun params length => ?_
  rw [length_start] at length
  have positive := family.entangler_positive (R := R) levels
  have same : target.dim = ansatz.generator.dims.1 * ansatz.generator.dims.2 := by
    rw [Family.dims_entangler, size]
  have addressed : Operator.checkDim (ansatz.generator.dims.1 * ansatz.generator.dims.2) =
      .ok () := by
    rwa [Family.dims_entangler]
  obtain ⟨u, built, measured⟩ := objective_spec positive same addressed (fun angle phase =>
    (Family.operator_exists levels room angle phase).imp fun _ => And.left) length
  rw [measure, built, Outcome.ok_bind, measured]
  rfl

end Entangler

end Search
end QuditSynth
