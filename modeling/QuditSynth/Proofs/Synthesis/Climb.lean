import QuditSynth.Proofs.Synthesis.Operators
import QuditSynth.Proofs.Synthesis.Restarts
import QuditSynth.Proofs.Synthesis.Room

namespace QuditSynth

/-! # The layered search

A search stops at the first number of layers whose best distance is within
tolerance, or after the last one, or where it finds no room for its angles.
Whatever every number of layers that is passed over keeps holds where the search
stops.
-/

variable {R : Type} [Scalar R]

namespace Search

variable {config : Config R} {family : Family} {generator : Generator R} {target : Operator R}
  {layers : Nat} {progress : Progress R} {best : Restart R}

/-- Whether a search stops at a distance. -/
def Content (config : Config R) (distance : R) : Prop :=
  distance ≤ Scalar.larger config.tolerance 0

/-- What is carried on past a number of layers. -/
def Progress.next (progress : Progress R) (best : Restart R) : Progress R where
  best := some (leastDistance progress.best best.distance)
  layerDistances := best.distance :: progress.layerDistances
  warm := some best.params

/-- What is carried on past a number of layers at which all restarts broke down. -/
def Progress.lost (progress : Progress R) : Progress R :=
  { progress with layerDistances := Scalar.unbounded :: progress.layerDistances }

/-- What a search reports for the number of layers at which it stops. -/
def report (family : Family) (ansatz : Ansatz R) (progress : Progress R) (best : Restart R) :
    Except (CompileError R) (Synthesis R) := do
  return {
    instructions := ← ansatz.instructions best.params
    distance := best.distance
    layers := ansatz.layers
    family
    params := best.params
    layerDistances := (best.distance :: progress.layerDistances).reverse }

theorem report_fields {ansatz : Ansatz R} {synthesis : Synthesis R}
    (reported : report family ansatz progress best = .ok synthesis) :
    synthesis.layers = ansatz.layers ∧ synthesis.distance = best.distance := by
  obtain ⟨_, _, made⟩ := Outcome.bind_eq_ok_iff.mp reported
  cases made
  exact ⟨rfl, rfl⟩

theorem climb_crowded {cause : Error}
    (crowded : checkAngles config ⟨generator, layers⟩ progress.warm = .error cause)
    (remaining : Nat) :
    climb config family generator target (remaining + 1) layers progress =
      .error (.circuit cause) := by
  simp only [climb, crowded]
  rfl

section Roomy

variable (room : checkAngles config ⟨generator, layers⟩ progress.warm = .ok ())

include room

theorem climb_stop
    (chosen : bestRestart config ⟨generator, layers⟩ target progress.warm = some best)
    (content : Content config best.distance) (remaining : Nat) :
    climb config family generator target (remaining + 1) layers progress =
      report family ⟨generator, layers⟩ progress best := by
  simp only [climb, room, chosen]
  exact if_pos content

theorem climb_next
    (chosen : bestRestart config ⟨generator, layers⟩ target progress.warm = some best)
    (outside : ¬ Content config best.distance) (remaining : Nat) :
    climb config family generator target (remaining + 1) layers progress =
      climb config family generator target remaining (layers + 1) (progress.next best) := by
  simp only [climb, room, chosen]
  exact if_neg outside

theorem climb_lost (lost : bestRestart config ⟨generator, layers⟩ target progress.warm = none)
    (remaining : Nat) :
    climb config family generator target (remaining + 1) layers progress =
      climb config family generator target remaining (layers + 1) progress.lost := by
  simp only [climb, room, lost]
  rfl

end Roomy

/-- A search whose restarts never all break down stops at one of the next numbers of layers, passes
them all or runs out of room, and keeps an invariant until then. -/
theorem climb_outcome (config : Config R) (family : Family) (generator : Generator R)
    (target : Operator R) (invariant : Nat → Progress R → Prop)
    (kept : ∀ layers progress, invariant layers progress →
      ∃ best, bestRestart config ⟨generator, layers⟩ target progress.warm = some best ∧
        (¬ Content config best.distance → invariant (layers + 1) (progress.next best)))
    (count : Nat) (initial : invariant layers progress) :
    (∃ reached before best, layers ≤ reached ∧ reached < layers + count ∧
      invariant reached before ∧
      bestRestart config ⟨generator, reached⟩ target before.warm = some best ∧
      Content config best.distance ∧
      ∀ more, climb config family generator target (count + more) layers progress =
        report family ⟨generator, reached⟩ before best) ∨
    (∃ last, invariant (layers + count) last ∧
      ∀ more, climb config family generator target (count + more) layers progress =
        climb config family generator target more (layers + count) last) ∨
    ∃ reached before, layers ≤ reached ∧ reached < layers + count ∧
      invariant reached before ∧
      checkAngles config ⟨generator, reached⟩ before.warm = .error .outOfRange ∧
      ∀ more, climb config family generator target (count + more) layers progress =
        .error (.circuit .outOfRange) := by
  induction count generalizing layers progress with
  | zero => exact Or.inr (Or.inl ⟨progress, initial, fun more => by rw [Nat.zero_add]; rfl⟩)
  | succ count ih =>
      simp only [Nat.add_right_comm count 1]
      cases room : checkAngles config ⟨generator, layers⟩ progress.warm with
      | error cause =>
          obtain rfl := checkAngles_fails _ _ _ cause room
          exact Or.inr (Or.inr ⟨layers, progress, le_refl layers, by omega, initial, room,
            fun more => climb_crowded room (count + more)⟩)
      | ok =>
          obtain ⟨best, chosen, passed⟩ := kept layers progress initial
          by_cases content : Content config best.distance
          · exact Or.inl ⟨layers, progress, best, le_refl layers, by omega, initial, chosen,
              content, fun more => climb_stop room chosen content (count + more)⟩
          · simp only [climb_next room chosen content]
            rcases ih (passed content) with ⟨reached, before, last, above, below, stopped⟩ |
              ⟨last, held, exhausted⟩ | ⟨reached, before, above, below, crowded⟩
            · exact Or.inl ⟨reached, before, last, by omega, by omega, stopped⟩
            · rw [Nat.add_right_comm] at held exhausted
              exact Or.inr (Or.inl ⟨last, held, exhausted⟩)
            · exact Or.inr (Or.inr ⟨reached, before, by omega, by omega, crowded⟩)

end Search

theorem Config.validate_eq_ok_iff {config : Config R} : config.validate = .ok () ↔
    Scalar.isFinite config.tolerance = true ∧ config.maxLayers ≠ 0 ∧ config.restarts ≠ 0 ∧
      config.maxIterations ≠ 0 ∧ Scalar.isFinite config.learningRate = true ∧
      0 < config.learningRate := by
  unfold validate
  by_cases tolerance : Scalar.isFinite config.tolerance = true
  · by_cases layers : config.maxLayers = 0
    · simp [tolerance, layers]
    · by_cases restarts : config.restarts = 0
      · simp [tolerance, layers, restarts]
      · by_cases iterations : config.maxIterations = 0
        · simp [tolerance, layers, restarts, iterations]
        · simp [tolerance, layers, restarts, iterations]
  · simp [tolerance]

/-- A valid search with a generator makes room for its tables and climbs from one layer on. -/
theorem Search.synthesizeWith_eq {config : Config R} {family : Family} {target : Operator R}
    {dims : Nat × Nat} {generator : Generator R} (valid : config.validate = .ok ())
    (fits : dims.1 * dims.2 < wordLimit) (size : target.dim = dims.1 * dims.2)
    (made : family.generator dims = .ok generator) :
    synthesizeWith config family target dims = (do
      checkRoom config
      climb config family generator target config.maxLayers 1 {}) := by
  rw [synthesizeWith, valid, word_of_lt fits]
  change (if target.dim ≠ dims.1 * dims.2 then _ else _) = _
  rw [if_neg (not_not.mpr size), made, Outcome.ok_bind]

end QuditSynth
