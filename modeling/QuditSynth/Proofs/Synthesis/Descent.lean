import QuditSynth.Proofs.Synthesis.Climb
import QuditSynth.Proofs.Synthesis.Padding

namespace QuditSynth

/-! # Descent of the layered search

Layers without angles do nothing. Angles for some number of layers are therefore
as good for one more once they are padded with zeros, which is where the first
restart begins, so the distances that a search reports never rise.
-/

namespace Search

variable {config : Config ℝ} {family : Family} {target : Operator ℝ} {dims : Nat × Nat}
  {layers : Nat} {progress : Progress ℝ} {best : Restart ℝ} {params : List ℝ}

theorem resize_padded {ansatz : Ansatz ℝ} (count : params.length = ansatz.paramCount)
    (added : Nat) : resize (ansatz.deepened added).paramCount params =
      params.rightpad (ansatz.deepened added).paramCount 0 := by
  have fits : params.length ≤ (ansatz.deepened added).paramCount := by
    rw [count, Ansatz.paramCount_deepened]
    exact Nat.le_add_right _ _
  rw [resize, List.take_of_length_le fits, List.rightpad]

/-- Angles are as good for one more layer once they are padded. -/
theorem objective_padded (levels : 2 ≤ dims.1 ∧ 2 ≤ dims.2)
    (count : params.length = Ansatz.paramCount (R := ℝ) ⟨family.entangler dims, layers + 1⟩) :
    objective ⟨family.entangler dims, layers + 2⟩ target
        (resize (Ansatz.paramCount (R := ℝ) ⟨family.entangler dims, layers + 2⟩) params) =
      objective ⟨family.entangler dims, layers + 1⟩ target params := by
  change params.length = (family.ansatz (R := ℝ) dims (layers + 1)).paramCount at count
  change objective ((family.ansatz dims (layers + 1)).deepened 1) target
    (resize ((family.ansatz (R := ℝ) dims (layers + 1)).deepened 1).paramCount params) =
      objective (family.ansatz dims (layers + 1)) target params
  rw [objective, objective, resize_padded count 1, Family.operator_padded levels count 1]

/-- The distances so far never rose, and the angles to go on from belong to the last of them. -/
structure Descending (generator : Generator ℝ) (target : Operator ℝ) (layers : Nat)
    (progress : Progress ℝ) : Prop where
  sorted : progress.layerDistances.Pairwise (· ≤ ·)
  warm : progress.layerDistances = [] ∨ ∃ before params earlier,
    layers = before + 2 ∧ progress.warm = some params ∧
      params.length = Ansatz.paramCount ⟨generator, before + 1⟩ ∧
      progress.layerDistances = objective ⟨generator, before + 1⟩ target params :: earlier

theorem Descending.sorted_cons (levels : 2 ≤ dims.1 ∧ 2 ≤ dims.2) (tries : config.restarts ≠ 0)
    (descending : Descending (family.entangler dims) target layers progress)
    (chosen : bestRestart config ⟨family.entangler dims, layers⟩ target progress.warm =
      some best) :
    (best.distance :: progress.layerDistances).Pairwise (· ≤ ·) := by
  refine List.pairwise_cons.mpr ⟨?_, descending.sorted⟩
  rcases descending.warm with none | ⟨before, params, earlier, rfl, warm, count, listed⟩
  · rw [none]
    exact List.forall_mem_nil _
  · -- The first restart begins at the angles of the last distance, padded with zeros.
    have sorted := descending.sorted
    rw [listed, List.pairwise_cons] at sorted
    rw [warm] at chosen
    have below := bestRestart_le chosen (Nat.pos_of_ne_zero tries)
    change best.distance ≤ objective ⟨family.entangler dims, before + 2⟩ target
      (resize (Ansatz.paramCount (R := ℝ) ⟨family.entangler dims, before + 2⟩) params) at below
    rw [objective_padded levels count] at below
    rw [listed]
    exact List.forall_mem_cons.mpr ⟨below, fun distance member =>
      below.trans (sorted.1 distance member)⟩

/-- The distances that a search reports, whether it ends well or not. -/
def history {R : Type} : Except (CompileError R) (Synthesis R) → List R
  | .ok synthesis => synthesis.layerDistances
  | .error (.unreachable _ _ _ distances) => distances
  | .error _ => []

theorem climb_descends (levels : 2 ≤ dims.1 ∧ 2 ≤ dims.2) (tries : config.restarts ≠ 0) :
    (history (climb config family (family.entangler dims) target config.maxLayers 1 {})).Pairwise
      (· ≥ ·) := by
  have initial : Descending (family.entangler dims) target 1 {} :=
    ⟨List.Pairwise.nil, Or.inl rfl⟩
  have kept : ∀ layers progress,
      1 ≤ layers ∧ Descending (family.entangler dims) target layers progress →
      ∃ best, bestRestart config ⟨family.entangler dims, layers⟩ target progress.warm =
          some best ∧
        (¬ Content config best.distance → 1 ≤ layers + 1 ∧
          Descending (family.entangler dims) target (layers + 1) (progress.next best)) := by
    rintro layers progress ⟨some, descending⟩
    obtain ⟨best, chosen, settled⟩ := bestRestart_exists (steady_exact
      (objective ⟨family.entangler dims, layers⟩ target) _) tries progress.warm
    refine ⟨best, chosen, fun _ => ⟨by omega, descending.sorted_cons levels tries chosen,
      Or.inr ⟨layers - 1, best.params, progress.layerDistances, by omega, rfl, ?_, ?_⟩⟩⟩
    · rw [Nat.sub_add_cancel some]
      exact settled.params
    · rw [Nat.sub_add_cancel some, ← settled.distance]
      rfl
  rcases climb_outcome config family (family.entangler dims) target _ kept config.maxLayers
      ⟨le_refl 1, initial⟩ with
    ⟨reached, before, best, _, _, ⟨_, descending⟩, chosen, _, stopped⟩ |
      ⟨last, ⟨_, descending⟩, exhausted⟩ | ⟨_, _, _, _, _, _, crowded⟩
  · have settled := settled_of_bestRestart (steady_exact _ _) tries chosen
    obtain ⟨emitted, emits⟩ := Family.instructions_exists levels settled.params
    rw [← Nat.add_zero config.maxLayers, stopped, report, emits]
    exact List.pairwise_reverse.mpr (descending.sorted_cons levels tries chosen)
  · rw [← Nat.add_zero config.maxLayers, exhausted]
    exact List.pairwise_reverse.mpr descending.sorted
  · rw [← Nat.add_zero config.maxLayers, crowded]
    exact List.Pairwise.nil

/-- More layers are never worse: whatever the search reports, its distances do not rise. -/
theorem synthesizeWith_descends (config : Config ℝ) (family : Family) (target : Operator ℝ)
    (dims : Nat × Nat) :
    (history (synthesizeWith config family target dims)).Pairwise (· ≥ ·) := by
  cases validated : config.validate with
  | error cause =>
      rw [synthesizeWith, validated]
      exact List.Pairwise.nil
  | ok =>
      by_cases fits : dims.1 * dims.2 < wordLimit
      · by_cases size : target.dim = dims.1 * dims.2
        · by_cases levels : 2 ≤ dims.1 ∧ 2 ≤ dims.2
          · have made : family.generator dims = .ok (family.entangler dims : Generator ℝ) :=
              Family.generator_eq_ok_iff.mpr ⟨levels, rfl⟩
            rw [synthesizeWith_eq validated fits size made]
            cases room : checkRoom config with
            | error cause => exact List.Pairwise.nil
            | ok => exact climb_descends levels (Config.validate_eq_ok_iff.mp validated).2.2.1
          · obtain ⟨name, asked, refused⟩ := family.generator_refused (R := ℝ) levels
            rw [synthesizeWith, validated, word_of_lt fits]
            change (history (if target.dim ≠ dims.1 * dims.2 then _ else _)).Pairwise _
            rw [if_neg (not_not.mpr size), refused]
            exact List.Pairwise.nil
        · rw [synthesizeWith, validated, word_of_lt fits]
          change (history (if target.dim ≠ dims.1 * dims.2 then _ else _)).Pairwise _
          rw [if_pos size]
          exact List.Pairwise.nil
      · rw [synthesizeWith, validated, word_refused fits]
        exact List.Pairwise.nil

end Search
end QuditSynth
