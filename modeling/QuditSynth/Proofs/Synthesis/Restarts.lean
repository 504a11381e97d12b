import QuditSynth.Synthesis.Search
import QuditSynth.Proofs.Minimizer.Adam
import QuditSynth.Proofs.Minimizer.Simplex

namespace QuditSynth

/-! # Restarts

Every restart begins with as many angles as the ansatz takes, and what it
reports belongs together: the distance is that of the reported angles. The best
restart is one of them, and over exact numbers none of them started lower.
-/

namespace SeedStream

theorem length_keyWords (count : Nat) (state : UInt64) : (keyWords count state).length = count := by
  induction count generalizing state with
  | zero => rfl
  | succ count ih => rw [keyWords, List.length_cons, ih]

theorem size_quarterRound (state : Array UInt32) (a b c d : Nat) :
    (quarterRound state a b c d).size = state.size := by
  simp [quarterRound]

theorem size_doubleRound (state : Array UInt32) : (doubleRound state).size = state.size := by
  simp only [doubleRound, lanes, List.foldl_cons, List.foldl_nil, size_quarterRound]

theorem length_block (seed : UInt64) (counter : Nat) : (block (key seed) counter).length = 16 := by
  have start : (initial (key seed) counter.toUInt64).size = 16 := by
    simp [initial, constants, key, length_keyWords]
  have mixed : ∀ rounds, (Nat.repeat doubleRound rounds
      (initial (key seed) counter.toUInt64)).size = 16 := by
    intro rounds
    induction rounds with
    | zero => exact start
    | succ rounds ih => rw [Nat.repeat, size_doubleRound, ih]
  simp [block, start, mixed]

theorem length_words (seed : UInt64) (count : Nat) :
    (words seed count).length = (count + 15) / 16 * 16 := by
  simp [words, List.length_flatMap, length_block]

theorem length_pairs (words : List UInt32) : (pairs words).length = words.length / 2 := by
  fun_induction pairs words with
  | case1 low high rest ih => simp only [List.length_cons, ih]; omega
  | case2 words short =>
      match words with
      | [] => simp
      | [_] => simp
      | low :: high :: rest => exact absurd rfl (short low high rest)

theorem length_angles {R : Type} [Scalar R] (seed : UInt64) (count : Nat) :
    (angles seed count : List R).length = count := by
  rw [angles, List.length_map, List.length_take, length_pairs, length_words]
  omega

end SeedStream

variable {R : Type} [Scalar R]

theorem Restart.best_exists {restarts : List (Restart R)} (nonempty : restarts ≠ []) :
    ∃ best, Restart.best restarts = some best ∧ best ∈ restarts := by
  cases restarts with
  | nil => exact absurd rfl nonempty
  | cons first rest =>
      refine ⟨_, rfl, foldl_pick_mem fun a b => ?_⟩
      unfold better
      split
      · exact Or.inr rfl
      · exact Or.inl rfl

namespace Search

variable {config : Config R} {ansatz : Ansatz R} {target : Operator R} {warm : Option (List R)}
  {index : Nat}

theorem length_resize (count : Nat) (params : List R) : (resize count params).length = count := by
  simp [resize]
  omega

theorem length_start (config : Config R) (ansatz : Ansatz R) (warm : Option (List R))
    (index : Nat) : (start config ansatz warm index).length = ansatz.paramCount := by
  unfold start
  split
  · exact length_resize _ _
  · exact SeedStream.length_angles _ _

/-- What a minimizer reports belongs together. -/
theorem minimize_books (config : Config R) {objective : List R → R} {start : List R}
    (steady : Steady objective start.length) :
    (minimize config objective start).point.length = start.length ∧
      (minimize config objective start).value = objective (minimize config objective start).point := by
  unfold minimize
  cases config.optimizer with
  | adam => exact Adam.minimize_books steady rfl
  | nelderMead => exact NelderMead.minimize_books _ objective start

/-- A restart whose distance is the one of its angles. -/
structure Settled (ansatz : Ansatz R) (target : Operator R) (restart : Restart R) : Prop where
  params : restart.params.length = ansatz.paramCount
  distance : restart.distance = objective ansatz target restart.params

variable (steady : Steady (objective ansatz target) ansatz.paramCount)

include steady

theorem restart_exists (config : Config R) (warm : Option (List R)) (index : Nat) :
    ∃ result, restart config ansatz target warm index = some result ∧
      Settled ansatz target result := by
  have length := length_start config ansatz warm index
  rw [← length] at steady
  obtain ⟨pointLength, value⟩ := minimize_books config steady
  have finite := steady.value _ pointLength
  rw [← value] at finite
  refine ⟨⟨index, _, _⟩, if_pos finite, pointLength.trans length, value⟩

theorem bestRestart_exists (tries : config.restarts ≠ 0) (warm : Option (List R)) :
    ∃ best, bestRestart config ansatz target warm = some best ∧ Settled ansatz target best := by
  have tried : (List.range config.restarts).filterMap (restart config ansatz target warm) ≠ [] := by
    obtain ⟨result, made, _⟩ := restart_exists steady config warm 0
    refine List.ne_nil_of_mem (List.mem_filterMap.mpr ⟨0, ?_, made⟩)
    exact List.mem_range.mpr (Nat.pos_of_ne_zero tries)
  obtain ⟨best, chosen, member⟩ := Restart.best_exists tried
  obtain ⟨index, _, made⟩ := List.mem_filterMap.mp member
  obtain ⟨result, same, settled⟩ := restart_exists steady config warm index
  rw [made] at same
  cases same
  exact ⟨best, chosen, settled⟩

theorem settled_of_bestRestart (tries : config.restarts ≠ 0) {best : Restart R}
    (chosen : bestRestart config ansatz target warm = some best) : Settled ansatz target best := by
  obtain ⟨settledBest, same, settled⟩ := bestRestart_exists steady tries warm
  rw [chosen] at same
  cases same
  exact settled

end Search

namespace Search

variable {config : Config ℝ} {ansatz : Ansatz ℝ} {target : Operator ℝ} {warm : Option (List ℝ)}
  {best : Restart ℝ}

theorem minimize_le_start (config : Config ℝ) (objective : List ℝ → ℝ) (start : List ℝ) :
    (minimize config objective start).value ≤ objective start := by
  unfold minimize
  cases config.optimizer with
  | adam => exact Adam.minimize_le_start start
  | nelderMead =>
      exact NelderMead.minimize_le_start Scalar.ranked_exact _ fun _ _ => Scalar.isFinite_exact _

theorem better_le (first second : Restart ℝ) :
    (Restart.better first second).distance ≤ first.distance ∧
      (Restart.better first second).distance ≤ second.distance := by
  unfold Restart.better
  cases beats : second.beats first with
  | true =>
      simp only [Restart.beats, Bool.or_eq_true, Bool.not_eq_true', Bool.and_eq_true,
        ← Bool.not_eq_true, Scalar.totalLe_exact, not_le] at beats
      refine ⟨?_, le_refl second.distance⟩
      rcases beats with lower | ⟨lower, _⟩
      · exact lower.le
      · exact lower
  | false =>
      simp only [Restart.beats, Bool.or_eq_false_iff, Bool.not_eq_false',
        Scalar.totalLe_exact] at beats
      exact ⟨le_refl first.distance, beats.1⟩

/-- No restart started below the best one. -/
theorem bestRestart_le (chosen : bestRestart config ansatz target warm = some best) {index : Nat}
    (tried : index < config.restarts) :
    best.distance ≤ objective ansatz target (start config ansatz warm index) := by
  have made : restart config ansatz target warm index = some ⟨index, _, _⟩ :=
    if_pos (Scalar.isFinite_exact _)
  have member := List.mem_filterMap.mpr ⟨index, List.mem_range.mpr tried, made⟩
  unfold bestRestart at chosen
  cases results : (List.range config.restarts).filterMap (restart config ansatz target warm) with
  | nil => simp [results] at member
  | cons first rest =>
      rw [results] at chosen member
      cases chosen
      have least := foldl_pick_le (fun a b : Restart ℝ => a.distance ≤ b.distance)
        (fun a => le_refl a.distance) (fun _ _ _ => le_trans) (fun a b => (better_le a b).1)
        (fun a b => (better_le a b).2) _ member
      exact least.trans (minimize_le_start config _ _)

end Search
end QuditSynth
