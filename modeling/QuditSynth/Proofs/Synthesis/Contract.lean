import QuditSynth.Proofs.Scalar.Comparable
import QuditSynth.Proofs.Synthesis.Climb

namespace QuditSynth

/-! # The contract of the layered search

A search that can make room for its tables and its angles either finds a
synthesis, and what it reports about it is true of it, or it reports the distances
of all numbers of layers, none of which is within tolerance. One that finds no
room at some number of layers fails there, unless it has stopped before.
-/

variable {R : Type} [Scalar R]

theorem Scalar.Comparable.smaller_cases (comparable : Scalar.Comparable R) {x y : R}
    (xFinite : Scalar.isFinite x = true) (yFinite : Scalar.isFinite y = true) :
    (Scalar.smaller x y = x ∧ x ≤ y) ∨ (Scalar.smaller x y = y ∧ y ≤ x) := by
  have self := comparable.beq_self x xFinite
  unfold Scalar.smaller
  by_cases below : y < x
  · exact Or.inr ⟨by simp [below], comparable.le_of_lt y x yFinite xFinite below⟩
  · exact Or.inl ⟨by simp [below, self], comparable.le_of_not_lt y x yFinite xFinite below⟩

theorem Operator.distance_exists {u v : Operator R} (same : u.dim = v.dim) :
    ∃ distance, u.distance v = .ok distance := by
  rw [distance, fidelity, traceOverlap_eq same]
  exact ⟨_, rfl⟩

namespace Search

variable {config : Config R} {family : Family} {generator : Generator R} {target : Operator R}
  {layers : Nat} {progress : Progress R} {best : Restart R}

theorem objective_spec {ansatz : Ansatz R} {params : List R}
    (levels : 0 < ansatz.generator.dims.1 ∧ 0 < ansatz.generator.dims.2)
    (size : target.dim = ansatz.generator.dims.1 * ansatz.generator.dims.2)
    (room : Operator.checkDim (ansatz.generator.dims.1 * ansatz.generator.dims.2) = .ok ())
    (built : ∀ angle phase, ∃ u, ansatz.generator.operator angle phase = .ok u)
    (count : params.length = ansatz.paramCount) :
    ∃ u, ansatz.operator params = .ok u ∧
      u.distance target = .ok (objective ansatz target params) := by
  obtain ⟨u, made, dim⟩ := Ansatz.operator_exists levels room count built
  obtain ⟨distance, measured⟩ := Operator.distance_exists (dim.trans size.symm)
  refine ⟨u, made, ?_⟩
  simp only [objective, made, measured]

/-- The distances so far: one for each number of layers, none within tolerance, and their
minimum. -/
structure Recorded (config : Config R) (layers : Nat) (progress : Progress R) : Prop where
  count : progress.layerDistances.length + 1 = layers
  finite : ∀ distance ∈ progress.layerDistances, Scalar.isFinite distance = true
  outside : ∀ distance ∈ progress.layerDistances, ¬ Content config distance
  least : (progress.best = none ∧ progress.layerDistances = []) ∨
    ∃ least, progress.best = some least ∧ least ∈ progress.layerDistances ∧
      ∀ distance ∈ progress.layerDistances, least ≤ distance

theorem Recorded.next (comparable : Scalar.Comparable R)
    (recorded : Recorded config layers progress)
    (bestFinite : Scalar.isFinite best.distance = true)
    (bestOutside : ¬ Content config best.distance) :
    Recorded config (layers + 1) (progress.next best) := by
  refine ⟨congrArg (· + 1) recorded.count, List.forall_mem_cons.mpr ⟨bestFinite, recorded.finite⟩,
    List.forall_mem_cons.mpr ⟨bestOutside, recorded.outside⟩, Or.inr ?_⟩
  rcases recorded.least with ⟨none, empty⟩ | ⟨least, some, member, below⟩
  · refine ⟨best.distance, ?_, List.mem_cons_self, ?_⟩
    · simp [Progress.next, leastDistance, none]
    · simpa [Progress.next, empty] using comparable.le_refl best.distance bestFinite
  · have leastFinite := recorded.finite least member
    have chosen : (progress.next best).best = Option.some (Scalar.smaller least best.distance) := by
      simp [Progress.next, leastDistance, some]
    rcases comparable.smaller_cases leastFinite bestFinite with ⟨same, lower⟩ | ⟨same, lower⟩
    · refine ⟨least, chosen.trans (congrArg Option.some same), List.mem_cons_of_mem _ member,
        List.forall_mem_cons.mpr ⟨lower, below⟩⟩
    · refine ⟨best.distance, chosen.trans (congrArg Option.some same), List.mem_cons_self,
        List.forall_mem_cons.mpr ⟨comparable.le_refl _ bestFinite, fun distance listed => ?_⟩⟩
      exact comparable.le_trans _ _ _ bestFinite leastFinite (recorded.finite distance listed)
        lower (below distance listed)

/-- What a search says about a synthesis it found. -/
structure Found (config : Config R) (family : Family) (generator : Generator R)
    (target : Operator R) (synthesis : Synthesis R) : Prop where
  family : synthesis.family = family
  layers : 1 ≤ synthesis.layers ∧ synthesis.layers ≤ config.maxLayers
  history : synthesis.layerDistances.length = synthesis.layers
  last : synthesis.layerDistances.getLast? = some synthesis.distance
  within : synthesis.distance ≤ Scalar.larger config.tolerance 0
  earlier : ∀ distance ∈ synthesis.layerDistances.dropLast,
    ¬ distance ≤ Scalar.larger config.tolerance 0
  params : synthesis.params.length = Ansatz.paramCount ⟨generator, synthesis.layers⟩
  distance : ∃ u, Ansatz.operator ⟨generator, synthesis.layers⟩ synthesis.params = .ok u ∧
    u.distance target = .ok synthesis.distance
  instructions : Ansatz.instructions ⟨generator, synthesis.layers⟩ synthesis.params =
    .ok synthesis.instructions

omit [Scalar R] in
theorem checkRoom_eq_ok_iff : checkRoom config = .ok () ↔
    config.maxLayers * 8 < 2 ^ 63 ∧ config.restarts * 40 < 2 ^ 63 := by
  rw [checkRoom, Outcome.check_bind_eq_ok_iff, checkCapacity_eq_ok_iff, checkCapacity_eq_ok_iff]
  rfl

theorem recorded_start (config : Config R) : Recorded config 1 ({} : Progress R) :=
  ⟨rfl, List.forall_mem_nil _, List.forall_mem_nil _, Or.inl ⟨rfl, rfl⟩⟩

section Entangler

variable {dims : Nat × Nat} (levels : 2 ≤ dims.1 ∧ 2 ≤ dims.2)
  (size : target.dim = dims.1 * dims.2) (room : Operator.checkDim (dims.1 * dims.2) = .ok ())

include levels size room

theorem report_found (recorded : Recorded config layers progress)
    (inside : layers ≤ config.maxLayers)
    (settled : Settled ⟨family.entangler dims, layers⟩ target best)
    (content : Content config best.distance) :
    ∃ synthesis, report family ⟨family.entangler dims, layers⟩ progress best = .ok synthesis ∧
      Found config family (family.entangler dims) target synthesis := by
  have count := recorded.count
  have positive := family.entangler_positive (R := R) levels
  have same : target.dim = (family.entangler dims : Generator R).dims.1 *
      (family.entangler dims : Generator R).dims.2 := by
    rw [Family.dims_entangler, size]
  have measured : ∃ u, Ansatz.operator ⟨family.entangler dims, layers⟩ best.params = .ok u ∧
      u.distance target = .ok (objective ⟨family.entangler dims, layers⟩ target best.params) :=
    objective_spec positive same (by simpa using room) (fun angle phase =>
      (Family.operator_exists levels room angle phase).imp fun _ => And.left) settled.params
  rw [← settled.distance] at measured
  obtain ⟨emitted, emits⟩ := Family.instructions_exists levels settled.params
  refine ⟨_, by rw [report, emits]; rfl, ?_⟩
  exact {
    family := rfl
    layers := by
      change 1 ≤ layers ∧ layers ≤ config.maxLayers
      omega
    history := by simpa using count
    last := by simp
    within := content
    earlier := by simpa [Content] using recorded.outside
    params := settled.params
    distance := measured
    instructions := emits }

theorem synthesizeWith_eq_climb (valid : config.validate = .ok ())
    (tables : config.maxLayers * 8 < 2 ^ 63 ∧ config.restarts * 40 < 2 ^ 63) :
    synthesizeWith config family target dims =
      climb config family (family.entangler dims) target config.maxLayers 1 {} := by
  rw [synthesizeWith_eq valid (Operator.lt_wordLimit_of_checkDim room) size
    (Family.generator_eq_ok_iff.mpr ⟨levels, rfl⟩), checkRoom_eq_ok_iff.mpr tables]
  rfl

/-- A search that is content with its best restart of one layer ends there. -/
theorem synthesizeWith_first (valid : config.validate = .ok ())
    (tables : config.maxLayers * 8 < 2 ^ 63 ∧ config.restarts * 40 < 2 ^ 63)
    (chosen : bestRestart config ⟨family.entangler dims, 1⟩ target ({} : Progress R).warm =
      some best)
    (settled : Settled ⟨family.entangler dims, 1⟩ target best)
    (content : Content config best.distance) :
    ∃ synthesis, synthesizeWith config family target dims = .ok synthesis ∧
      synthesis.layers = 1 ∧ synthesis.distance = best.distance := by
  obtain ⟨_, tries, _⟩ := Config.validate_eq_ok_iff.mp valid
  obtain ⟨more, more_eq⟩ := Nat.exists_eq_succ_of_ne_zero tries
  obtain ⟨synthesis, reported, _⟩ := report_found levels size room (recorded_start config)
    (Nat.one_le_iff_ne_zero.mpr tries) settled content
  have roomy : Roomy config (family.entangler dims : Generator R) 1 :=
    roomy_one (family.entangler_levels levels) family.paramCount_entangler (by simpa using room)
  have enough : checkAngles config ⟨family.entangler dims, 1⟩ ({} : Progress R).warm = .ok () :=
    checkAngles_of_roomy (family.entangler_levels levels) (by nofun) roomy
  refine ⟨synthesis, ?_, report_fields reported⟩
  rw [synthesizeWith_eq_climb levels size room valid tables, more_eq]
  exact (climb_stop enough chosen content more).trans reported

end Entangler

theorem standard_validate (layers : Nat) :
    ({ Config.standard with maxLayers := layers + 1 } : Config ℝ).validate = .ok () := by
  have positive : (0 : ℝ) < 0.08 := by norm_num
  exact Config.validate_eq_ok_iff.mpr ⟨Scalar.isFinite_exact _, Nat.succ_ne_zero layers,
    Nat.succ_ne_zero 3, Nat.succ_ne_zero 599, Scalar.isFinite_exact _, positive⟩

end Search
end QuditSynth
