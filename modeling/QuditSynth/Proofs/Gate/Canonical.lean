import QuditSynth.Proofs.Gate.Inverse

namespace QuditSynth

/-! # Canonical angles

Reducing the angles of a gate modulo their periods changes neither the operands
that suit the gate nor its operator. A gate whose reduced angle lies within every
tolerance of its period turns by whole periods, and is the identity wherever it
has an operator.
-/

/-- An angle within every tolerance of a multiple is one. -/
theorem Angle.wrap_eq_zero {x period : ℝ} (positive : 0 < period)
    (near : ∀ tolerance, 0 < tolerance → nearMultiple x period tolerance = true) :
    wrap x period = 0 := by
  by_contra moved
  have above : 0 < wrap x period := lt_of_le_of_ne (wrap_nonneg positive) (Ne.symm moved)
  have below : 0 < period - wrap x period := sub_pos.mpr (wrap_lt positive)
  have close := near (min (wrap x period) (period - wrap x period)) (lt_min above below)
  simp [nearMultiple] at close

namespace Amplitude

theorem polar_zero : polar (1 : ℝ) 0 = 1 := by
  rw [polar, Scalar.cos_exact, Scalar.sin_exact, Real.cos_zero, Real.sin_zero, mul_one, mul_zero]
  rfl

theorem polar_wrap (theta : ℝ) :
    polar (1 : ℝ) (-Angle.wrap theta Angle.phasePeriod) = polar 1 (-theta) := by
  simp only [polar, Scalar.sin_exact, Scalar.cos_exact, Real.cos_neg, Real.sin_neg,
    Angle.cos_wrap, Angle.sin_wrap]

end Amplitude

namespace Operator

variable {dim a b : Nat}

theorem relativePhase_wrap (dim a b : Nat) (theta : ℝ) :
    relativePhase dim a b (Angle.wrap theta Angle.rotationPeriod) =
      relativePhase dim a b theta := by
  simp only [relativePhase, Amplitude.polar, Scalar.half_exact, Scalar.cos_exact,
    Scalar.sin_exact, neg_div, Real.cos_neg, Real.sin_neg, Angle.cos_half_wrap,
    Angle.sin_half_wrap]

theorem levelPhase_wrap (dim level : Nat) (theta : ℝ) :
    levelPhase dim level (Angle.wrap theta Angle.phasePeriod) = levelPhase dim level theta := by
  rw [levelPhase, Amplitude.polar_wrap, levelPhase]

/-- Phases that are all one are the identity. -/
theorem phases_ones {settings : List (Nat × Amplitude ℝ)}
    (bounds : ∀ setting ∈ settings, setting.1 < dim) (ones : ∀ setting ∈ settings, setting.2 = 1) :
    phases dim settings = identityOn dim := by
  have one : ∀ level, phaseOf settings level = 1 := by
    intro level
    rw [phaseOf]
    cases found : settings.reverse.lookup level with
    | none => rfl
    | some phase =>
        obtain ⟨before, after, listed, _⟩ := List.lookup_eq_some_iff.mp found
        exact ones (level, phase) (List.mem_reverse.mp (by simp [listed]))
  rcases checkDim_cases dim with room | large
  · rw [identityOn, room, Outcome.ok_bind]
    refine phases_eq_ok_iff.mpr ⟨room, bounds, ?_⟩
    simp only [one]
    rfl
  · rw [phases, identityOn, large]
    rfl

theorem relativePhase_zero (aBound : a < dim) (bBound : b < dim) :
    relativePhase dim a b (0 : ℝ) = identityOn dim := by
  refine phases_ones (by simp [aBound, bBound]) ?_
  simp [Amplitude.polar_zero]

theorem levelPhase_zero {level : Nat} (bound : level < dim) :
    levelPhase dim level (0 : ℝ) = identityOn dim := by
  refine phases_ones (by simp [bound]) ?_
  simp [Amplitude.polar_zero]

theorem rotation_zero (distinct : a ≠ b) (aBound : a < dim) (bBound : b < dim) (phi : ℝ) :
    rotation dim a b 0 phi = identityOn dim := by
  rcases checkDim_cases dim with room | large
  · have same : ofBlock dim a b (rotationBlock 0 phi) = identity dim := by
      have whole : turn 0 phi = 1 := by simpa using turn_whole 0 phi
      refine eq_of_toMatrix (dim_ofFn _ _) (dim_identity _) ?_
      rw [toMatrix_ofBlock rfl aBound bBound, rotationBlock_matrix, whole,
        plane_one (by simpa using distinct), toMatrix_identity]
    rw [rotation, blockOn_eq_ok room aBound bBound, same, identityOn, room]
    rfl
  · rw [rotation, blockOn, identityOn, large]
    rfl

theorem lowestFlip_refused (short : ¬ 2 ≤ dim) :
    (lowestFlip dim : Except Error (Operator ℝ)) = .error .outOfRange := by
  rcases checkDim_cases dim with room | large
  · rw [lowestFlip, room, Outcome.ok_bind, if_neg short]
    rfl
  · rw [lowestFlip, large]
    rfl

end Operator

namespace Gate

/-- The periods of a gate's angles, in half turns. -/
def periods {R : Type} : Gate R → List Nat
  | r .. => [4, 2]
  | rz .. | ms _ => [4]
  | virtRz .. | cex .. => [2]
  | _ => []

theorem checkLevels_canonicalize {R : Type} [Scalar R] {gate : Gate R} {dims : List Nat}
    (checked : gate.checkLevels dims = .ok ()) : gate.canonicalize.checkLevels dims = .ok () := by
  rw [checkLevels_eq_ok_iff, suits_canonicalize]
  exact checkLevels_eq_ok_iff.mp checked

theorem params_canonicalize (gate : Gate ℝ) :
    List.Forall₂ (fun angle halfTurns => 0 ≤ angle ∧ angle < halfTurns * Real.pi)
      gate.canonicalize.params gate.periods := by
  have rotation : ∀ theta : ℝ, 0 ≤ Angle.wrap theta Angle.rotationPeriod ∧
      Angle.wrap theta Angle.rotationPeriod < (4 : Nat) * Real.pi := by
    intro theta
    refine ⟨Angle.wrap_nonneg Angle.rotationPeriod_pos, ?_⟩
    simpa using Angle.wrap_lt Angle.rotationPeriod_pos
  have phase : ∀ theta : ℝ, 0 ≤ Angle.wrap theta Angle.phasePeriod ∧
      Angle.wrap theta Angle.phasePeriod < (2 : Nat) * Real.pi := by
    intro theta
    refine ⟨Angle.wrap_nonneg Angle.phasePeriod_pos, ?_⟩
    simpa using Angle.wrap_lt Angle.phasePeriod_pos
  cases gate with
  | r theta phi => exact .cons (rotation theta) (.cons (phase phi) .nil)
  | rz theta | ms theta => exact .cons (rotation theta) .nil
  | virtRz theta => exact .cons (phase theta) .nil
  | cex _ _ _ phi => exact .cons (phase phi) .nil
  | h | x | csum | unitary => exact .nil

/-- Reduced angles are not reduced any further. -/
theorem canonicalize_canonicalize (gate : Gate ℝ) :
    gate.canonicalize.canonicalize = gate.canonicalize := by
  have rotation : ∀ theta : ℝ, Angle.wrap (Angle.wrap theta Angle.rotationPeriod)
      Angle.rotationPeriod = Angle.wrap theta Angle.rotationPeriod := fun theta =>
    Angle.wrap_eq_self (Angle.wrap_nonneg Angle.rotationPeriod_pos)
      (Angle.wrap_lt Angle.rotationPeriod_pos)
  have phase : ∀ theta : ℝ, Angle.wrap (Angle.wrap theta Angle.phasePeriod) Angle.phasePeriod =
      Angle.wrap theta Angle.phasePeriod := fun theta =>
    Angle.wrap_eq_self (Angle.wrap_nonneg Angle.phasePeriod_pos)
      (Angle.wrap_lt Angle.phasePeriod_pos)
  cases gate <;> simp only [canonicalize, rotation, phase]

theorem interaction_whole {first second : Nat} {theta : ℝ}
    (whole : ∀ tolerance, 0 < tolerance → (ms theta).isIdentity tolerance = true) :
    Operator.interaction first second theta = 1 := by
  rw [← Operator.interaction_wrap, Angle.wrap_eq_zero Angle.rotationPeriod_pos whole,
    Operator.interaction_zero]

section Operators

variable [Exponential ℝ] {gate : Gate ℝ} {dims : List Nat} {first second : Nat}

/-- Reduced angles have the same sines and cosines. -/
theorem operator_canonicalize (checked : gate.checkLevels dims = .ok ())
    (computed : ∀ theta, gate ≠ .ms theta) :
    gate.canonicalize.operator dims = gate.operator dims := by
  rw [operator, operator, checkLevels_canonicalize checked, checked, Outcome.ok_bind,
    Outcome.ok_bind]
  cases gate with
  | r theta phi a b =>
      simp only [canonicalize, Operator.rotation, Operator.rotationBlock_wrap]
  | rz theta a b => exact Operator.relativePhase_wrap _ a b theta
  | virtRz theta level => exact Operator.levelPhase_wrap _ level theta
  | cex control a b phi =>
      simp only [canonicalize, Operator.rotation, Operator.rotationBlock_wrap_phase]
  | ms theta => exact absurd rfl (computed theta)
  | h | x | csum | unitary => rfl

/-- Both qudits of an interaction need two levels, and the operator has to be addressed. -/
theorem ms_operator_refused
    (refused : ¬ (Operator.checkDim (first * second) = .ok () ∧ 2 ≤ first ∧ 2 ≤ second))
    (theta : ℝ) : (ms theta).operator [first, second] = .error .outOfRange := by
  have checked : (ms theta).checkLevels [first, second] = .ok () :=
    checkLevels_eq_ok_iff.mpr ⟨first, second, rfl⟩
  rw [operator, checked, Outcome.ok_bind]
  change (Operator.checkDim (first * second) >>= fun _ => Operator.lowestFlip first >>= fun u =>
    Operator.lowestFlip second >>= fun v => u.tensor v >>= fun flips =>
      pure (Exponential.exp (flips.scale ⟨0, Scalar.half (-theta)⟩))) = _
  rcases Operator.checkDim_cases (first * second) with room | large
  · rw [room, Outcome.ok_bind]
    by_cases firstLevels : 2 ≤ first
    · have secondShort : ¬ 2 ≤ second := fun secondLevels =>
        refused ⟨room, firstLevels, secondLevels⟩
      rw [Operator.lowestFlip_refused secondShort]
      rcases Operator.checkDim_cases first with firstRoom | firstLarge
      · obtain ⟨u, flipped, _⟩ := Operator.lowestFlip_exists (R := ℝ) firstRoom firstLevels
        rw [flipped]
        rfl
      · rw [Operator.lowestFlip, firstLarge]
        rfl
    · rw [Operator.lowestFlip_refused firstLevels]
      rfl
  · rw [large]
    rfl

theorem ms_operator_canonicalize (exact : Exponential.IsExact) (theta : ℝ) :
    (ms theta).canonicalize.operator [first, second] = (ms theta).operator [first, second] := by
  by_cases built : Operator.checkDim (first * second) = .ok () ∧ 2 ≤ first ∧ 2 ≤ second
  · obtain ⟨room, firstLevels, secondLevels⟩ := built
    obtain ⟨u, made, dim, toMatrix⟩ := ms_operator_exact exact room firstLevels secondLevels theta
    obtain ⟨v, reduced, sameDim, sameMatrix⟩ := ms_operator_exact exact room firstLevels
      secondLevels (Angle.wrap theta Angle.rotationPeriod)
    rw [Operator.interaction_wrap, ← toMatrix] at sameMatrix
    rw [canonicalize, made, reduced, Operator.eq_of_toMatrix sameDim dim sameMatrix]
  · rw [canonicalize, ms_operator_refused built, ms_operator_refused built]

theorem operator_whole (checked : gate.checkLevels dims = .ok ())
    (computed : ∀ theta, gate ≠ .ms theta)
    (whole : ∀ tolerance, 0 < tolerance → gate.isIdentity tolerance = true) :
    gate.operator dims = Operator.identityOn (product dims) := by
  have suits := checkLevels_eq_ok_iff.mp checked
  have never : ¬ (false = true) := Bool.false_ne_true
  rw [← operator_canonicalize checked computed, operator, checkLevels_canonicalize checked,
    Outcome.ok_bind]
  cases gate with
  | r theta phi a b =>
      obtain ⟨dim, rfl, distinct, aBound, bBound⟩ := suits
      simp only [canonicalize, Angle.wrap_eq_zero Angle.rotationPeriod_pos whole, product_single]
      exact Operator.rotation_zero distinct aBound bBound _
  | rz theta a b =>
      obtain ⟨dim, rfl, _, aBound, bBound⟩ := suits
      simp only [canonicalize, Angle.wrap_eq_zero Angle.rotationPeriod_pos whole, product_single]
      exact Operator.relativePhase_zero aBound bBound
  | virtRz theta level =>
      obtain ⟨dim, rfl, bound⟩ := suits
      simp only [canonicalize, Angle.wrap_eq_zero Angle.phasePeriod_pos whole, product_single]
      exact Operator.levelPhase_zero bound
  | ms theta => exact absurd rfl (computed theta)
  | cex | h | x | csum | unitary => exact absurd (whole 1 one_pos) never

theorem ms_operator_whole (exact : Exponential.IsExact) (firstLevels : 2 ≤ first)
    (secondLevels : 2 ≤ second) {theta : ℝ}
    (whole : ∀ tolerance, 0 < tolerance → (ms theta).isIdentity tolerance = true) :
    (ms theta).operator [first, second] = Operator.identityOn (first * second) := by
  rcases Operator.checkDim_cases (first * second) with room | large
  · obtain ⟨u, made, dim, toMatrix⟩ := ms_operator_exact exact room firstLevels secondLevels theta
    rw [interaction_whole whole, ← Operator.toMatrix_identity] at toMatrix
    rw [made, Operator.eq_of_toMatrix dim (Operator.dim_identity _) toMatrix, Operator.identityOn,
      room]
    rfl
  · rw [ms_operator_refused (by simp [large]), Operator.identityOn, large]
    rfl

end Operators

/-- Reduced angles lie within their periods and belong to the same gate; an angle that is reduced
to nothing belongs to the identity. -/
theorem canonical_angles [Exponential ℝ] (gate : Gate ℝ) (dims : List Nat)
    (checked : gate.checkLevels dims = .ok ()) :
    gate.canonicalize.checkLevels dims = .ok () ∧
    List.Forall₂ (fun angle halfTurns => 0 ≤ angle ∧ angle < halfTurns * Real.pi)
      gate.canonicalize.params gate.periods ∧
    gate.canonicalize.canonicalize = gate.canonicalize ∧
    ((∀ theta, gate ≠ .ms theta) →
      gate.canonicalize.operator dims = gate.operator dims ∧
      ((∀ tolerance, 0 < tolerance → gate.isIdentity tolerance = true) →
        gate.operator dims = Operator.identityOn (product dims))) ∧
    (∀ theta, gate = .ms theta → ∃ reduced first second,
      gate.canonicalize = .ms reduced ∧ dims = [first, second] ∧
      Operator.interaction first second reduced = Operator.interaction first second theta ∧
      (Exponential.IsExact → gate.canonicalize.operator dims = gate.operator dims) ∧
      ((∀ tolerance, 0 < tolerance → gate.isIdentity tolerance = true) →
        Operator.interaction first second theta = 1 ∧
        (Exponential.IsExact → gate.operator dims =
          if 2 ≤ first ∧ 2 ≤ second then Operator.identityOn (product dims)
          else .error .outOfRange))) := by
  refine ⟨checkLevels_canonicalize checked, gate.params_canonicalize,
    gate.canonicalize_canonicalize, ?_, ?_⟩
  · intro computed
    exact ⟨operator_canonicalize checked computed, operator_whole checked computed⟩
  · rintro theta rfl
    obtain ⟨first, second, rfl⟩ := checkLevels_eq_ok_iff.mp checked
    refine ⟨_, first, second, rfl, rfl, Operator.interaction_wrap _ _ theta,
      fun exact => ms_operator_canonicalize exact theta, fun whole => ⟨interaction_whole whole, ?_⟩⟩
    intro exact
    by_cases levels : 2 ≤ first ∧ 2 ≤ second
    · rw [if_pos levels, product_pair]
      exact ms_operator_whole exact levels.1 levels.2 whole
    · rw [if_neg levels]
      exact ms_operator_refused (fun built => levels built.2) theta

theorem canonical_angles_interaction :
    let _ : Exponential ℝ := .exact
    (ms (-1 : ℝ)).checkLevels [2, 3] = .ok () ∧ (r (-1 : ℝ) 7 0 2).checkLevels [3] = .ok () ∧
      (ms (-1 : ℝ)).canonicalize.operator [2, 3] = (ms (-1)).operator [2, 3] ∧
      (r (-1 : ℝ) 7 0 2).canonicalize.operator [3] = (r (-1 : ℝ) 7 0 2).operator [3] := by
  intro exponential
  have interaction : (ms (-1 : ℝ)).checkLevels [2, 3] = .ok () := rfl
  have rotation : (r (-1 : ℝ) 7 0 2).checkLevels [3] = .ok () := rfl
  refine ⟨interaction, rotation, ?_, ?_⟩
  · obtain ⟨_, _, _, _, _, _, same, _⟩ := (canonical_angles _ _ interaction).2.2.2.2 (-1) rfl
    exact same Exponential.isExact_exact
  · exact ((canonical_angles _ _ rotation).2.2.2.1 (by simp)).1

/-- On qudits of one level an interaction without an angle has no operator. -/
theorem single_level_interaction :
    (ms (0 : ℝ)).checkLevels [1, 1] = .ok () ∧
    (∀ tolerance : ℝ, 0 < tolerance → (ms 0).isIdentity tolerance = true) ∧
    ∀ _ : Exponential ℝ, (ms (0 : ℝ)).operator [1, 1] = .error .outOfRange := by
  refine ⟨rfl, fun tolerance positive => ?_, fun _ => ms_operator_refused (by decide) 0⟩
  rw [isIdentity, Angle.nearMultiple, Angle.wrap_zero Angle.rotationPeriod_pos]
  simp [positive]

end Gate
end QuditSynth
