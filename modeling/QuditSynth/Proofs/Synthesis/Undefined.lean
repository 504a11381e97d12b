import QuditSynth.Proofs.Scalar.Numbers
import QuditSynth.Proofs.Synthesis.Contract
import QuditSynth.Proofs.Synthesis.Decomposition

namespace QuditSynth

/-! # Operators with undefined entries

An overlap that is not a number is passed over where the distance is cut off at
zero, and so is an entry that is not a number where the unitarity error is
collected. Both then count as perfect: a search is content with every target that
has an undefined entry, and an operator is decomposed if those deviations of its
cells are small that are numbers.
-/

namespace Amplitude

/-- Neither part is a number. -/
structure Undefined (a : Amplitude Float) : Prop where
  re : Scalar.isNumber a.re = false
  im : Scalar.isNumber a.im = false

variable {a b : Amplitude Float}

/-- A product mixes the parts of its factors, so that one undefined part spoils both. -/
theorem undefined_mul (part : Scalar.isNumber b.re = false ∨ Scalar.isNumber b.im = false) :
    (a * b).Undefined := by
  rcases part with re | im
  · exact ⟨Double.undefined_sub (Or.inl (Double.undefined_mul (Or.inr re))),
      Double.undefined_add (Or.inr (Double.undefined_mul (Or.inr re)))⟩
  · exact ⟨Double.undefined_sub (Or.inr (Double.undefined_mul (Or.inr im))),
      Double.undefined_add (Or.inl (Double.undefined_mul (Or.inr im)))⟩

theorem Undefined.add_left (undefined : a.Undefined) (b : Amplitude Float) : (a + b).Undefined :=
  ⟨Double.undefined_add (Or.inl undefined.re), Double.undefined_add (Or.inl undefined.im)⟩

theorem Undefined.add_right (undefined : b.Undefined) (a : Amplitude Float) : (a + b).Undefined :=
  ⟨Double.undefined_add (Or.inr undefined.re), Double.undefined_add (Or.inr undefined.im)⟩

theorem Undefined.norm (undefined : a.Undefined) : Scalar.isNumber a.norm = false :=
  Double.undefined_hypot undefined.re undefined.im

variable {term : Nat → Amplitude Float} {count index : Nat} {total : Amplitude Float}

theorem Undefined.sumFrom (undefined : total.Undefined) :
    (sumFrom term count index total.re total.im).Undefined := by
  induction count generalizing index total with
  | zero => exact undefined
  | succ count ih => exact ih (undefined.add_left (term index))

/-- One undefined term leaves the sum undefined. -/
theorem undefined_sumFrom (total : Amplitude Float) {position : Nat} (above : index ≤ position)
    (below : position < index + count) (undefined : (term position).Undefined) :
    (sumFrom term count index total.re total.im).Undefined := by
  induction count generalizing index total with
  | zero => omega
  | succ count ih =>
      rcases above.eq_or_lt with same | later
      · subst same
        have spoiled := undefined.add_right total
        exact spoiled.sumFrom
      · exact ih (total + term index) later (by omega)

end Amplitude

namespace Operator

variable {u v : Operator Float}

/-- Some part of some entry is not a number. -/
def Undefined (u : Operator Float) : Prop :=
  ∃ row < u.dim, ∃ col < u.dim,
    Scalar.isNumber (u.entry row col).re = false ∨ Scalar.isNumber (u.entry row col).im = false

theorem traceOverlap_undefined (same : u.dim = v.dim) (undefined : v.Undefined) :
    ∃ overlap, u.traceOverlap v = .ok overlap ∧ Scalar.isNumber overlap.norm = false := by
  obtain ⟨row, rowBound, col, colBound, part⟩ := undefined
  rw [← same] at rowBound colBound
  refine ⟨_, traceOverlap_eq same, Amplitude.Undefined.norm ?_⟩
  refine Amplitude.undefined_sumFrom 0 (Nat.zero_le (row * u.dim + col)) ?_ ?_
  · rw [Nat.zero_add]
    exact cell_lt rowBound colBound
  · rw [cell_div row colBound, cell_mod row colBound]
    exact Amplitude.undefined_mul part

theorem distance_undefined {overlap : Amplitude Float} (traced : u.traceOverlap v = .ok overlap)
    (undefined : Scalar.isNumber overlap.norm = false) : u.distance v = .ok 0 := by
  have fidelity : Scalar.isNumber (overlap.norm / Scalar.ofNat u.dim) = false :=
    Double.undefined_div (Or.inl undefined)
  have rest : Scalar.isNumber (1 - overlap.norm / Scalar.ofNat u.dim) = false :=
    Double.undefined_sub (Or.inr fidelity)
  rw [distance, Operator.fidelity, traced]
  exact congrArg Except.ok (Scalar.larger_of_undefined rest 0)

end Operator

namespace Search

variable {config : Config Float} {family : Family} {dims : Nat × Nat} {target : Operator Float}
  (levels : 2 ≤ dims.1 ∧ 2 ≤ dims.2) (size : target.dim = dims.1 * dims.2)
  (room : Operator.checkDim (dims.1 * dims.2) = .ok ()) (undefined : target.Undefined)

include levels size room undefined

theorem objective_undefined {layers : Nat} {params : List Float}
    (count : params.length = Ansatz.paramCount (R := Float) ⟨family.entangler dims, layers⟩) :
    objective ⟨family.entangler dims, layers⟩ target params = 0 := by
  obtain ⟨u, made, dim⟩ := Family.ansatzOperator_exists levels room count
  rw [← size] at dim
  obtain ⟨overlap, traced, spoiled⟩ := Operator.traceOverlap_undefined dim undefined
  simp only [objective, made, Operator.distance_undefined traced spoiled]

theorem steady_undefined (family : Family) (layers : Nat) :
    Steady (objective ⟨family.entangler dims, layers⟩ target)
      (Ansatz.paramCount (R := Float) ⟨family.entangler dims, layers⟩) where
  value point count := by
    rw [objective_undefined levels size room undefined count]
    decide +kernel
  slope above below aboveCount belowCount := by
    rw [objective_undefined levels size room undefined aboveCount,
      objective_undefined levels size room undefined belowCount]
    decide +kernel

/-- No restart is discarded, and each ends at distance zero. -/
theorem restart_undefined (config : Config Float) (family : Family) (layers : Nat)
    (warm : Option (List Float)) (index : Nat) :
    ∃ result, restart config ⟨family.entangler dims, layers⟩ target warm index = some result ∧
      result.distance = 0 := by
  obtain ⟨result, made, settled⟩ := restart_exists
    (steady_undefined levels size room undefined family layers) config warm index
  refine ⟨result, made, ?_⟩
  rw [settled.distance, objective_undefined levels size room undefined settled.params]

/-- A target with an undefined entry is found with one layer. -/
theorem synthesizeWith_undefined (family : Family) (valid : config.validate = .ok ())
    (tables : config.maxLayers * 8 < 2 ^ 63 ∧ config.restarts * 40 < 2 ^ 63) :
    ∃ synthesis, synthesizeWith config family target dims = .ok synthesis ∧
      synthesis.layers = 1 ∧ synthesis.distance = 0 := by
  obtain ⟨_, _, starts, _⟩ := Config.validate_eq_ok_iff.mp valid
  obtain ⟨best, chosen, settled⟩ := bestRestart_exists
    (steady_undefined levels size room undefined family 1) starts none
  have perfect := settled.distance.trans
    (objective_undefined levels size room undefined settled.params)
  have content : Content config best.distance := by
    rw [Content, perfect]
    exact Double.zero_le_larger config.tolerance
  rw [← perfect]
  exact synthesizeWith_first levels size room valid tables chosen settled content

end Search

/-- What is not a number counts as perfect: an overlap of undefined length makes the distance zero,
no restart towards a target with an undefined entry is discarded, every valid search finds such a
target with one layer, and neither the test of unitarity nor the decomposition it guards looks at
deviations that are not numbers. -/
theorem undefined_as_perfect (config : Config Float) (family : Family) (dims : Nat × Nat)
    (u target : Operator Float) (same : u.dim = target.dim) (tolerance : Float) (qudit : Qudit) :
    (∃ overlap, u.traceOverlap target = .ok overlap ∧
      (Scalar.isNumber overlap.norm = false → u.distance target = .ok 0)) ∧
    (target.Undefined → 2 ≤ dims.1 ∧ 2 ≤ dims.2 → target.dim = dims.1 * dims.2 →
      target.dim * target.dim * 16 < 2 ^ 63 →
      (∀ layers warm index, ∃ result,
        Search.restart config ⟨family.entangler dims, layers⟩ target warm index = some result ∧
          result.distance = 0) ∧
      (config.validate = .ok () →
        config.maxLayers * 8 < 2 ^ 63 ∧ config.restarts * 40 < 2 ^ 63 →
        ∃ synthesis, Search.synthesizeWith config family target dims = .ok synthesis ∧
          synthesis.layers = 1 ∧ synthesis.distance = 0)) ∧
    (u.isUnitary tolerance = true ↔ 0 < tolerance ∧ ∀ row < u.dim, ∀ col < u.dim,
      Scalar.isNumber (u.deviation row col) = true → u.deviation row col < tolerance) ∧
    ((∃ sequence, decomposeSingleQudit u qudit = .ok sequence) ↔
      u.dim ≠ 0 ∧ ∀ row < u.dim, ∀ col < u.dim,
        Scalar.isNumber (u.deviation row col) = true →
          u.deviation row col < Operator.unitarityTolerance * 1e3) := by
  have traced := Operator.traceOverlap_eq same
  refine ⟨⟨_, traced, Operator.distance_undefined traced⟩, ?_,
    Operator.isUnitary_iff Double.ordered, ?_⟩
  · intro undefined levels size held
    have room : Operator.checkDim (dims.1 * dims.2) = .ok () :=
      checkCapacity_eq_ok_iff.mpr (size ▸ held)
    exact ⟨Search.restart_undefined levels size room undefined config family,
      Search.synthesizeWith_undefined levels size room undefined family⟩
  · have positive : (0 : Float) < Operator.unitarityTolerance * 1e3 := by decide +kernel
    rw [decomposeSingleQudit_exists_iff, Operator.isUnitary_iff Double.ordered]
    exact and_congr_right fun _ => and_iff_right positive

theorem undefined_as_perfect_diagonal :
    let target : Operator Float := .diagonal [⟨Scalar.undefined, 0⟩, 1, 1, 1]
    (∃ overlap, target.traceOverlap target = .ok overlap ∧
        Scalar.isNumber overlap.norm = false) ∧
      target.distance target = .ok 0 ∧
      (∃ synthesis, Search.synthesizeWith .standard .pswap target (2, 2) = .ok synthesis ∧
        synthesis.layers = 1 ∧ synthesis.distance = 0) ∧
      target.isUnitary 1e-9 = true ∧
      ∃ sequence, decomposeSingleQudit target ⟨0⟩ = .ok sequence := by
  intro target
  have undefined : target.Undefined :=
    ⟨0, by decide +kernel, 0, by decide +kernel, Or.inl (by decide +kernel)⟩
  obtain ⟨⟨overlap, traced, near⟩, found, unitary, decomposed⟩ :=
    undefined_as_perfect .standard .pswap (2, 2) target target rfl 1e-9 ⟨0⟩
  obtain ⟨_, again, spoiled⟩ := Operator.traceOverlap_undefined rfl undefined
  cases traced.symm.trans again
  refine ⟨⟨overlap, traced, spoiled⟩, near spoiled, ?_, ?_, ?_⟩
  · refine (found undefined ?_ rfl ?_).2 ?_ ?_
    all_goals decide +kernel
  · refine unitary.mpr ⟨?_, ?_⟩
    all_goals decide +kernel
  · refine decomposed.mpr ⟨?_, ?_⟩
    all_goals decide +kernel

/-- Two operators of finite entries whose overlap is not a number, at distance zero; and an operator
whose product with its adjoint has an undefined entry but which passes for unitary. -/
theorem large_overlap_as_perfect :
    let large : Amplitude Float := ⟨1e200, 1e200⟩
    let u : Operator Float := .diagonal [large, large]
    let v : Operator Float := .diagonal [large, ⟨-1e200, -1e200⟩]
    let spoiled : Operator Float := .diagonal [⟨Scalar.undefined, 0⟩, 1]
    (∃ overlap, u.traceOverlap v = .ok overlap ∧ Scalar.isNumber overlap.norm = false ∧
        u.distance v = .ok 0) ∧
      Scalar.isNumber ((spoiled.dagger * spoiled).entry 0 0).re = false ∧
      spoiled.isUnitary 1e-9 = true ∧
      ∃ sequence, decomposeSingleQudit spoiled ⟨0⟩ = .ok sequence := by
  intro large u v spoiled
  refine ⟨⟨⟨Scalar.undefined, Scalar.undefined⟩, ?_⟩, ?_, ?_,
    decomposeSingleQudit_exists_iff.mpr ⟨?_, ?_⟩⟩
  all_goals decide +kernel

end QuditSynth
