import Mathlib.RingTheory.RootsOfUnity.Complex
import QuditSynth.Gate.Action
import QuditSynth.Proofs.Exact.Adjoint

namespace QuditSynth.Operator

/-! # Unitary operators on the levels

Shifts and sums move every level to a level of its own, phases leave each level
where it is, and the Fourier transform has the powers of a root of unity as its
entries.
-/

open scoped Matrix

section Shift

variable {dim : Nat}

/-- The level after a level, the first one following the last. -/
def levelAfter (level : Fin dim) : Fin dim := ⟨(level + 1) % dim, Nat.mod_lt _ level.pos⟩

theorem levelAfter_injective : Function.Injective (@levelAfter dim) := by
  intro first second same
  have congruent : first.val ≡ second.val [MOD dim] :=
    Nat.ModEq.add_right_cancel' 1 (congrArg Fin.val same)
  exact Fin.ext (congruent.eq_of_lt_of_lt first.isLt second.isLt)

theorem toMatrix_cyclicShift (row col : Fin dim) :
    (cyclicShift dim : Operator ℝ).toMatrix dim row col = if row = levelAfter col then 1 else 0 := by
  rw [cyclicShift, toMatrix_ofFn]
  simp only [levelAfter, Fin.ext_iff]
  split <;> rfl

theorem shift_unitary : ((cyclicShift dim : Operator ℝ).toMatrix dim)ᴴ *
    (cyclicShift dim : Operator ℝ).toMatrix dim = 1 :=
  conjTranspose_mul_of_injective levelAfter_injective toMatrix_cyclicShift

end Shift

section Sum

variable {controlDim dim : Nat}

/-- The state after the first level was added to the second. -/
def summed (state : Fin (controlDim * dim)) : Fin (controlDim * dim) :=
  ⟨state / dim * dim + (state / dim + state % dim) % dim, by
    have positive : 0 < dim := Nat.pos_of_mul_pos_left state.pos
    have first : state / dim < controlDim :=
      Nat.div_lt_of_lt_mul (Nat.lt_of_lt_of_eq state.isLt (Nat.mul_comm controlDim dim))
    have second := Nat.mod_lt (state / dim + state % dim) positive
    have room := Nat.mul_le_mul_right dim (Nat.succ_le_of_lt first)
    rw [Nat.succ_mul] at room
    omega⟩

theorem summed_injective : Function.Injective (@summed controlDim dim) := by
  intro first second same
  have positive : 0 < dim := Nat.pos_of_mul_pos_left first.pos
  obtain ⟨quotients, sums⟩ := cell_inj (Nat.mod_lt _ positive) (Nat.mod_lt _ positive)
    (congrArg Fin.val same)
  rw [quotients] at sums
  have remainders : first % dim ≡ second % dim [MOD dim] := Nat.ModEq.add_left_cancel' _ sums
  have equal := remainders.eq_of_lt_of_lt (Nat.mod_lt _ positive) (Nat.mod_lt _ positive)
  rw [Fin.ext_iff, ← Nat.div_add_mod first.val dim, quotients, equal, Nat.div_add_mod]

theorem controlledSum_unitary : ((controlledSum controlDim dim : Operator ℝ).toMatrix
    (controlDim * dim))ᴴ * (controlledSum controlDim dim : Operator ℝ).toMatrix (controlDim * dim)
      = 1 := by
  refine conjTranspose_mul_of_injective summed_injective fun row col => ?_
  rw [controlledSum, toMatrix_ofFn]
  simp only [summed, Fin.ext_iff]
  split <;> rfl

end Sum

section Fourier

variable {dim : Nat}

/-- The first root of unity. -/
noncomputable def root (dim : Nat) : ℂ :=
  Complex.exp ((Angle.phasePeriod : ℝ) * Complex.I / dim)

theorem root_eq (dim : Nat) : root dim = Complex.exp (2 * Real.pi * Complex.I / dim) := by
  rw [root, Angle.phasePeriod_exact, Complex.ofReal_mul, Complex.ofReal_ofNat]

theorem star_root (dim : Nat) : star (root dim) = (root dim)⁻¹ := by
  rw [root_eq, ← Complex.exp_neg, Complex.star_def, ← Complex.exp_conj, map_div₀, map_mul, map_mul,
    Complex.conj_ofNat, Complex.conj_ofReal, Complex.conj_I, Complex.conj_natCast, mul_neg, neg_div]

theorem toMatrix_fourier (row col : Fin dim) :
    (fourier dim : Operator ℝ).toMatrix dim row col =
      (1 / √dim : ℝ) * root dim ^ (row.val * col.val) := by
  have primitive := Complex.isPrimitiveRoot_exp dim row.pos.ne'
  have angle : ((2 * Real.pi * (row.val * col.val % dim : Nat) / dim : ℝ) : ℂ) * Complex.I =
      (row.val * col.val % dim : Nat) * (2 * Real.pi * Complex.I / dim) := by
    push_cast
    ring
  rw [fourier, toMatrix_ofFn]
  simp only [Amplitude.value_polar, Angle.phasePeriod_exact]
  change ((1 / √dim : ℝ) : ℂ) * Complex.exp
    (((2 * Real.pi * (row.val * col.val % dim : Nat) / dim : ℝ) : ℂ) * Complex.I) = _
  rw [angle, Complex.exp_nat_mul, ← root_eq, ← pow_mod_orderOf (root dim) (row.val * col.val),
    root_eq, ← primitive.eq_orderOf]

theorem sum_roots (row col : Fin dim) :
    ∑ level : Fin dim, star (root dim ^ (level.val * row.val)) * root dim ^ (level.val * col.val) =
      if row = col then (dim : ℂ) else 0 := by
  have primitive : IsPrimitiveRoot (root dim) dim := by
    rw [root_eq]
    exact Complex.isPrimitiveRoot_exp dim row.pos.ne'
  have nonzero : root dim ^ row.val ≠ 0 := pow_ne_zero _ (Complex.exp_ne_zero _)
  let ratio := (root dim ^ row.val)⁻¹ * root dim ^ col.val
  have term : ∀ level : Fin dim, star (root dim ^ (level.val * row.val)) *
      root dim ^ (level.val * col.val) = ratio ^ level.val := by
    intro level
    rw [star_pow, star_root, inv_pow, Nat.mul_comm level.val row.val,
      Nat.mul_comm level.val col.val, pow_mul, pow_mul, ← inv_pow, ← mul_pow]
  have whole : ratio ^ dim = 1 := by
    rw [mul_pow, inv_pow, pow_right_comm, primitive.pow_eq_one, one_pow, inv_one, one_mul,
      pow_right_comm, primitive.pow_eq_one, one_pow]
  simp only [term]
  rw [Fin.sum_univ_eq_sum_range (ratio ^ ·) dim]
  by_cases same : row = col
  · have one : ratio = 1 := (inv_mul_eq_one₀ nonzero).mpr (by rw [same])
    simp [same, one]
  · have different : ratio ≠ 1 := fun one => same (Fin.ext
      (primitive.pow_inj row.isLt col.isLt ((inv_mul_eq_one₀ nonzero).mp one)))
    have vanishing := geom_sum_mul ratio dim
    rw [whole, sub_self] at vanishing
    rw [if_neg same]
    exact (mul_eq_zero.mp vanishing).resolve_right (sub_ne_zero.mpr different)

theorem fourier_unitary : ((fourier dim : Operator ℝ).toMatrix dim)ᴴ *
    (fourier dim : Operator ℝ).toMatrix dim = 1 := by
  ext row col
  have nonzero : (dim : ℝ) ≠ 0 := by exact_mod_cast row.pos.ne'
  have length : ((1 / √dim : ℝ) : ℂ) * ((1 / √dim : ℝ) : ℂ) * dim = 1 := by
    rw [← Complex.ofReal_mul, div_mul_div_comm, Real.mul_self_sqrt dim.cast_nonneg, one_mul,
      ← Complex.ofReal_natCast, ← Complex.ofReal_mul, one_div_mul_cancel nonzero,
      Complex.ofReal_one]
  have term : ∀ level : Fin dim, star ((fourier dim : Operator ℝ).toMatrix dim level row) *
      (fourier dim : Operator ℝ).toMatrix dim level col =
        ((1 / √dim : ℝ) : ℂ) * ((1 / √dim : ℝ) : ℂ) *
          (star (root dim ^ (level.val * row.val)) * root dim ^ (level.val * col.val)) := by
    intro level
    rw [toMatrix_fourier, toMatrix_fourier, star_mul', Complex.star_def, Complex.conj_ofReal]
    ring
  rw [Matrix.mul_apply, Matrix.one_apply]
  simp only [Matrix.conjTranspose_apply, term, ← Finset.mul_sum, sum_roots]
  split
  · exact length
  · exact mul_zero _

end Fourier

section Phases

variable {dim : Nat} {settings : List (Nat × Amplitude ℝ)} {u : Operator ℝ}

/-- The phase of a level, one unless it is set. -/
noncomputable def phaseOf (settings : List (Nat × Amplitude ℝ)) (level : Nat) : Amplitude ℝ :=
  (settings.reverse.lookup level).getD 1

/-- The settings of the opposite phases. -/
noncomputable def opposite (settings : List (Nat × Amplitude ℝ)) : List (Nat × Amplitude ℝ) :=
  settings.map fun setting => (setting.1, setting.2.conj)

theorem phases_eq_ok_iff : phases dim settings = .ok u ↔
    checkDim dim = .ok () ∧ (∀ setting ∈ settings, setting.1 < dim) ∧
      u = ofFn dim fun row col => if row = col then phaseOf settings row else 0 := by
  rw [phases, Outcome.check_bind_eq_ok_iff]
  refine and_congr_right fun _ => ?_
  by_cases bounds : settings.all fun setting => decide (setting.1 < dim)
  · rw [if_pos bounds]
    simp only [List.all_eq_true, decide_eq_true_eq] at bounds
    simp only [Outcome.pure_eq_ok, Except.ok.injEq]
    exact ⟨fun same => ⟨bounds, same.symm⟩, fun both => both.2.symm⟩
  · rw [if_neg bounds]
    simp only [List.all_eq_true, decide_eq_true_eq] at bounds
    exact iff_of_false (by simp) fun both => bounds both.1

theorem conj_zero : (0 : Amplitude ℝ).conj = 0 :=
  Amplitude.value_injective (star_zero ℂ)

theorem conj_one : (1 : Amplitude ℝ).conj = 1 :=
  Amplitude.value_injective (star_one ℂ)

theorem phaseOf_opposite (settings : List (Nat × Amplitude ℝ)) (level : Nat) :
    phaseOf (opposite settings) level = (phaseOf settings level).conj := by
  rw [phaseOf, phaseOf, opposite, ← List.map_reverse]
  induction settings.reverse with
  | nil => exact conj_one.symm
  | cons setting rest ih =>
      obtain ⟨other, phase⟩ := setting
      cases found : level == other with
      | true => simp [List.lookup_cons, found]
      | false => simpa [List.lookup_cons, found] using ih

theorem phases_dagger (made : phases dim settings = .ok u) :
    phases dim (opposite settings) = .ok u.dagger := by
  obtain ⟨room, bounds, rfl⟩ := phases_eq_ok_iff.mp made
  refine phases_eq_ok_iff.mpr ⟨room, List.forall_mem_map.mpr bounds, ?_⟩
  refine eq_of_entries rfl fun row rowBound col colBound => ?_
  change row < dim at rowBound
  change col < dim at colBound
  rw [dagger, dim_ofFn, entry_ofFn _ rowBound colBound, entry_ofFn _ colBound rowBound,
    entry_ofFn _ rowBound colBound]
  by_cases same : row = col
  · simp [same, phaseOf_opposite]
  · simp [same, Ne.symm same, conj_zero]

theorem phases_unitary (made : phases dim settings = .ok u)
    (unit : ∀ setting ∈ settings, star setting.2.value * setting.2.value = 1) : u.Unitary := by
  obtain ⟨_, _, rfl⟩ := phases_eq_ok_iff.mp made
  have one : ∀ level, star (phaseOf settings level).value * (phaseOf settings level).value = 1 := by
    intro level
    rw [phaseOf]
    cases found : settings.reverse.lookup level with
    | none => simp
    | some phase =>
        obtain ⟨before, after, listed, _⟩ := List.lookup_eq_some_iff.mp found
        exact unit (level, phase) (List.mem_reverse.mp (by simp [listed]))
  have diagonal : (ofFn dim fun row col => if row = col then phaseOf settings row else 0).toMatrix
      dim = Matrix.diagonal fun level : Fin dim => (phaseOf settings level).value := by
    rw [toMatrix_ofFn]
    ext row col
    by_cases same : row = col
    · simp [same]
    · simp [same, Fin.val_inj]
  rw [unitary_iff (dim_ofFn _ _), diagonal, Matrix.diagonal_conjTranspose,
    Matrix.diagonal_mul_diagonal, Matrix.diagonal_eq_one]
  exact funext fun level => one level

end Phases

end QuditSynth.Operator
