import QuditSynth.Proofs.Generator.Sequences

namespace QuditSynth

/-! # Kronecker products

An operator beside another is the first placed on the first of two qudits, then
the second placed on the second.
-/

theorem state_eq_iff_div_mod (second row col : Nat) :
    row = col ↔ row / second = col / second ∧ row % second = col % second := by
  constructor
  · rintro rfl
    exact ⟨rfl, rfl⟩
  · rintro ⟨above, below⟩
    rw [← Nat.div_add_mod row second, above, below, Nat.div_add_mod]

theorem digitIn_first_eq_div {first second state : Nat} (bound : state < first * second) :
    digitIn [first, second] 0 state = state / second := by
  rw [digitIn_cons_zero, product_single]
  exact Nat.mod_eq_of_lt (Nat.div_lt_of_lt_mul (Nat.mul_comm first second ▸ bound))

theorem digitIn_second_eq_mod (first second state : Nat) :
    digitIn [first, second] 1 state = state % second := by
  rw [digitIn_cons_succ, digitIn_cons_zero, product_nil, Nat.div_one]

section Digits

variable {dims : List Nat} {control target : Nat}

variable (two : dims.length = 2) (apart : control ≠ target) (controlBound : control < 2)
  (targetBound : target < 2)

include two apart controlBound targetBound

theorem spread_pair (addressable : Addressable dims) (positions : Positions dims [target])
    (u : Operator ℝ) (row col : Fin (product dims)) :
    (Axis.placement addressable positions).spread
        (fun _ => u.toMatrix (product (Axis.targetDims dims [target]))) row col =
      if digitIn dims control row = digitIn dims control col then
        (u.entry (digitIn dims target row) (digitIn dims target col)).value
      else 0 := by
  have reached : (Axis.placement addressable positions).write col
      ((Axis.placement addressable positions).read row) = row ↔
        digitIn dims control row = digitIn dims control col := by
    rw [← Axis.agree_pair two apart controlBound targetBound,
      Axis.agree_iff_eq_refill addressable positions row.isLt col.isLt, Fin.ext_iff]
    exact eq_comm
  have readDigit : ∀ state : Fin (product dims),
      ((Axis.placement addressable positions).read state : Nat) = digitIn dims target state :=
    fun state => Axis.localState_single dims _ state
  simp only [Placement.spread, reached, Operator.toMatrix_apply, readDigit]

end Digits

namespace Operator

/-- The matrix of a Kronecker product on a register of two qudits. -/
theorem toMatrix_kronecker {dims : List Nat} {first second : Nat} {u v : Operator ℝ}
    (pair : dims = [first, second]) (addressable : Addressable dims) (uDim : u.dim = first)
    (vDim : v.dim = second) (onFirst : Positions dims [0]) (onSecond : Positions dims [1]) :
    (u.kronecker v).toMatrix (product dims) =
      (Axis.placement addressable onSecond).spread
          (fun _ => v.toMatrix (product (Axis.targetDims dims [1]))) *
        (Axis.placement addressable onFirst).spread
          (fun _ => u.toMatrix (product (Axis.targetDims dims [0]))) := by
  subst pair uDim vDim
  have total := product_pair u.dim v.dim
  have two : [u.dim, v.dim].length = 2 := rfl
  have digitBound := digitIn_lt addressable.positive
  ext row col
  have rowBound : row.val < u.dim * v.dim := Nat.lt_of_lt_of_eq row.isLt total
  have colBound : col.val < u.dim * v.dim := Nat.lt_of_lt_of_eq col.isLt total
  -- The state between the two factors has the row's first digit and the column's second.
  have firstBound : digitIn [u.dim, v.dim] 0 row < u.dim := digitBound 0 row
  have secondBound : digitIn [u.dim, v.dim] 1 col < v.dim := digitBound 1 col
  have middleFirst := digitIn_pair_first firstBound secondBound
  have middleSecond : digitIn [u.dim, v.dim] 1
      (digitIn [u.dim, v.dim] 0 row * v.dim + digitIn [u.dim, v.dim] 1 col) =
        digitIn [u.dim, v.dim] 1 col := digitIn_pair_second secondBound
  have middleBound := pair_state_lt firstBound secondBound
  rw [Matrix.mul_apply, Finset.sum_eq_single ⟨_, middleBound⟩]
  · rw [spread_pair two Nat.zero_ne_one Nat.zero_lt_two Nat.one_lt_two,
      spread_pair two Nat.one_ne_zero Nat.one_lt_two Nat.zero_lt_two, middleFirst, middleSecond,
      if_pos rfl, if_pos rfl, toMatrix_apply]
    refine (congrArg Amplitude.value (entry_ofFn _ rowBound colBound)).trans ?_
    rw [Amplitude.value_mul, mul_comm, digitIn_first_eq_div rowBound,
      digitIn_first_eq_div colBound, digitIn_second_eq_mod, digitIn_second_eq_mod]
  · intro state _ elsewhere
    rw [spread_pair two Nat.zero_ne_one Nat.zero_lt_two Nat.one_lt_two,
      spread_pair two Nat.one_ne_zero Nat.one_lt_two Nat.zero_lt_two]
    by_cases onRow : digitIn [u.dim, v.dim] 0 row = digitIn [u.dim, v.dim] 0 state
    · have offCol : ¬ digitIn [u.dim, v.dim] 1 state = digitIn [u.dim, v.dim] 1 col := by
        intro onCol
        refine elsewhere (Fin.ext ((state_eq_iff_pair Nat.zero_ne_one Nat.zero_lt_two
          Nat.one_lt_two two state.isLt middleBound).mpr ⟨?_, ?_⟩))
        · rw [middleFirst, onRow]
        · rw [middleSecond, onCol]
      rw [if_neg offCol, mul_zero]
    · rw [if_neg onRow, zero_mul]
  · intro outside
    exact absurd (Finset.mem_univ _) outside

theorem kronecker_identity (first second : Nat) :
    (identity first : Operator ℝ).kronecker (identity second) = identity (first * second) := by
  refine eq_of_entries rfl fun row rowBound col colBound => ?_
  change row < first * second at rowBound
  change col < first * second at colBound
  have positive : 0 < second := Nat.pos_of_mul_pos_left (Nat.zero_lt_of_lt rowBound)
  have above : ∀ state < first * second, state / second < first := fun state bound =>
    Nat.div_lt_of_lt_mul (Nat.mul_comm first second ▸ bound)
  have below : ∀ state, state % second < second := fun state => Nat.mod_lt state positive
  refine (entry_ofFn _ rowBound colBound).trans ?_
  apply Amplitude.value_injective
  rw [Amplitude.value_mul, identity, identity, identity, dim_ofFn,
    entry_ofFn _ (above row rowBound) (above col colBound), entry_ofFn _ (below row) (below col),
    entry_ofFn _ rowBound colBound]
  simp only [state_eq_iff_div_mod second row col]
  by_cases high : row / second = col / second
  · by_cases low : row % second = col % second
    · simp [high, low]
    · simp [high, low]
  · simp [high]

end Operator
end QuditSynth
