import QuditSynth.Proofs.Operator.Entry

namespace QuditSynth

/-! # The test of unitarity

The unitarity error of an operator is the largest deviation of its cells, and a
deviation that is not a number gives way to all others. An operator therefore
passes for unitary exactly if all deviations that are numbers are small.
-/

namespace Scalar

variable {R : Type} [Scalar R]

/-- A value that is not a number differs from itself. -/
def isNumber (x : R) : Bool := x == x

variable {x y limit : R}

theorem larger_cases (number : isNumber x = true) :
    (x < y ∧ larger x y = y) ∨ (¬ x < y ∧ larger x y = x) := by
  rw [isNumber] at number
  by_cases below : x < y
  · exact Or.inl ⟨below, by simp [larger, below]⟩
  · exact Or.inr ⟨below, by simp [larger, below, number]⟩

theorem larger_of_undefined (undefined : isNumber x = false) (y : R) : larger x y = y := by
  rw [isNumber] at undefined
  simp [larger, undefined]

/-- Numbers are ordered, and what is not a number exceeds nothing. -/
structure Ordered (R : Type) [Scalar R] : Prop where
  zero : isNumber (0 : R) = true
  number_of_lt : ∀ x y : R, x < y → isNumber y = true
  lt_trans : ∀ x y z : R, x < y → y < z → x < z
  lt_of_not_lt : ∀ x y z : R, isNumber x = true → isNumber y = true → ¬ x < y → x < z → y < z

namespace Ordered

variable (ordered : Ordered R)

include ordered

theorem isNumber_larger (number : isNumber x = true) (y : R) : isNumber (larger x y) = true := by
  rcases larger_cases (y := y) number with ⟨below, same⟩ | ⟨_, same⟩
  · rw [same]
    exact ordered.number_of_lt x y below
  · rwa [same]

theorem larger_lt_iff (number : isNumber x = true) :
    larger x y < limit ↔ x < limit ∧ (isNumber y = true → y < limit) := by
  rcases larger_cases (y := y) number with ⟨below, same⟩ | ⟨above, same⟩
  · rw [same]
    constructor
    · exact fun small => ⟨ordered.lt_trans x y limit below small, fun _ => small⟩
    · exact fun small => small.2 (ordered.number_of_lt x y below)
  · rw [same]
    constructor
    · refine fun small => ⟨small, fun other => ?_⟩
      exact ordered.lt_of_not_lt x y limit number other above small
    · exact And.left

theorem foldl_larger_lt_iff {α : Type} (f : α → R) (values : List α) (number : isNumber x = true) :
    values.foldl (fun largest value => larger largest (f value)) x < limit ↔
      x < limit ∧ ∀ value ∈ values, isNumber (f value) = true → f value < limit := by
  induction values generalizing x with
  | nil => simp
  | cons value values ih =>
      rw [List.foldl_cons, ih (ordered.isNumber_larger number (f value)),
        ordered.larger_lt_iff number, List.forall_mem_cons, and_assoc]

end Ordered
end Scalar

namespace Operator

variable {R : Type} [Scalar R] {u : Operator R}

omit [Scalar R] in
theorem forall_mem_cells_ofFn {dim : Nat} {f : Nat → Nat → Amplitude R}
    {property : Amplitude R → Prop} :
    (∀ cell ∈ (ofFn dim f).cells.toList, property cell) ↔
      ∀ row < dim, ∀ col < dim, property (f row col) := by
  simp only [ofFn, Array.mem_toList_iff, Array.mem_ofFn, forall_exists_index,
    forall_apply_eq_imp_iff]
  constructor
  · intro every row rowBound col colBound
    simpa [cell_div row colBound, cell_mod row colBound] using
      every ⟨row * dim + col, cell_lt rowBound colBound⟩
  · intro every index
    have positive : 0 < dim := Nat.pos_of_mul_pos_left (Nat.zero_lt_of_lt index.isLt)
    exact every _ (Nat.div_lt_of_lt_mul index.isLt) _ (Nat.mod_lt _ positive)

/-- How far an entry of `u.dagger * u` is from the one of the identity. -/
def deviation (u : Operator R) (row col : Nat) : R :=
  ((u.dagger * u).entry row col - if row = col then 1 else 0).norm

theorem isUnitary_iff (ordered : Scalar.Ordered R) {tolerance : R} :
    u.isUnitary tolerance = true ↔ 0 < tolerance ∧ ∀ row < u.dim, ∀ col < u.dim,
      Scalar.isNumber (u.deviation row col) = true → u.deviation row col < tolerance := by
  rw [isUnitary, decide_eq_true_iff, unitarityError, ← Array.foldl_toList,
    ordered.foldl_larger_lt_iff _ _ ordered.zero, forall_mem_cells_ofFn]
  rfl

end Operator
end QuditSynth
