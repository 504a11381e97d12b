import Mathlib.LinearAlgebra.Matrix.Block
import QuditSynth.Proofs.Exact.Distance
import QuditSynth.Proofs.Synthesis.Unitary

namespace QuditSynth

/-! # Elimination

Over exact scalars a rotation of the elimination clears the entry it aims at and
none of those cleared before it comes back: earlier columns are zero in both rows
it mixes, and the rows further down it leaves alone. What is left is triangular;
of a unitary operator it is a diagonal of phases. The rotations turned back, the
last one first, lead from there to the operator again.
-/

open scoped Matrix

/-- A pair comes up before another: in an earlier column, or further down in the same one. -/
def ComesBefore (first second : Nat × Nat) : Prop :=
  first.1 < second.1 ∨ first.1 = second.1 ∧ second.2 < first.2

theorem eliminationOrder_sorted (dim : Nat) : (eliminationOrder dim).Pairwise ComesBefore := by
  rw [eliminationOrder, List.pairwise_flatMap]
  constructor
  · intro col _
    rw [List.pairwise_map, List.pairwise_reverse]
    exact (List.pairwise_lt_range' 1 Nat.one_pos).imp fun below => Or.inr ⟨rfl, below⟩
  · apply List.pairwise_lt_range.imp
    intro first second earlier pair inFirst other inSecond
    obtain ⟨_, _, rfl⟩ := List.mem_map.mp inFirst
    obtain ⟨_, _, rfl⟩ := List.mem_map.mp inSecond
    exact Or.inl earlier

section Order

variable {dim : Nat} {before after : List (Nat × Nat)} {pair other : Nat × Nat}
  (split : eliminationOrder dim = before ++ pair :: after)

include split

theorem comesBefore_of_mem (member : other ∈ before) : ComesBefore other pair := by
  have sorted := eliminationOrder_sorted dim
  rw [split, List.pairwise_append] at sorted
  exact sorted.2.2 other member pair List.mem_cons_self

theorem mem_of_comesBefore (visited : other ∈ eliminationOrder dim)
    (earlier : ComesBefore other pair) : other ∈ before := by
  have sorted := eliminationOrder_sorted dim
  rw [split, List.pairwise_append, List.pairwise_cons] at sorted
  rw [split] at visited
  rcases List.mem_append.mp visited with done | pending
  · exact done
  · exfalso
    rcases List.mem_cons.mp pending with rfl | later
    · rcases earlier with less | ⟨_, less⟩
      · exact Nat.lt_irrefl _ less
      · exact Nat.lt_irrefl _ less
    · have back := sorted.2.1.1 other later
      unfold ComesBefore at earlier back
      omega

end Order

/-- The rotation by the angles of an elimination clears the second of two entries, also where the
first one is zero. -/
theorem turn_clears (x y : Amplitude ℝ) :
    let block := turn (Scalar.two * Scalar.atan2 y.norm x.norm)
      (y.arg - x.arg - Scalar.half Scalar.pi)
    block 1 0 * x.value + block 1 1 * y.value = 0 := by
  intro block
  let lengths : ℂ := ⟨x.norm, y.norm⟩
  have angle : (Scalar.two * Scalar.atan2 y.norm x.norm : ℝ) = 2 * lengths.arg := by
    rw [Scalar.two_exact]
    rfl
  have half : ((2 * lengths.arg : ℝ) : ℂ) / 2 = lengths.arg := by
    push_cast
    ring
  have entries : block = !![Complex.cos lengths.arg,
      Complex.sin lengths.arg * Complex.exp (-(y.arg - x.arg : ℝ) * Complex.I);
      -(Complex.sin lengths.arg * Complex.exp ((y.arg - x.arg : ℝ) * Complex.I)),
      Complex.cos lengths.arg] := by
    rw [← half, ← turn_behind, ← angle, ← Scalar.pi_exact, ← Scalar.half_exact]
  have sine : (‖lengths‖ : ℂ) * Complex.sin lengths.arg = y.norm := by
    exact_mod_cast Complex.norm_mul_sin_arg lengths
  have cosine : (‖lengths‖ : ℂ) * Complex.cos lengths.arg = x.norm := by
    exact_mod_cast Complex.norm_mul_cos_arg lengths
  have first : (x.norm : ℂ) * Complex.exp (x.arg * Complex.I) = x.value := by
    rw [Amplitude.norm_value]
    exact Complex.norm_mul_exp_arg_mul_I x.value
  have second : (y.norm : ℂ) * Complex.exp (y.arg * Complex.I) = y.value := by
    rw [Amplitude.norm_value]
    exact Complex.norm_mul_exp_arg_mul_I y.value
  have phases : Complex.exp ((y.arg - x.arg : ℝ) * Complex.I) * Complex.exp (x.arg * Complex.I) =
      Complex.exp (y.arg * Complex.I) := by
    rw [← Complex.exp_add]
    congr 1
    push_cast
    ring
  rw [entries]
  change -(Complex.sin lengths.arg * Complex.exp ((y.arg - x.arg : ℝ) * Complex.I)) * x.value +
    Complex.cos lengths.arg * y.value = 0
  by_cases vanish : (‖lengths‖ : ℂ) = 0
  · -- Both entries are zero, and so is whatever is made of them.
    rw [vanish, zero_mul] at sine cosine
    rw [← first, ← second, ← sine, ← cosine]
    ring
  · refine (mul_eq_zero.mp ?_).resolve_left vanish
    rw [← first, ← second]
    linear_combination (x.norm * y.norm : ℂ) * -phases +
      (-(x.norm * Complex.exp ((y.arg - x.arg : ℝ) * Complex.I) *
        Complex.exp (x.arg * Complex.I)) : ℂ) * sine +
      (y.norm * Complex.exp (y.arg * Complex.I) : ℂ) * cosine

namespace Elimination

section Visited

variable {R : Type} [Scalar R]

/-- The state after some pairs were visited. -/
def visited (u : Operator R) (pairs : List (Nat × Nat)) : State R := pairs.foldl step ⟨u, []⟩

theorem visited_concat (u : Operator R) (pairs : List (Nat × Nat)) (pair : Nat × Nat) :
    visited u (pairs ++ [pair]) = step (visited u pairs) pair :=
  List.foldl_concat step _ pair pairs

theorem confined_visited {u : Operator R} {pairs after : List (Nat × Nat)}
    (split : eliminationOrder u.dim = pairs ++ after) : Confined u.dim (visited u pairs) := by
  have start : Confined u.dim (⟨u, []⟩ : State R) := ⟨rfl, List.forall_mem_nil _⟩
  apply start.steps
  intro pair member
  rw [split]
  exact List.mem_append_left after member

variable {state : State R} {col row : Nat}

theorem step_of_short (short : (state.operator.entry row col).norm < eliminated) :
    step state (col, row) = state :=
  if_pos short

theorem step_of_long (long : ¬ (state.operator.entry row col).norm < eliminated) :
    step state (col, row) =
      let x := state.operator.entry col col
      let y := state.operator.entry row col
      let theta := Scalar.two * Scalar.atan2 y.norm x.norm
      let phi := y.arg - x.arg - Scalar.half Scalar.pi
      ⟨LocalLayer.applyRotation state.operator col row theta phi,
        ⟨col, row, theta, phi⟩ :: state.rotations⟩ :=
  if_neg long

/-- The rotations turned back, in the order in which they are to act. -/
def undoing (rotations : List (PlaneRotation R)) : List (Gate R) :=
  rotations.map fun rotation => .r (-rotation.theta) rotation.phi rotation.col rotation.row

theorem Confined.suits_undoing {dim : Nat} (confined : Confined dim state) :
    ∀ gate ∈ undoing state.rotations, gate.Suits [dim] := by
  intro gate member
  exact confined.suits le_rfl gate (List.mem_append_right _ member)

end Visited

/-- The entries at the given pairs of column and row are zero. -/
def Cleared (pairs : List (Nat × Nat)) (u : Operator ℝ) : Prop :=
  ∀ pair ∈ pairs, u.entry pair.2 pair.1 = 0

/-- Entries are passed over during an elimination only if they are zero. -/
def PassesOverZeros (u : Operator ℝ) : Prop :=
  ∀ before col row after, eliminationOrder u.dim = before ++ (col, row) :: after →
    ((visited u before).operator.entry row col).norm < eliminated →
      (visited u before).operator.entry row col = 0

variable {state : State ℝ} {u : Operator ℝ}

/-- A step clears its entry, and those cleared before stay so. -/
theorem Cleared.step {dim col row : Nat} {before after : List (Nat × Nat)}
    (split : eliminationOrder dim = before ++ (col, row) :: after) (confined : Confined dim state)
    (cleared : Cleared before state.operator)
    (passed : (state.operator.entry row col).norm < eliminated →
      state.operator.entry row col = 0) :
    Cleared (before ++ [(col, row)]) (step state (col, row)).operator := by
  have listed : ∀ pair ∈ before ++ (col, row) :: after, pair.1 < pair.2 ∧ pair.2 < dim := by
    intro pair member
    rw [← split] at member
    exact mem_eliminationOrder_iff.mp member
  obtain ⟨above, below⟩ : col < row ∧ row < dim := listed (col, row) (by simp)
  have dimEq := confined.dim_eq
  refine List.forall_mem_append.mpr ⟨?_, List.forall_mem_singleton.mpr ?_⟩
  · by_cases short : (state.operator.entry row col).norm < eliminated
    · rw [step_of_short short]
      exact cleared
    · rw [step_of_long short]
      rintro ⟨otherCol, otherRow⟩ member
      obtain ⟨otherAbove, otherBelow⟩ : otherCol < otherRow ∧ otherRow < dim :=
        listed (otherCol, otherRow) (List.mem_append_left _ member)
      apply Amplitude.value_injective
      rw [LocalLayer.entry_applyRotation (by omega) (by omega) (by omega) (by omega)]
      have same := cleared (otherCol, otherRow) member
      rcases comesBefore_of_mem split member with earlier | ⟨sameCol, further⟩
      · -- Both rows that are mixed are zero in an earlier column.
        have known : ∀ level, otherCol < level → level < dim →
            state.operator.entry level otherCol = 0 := fun level left right =>
          cleared (otherCol, level) (mem_of_comesBefore split
            (mem_eliminationOrder_iff.mpr ⟨left, right⟩) (Or.inl earlier))
        dsimp only at earlier same ⊢
        rw [known col earlier (by omega), known row (by omega) below, same]
        simp
      · dsimp only at sameCol further same ⊢
        rw [if_neg (by omega), if_neg (by omega), same]
  · by_cases short : (state.operator.entry row col).norm < eliminated
    · rw [step_of_short short]
      exact passed short
    · rw [step_of_long short]
      apply Amplitude.value_injective
      dsimp only
      rw [LocalLayer.entry_applyRotation (by omega) (by omega) (by omega) (by omega),
        if_neg (by omega), if_pos rfl]
      exact turn_clears _ _

theorem cleared_visited (passes : PassesOverZeros u) {before after : List (Nat × Nat)}
    (split : eliminationOrder u.dim = before ++ after) :
    Cleared before (visited u before).operator := by
  induction before using List.reverseRecOn generalizing after with
  | nil => exact List.forall_mem_nil _
  | append_singleton before pair ih =>
      rw [List.append_assoc, List.singleton_append] at split
      rw [visited_concat]
      exact (ih split).step split (confined_visited split)
        (passes before pair.1 pair.2 after split)

/-- The matrix of the rotations turned back takes the operator to where it came from. -/
def Undone (dim : Nat) (u : Operator ℝ) (state : State ℝ) : Prop :=
  Gate.mixings dim (undoing state.rotations) * state.operator.toMatrix dim = u.toMatrix dim

theorem mixing_turned_back {dim a b : Nat} (distinct : a ≠ b) (aBound : a < dim)
    (bBound : b < dim) (theta phi : ℝ) :
    (Gate.r (-theta) phi a b).mixing dim * (Gate.r theta phi a b).mixing dim = 1 := by
  have apart : (⟨a, aBound⟩ : Fin dim) ≠ ⟨b, bBound⟩ := by simpa using distinct
  rw [Gate.mixing, Gate.mixing, Operator.toMatrix_ofBlock rfl aBound bBound,
    Operator.toMatrix_ofBlock rfl aBound bBound, plane_mul apart, Operator.rotationBlock_matrix,
    Operator.rotationBlock_matrix, turn_add, neg_add_cancel, turn_zero, plane_one apart]

theorem Undone.step {dim : Nat} {pair : Nat × Nat} (inside : pair ∈ eliminationOrder dim)
    (confined : Confined dim state) (undone : Undone dim u state) :
    Undone dim u (step state pair) := by
  obtain ⟨col, row⟩ := pair
  obtain ⟨above, below⟩ : col < row ∧ row < dim := mem_eliminationOrder_iff.mp inside
  by_cases short : (state.operator.entry row col).norm < eliminated
  · rw [step_of_short short]
    exact undone
  · have distinct : col ≠ row := Nat.ne_of_lt above
    have colBound : col < dim := Nat.lt_trans above below
    rw [step_of_long short, Undone, undoing, List.map_cons, Gate.mixings,
      LocalLayer.toMatrix_applyRotation confined.dim_eq distinct colBound below,
      Matrix.mul_assoc, ← Matrix.mul_assoc (Gate.mixing _ _),
      mixing_turned_back distinct colBound below, Matrix.one_mul]
    exact undone

theorem undone_visited {before after : List (Nat × Nat)}
    (split : eliminationOrder u.dim = before ++ after) : Undone u.dim u (visited u before) := by
  induction before using List.reverseRecOn generalizing after with
  | nil => exact Matrix.one_mul _
  | append_singleton before pair ih =>
      rw [List.append_assoc, List.singleton_append] at split
      rw [visited_concat]
      exact (ih split).step (by simp [split]) (confined_visited split)

end Elimination

/-- A triangular unitary matrix is a diagonal of phases. -/
theorem diagonal_of_triangular {size : Nat} {m : Matrix (Fin size) (Fin size) ℂ}
    (triangular : ∀ row col, col < row → m row col = 0) (unitary : mᴴ * m = 1) :
    (∀ row col, row ≠ col → m row col = 0) ∧ ∀ level, ‖m level level‖ = 1 := by
  have inverse : m⁻¹ = mᴴ := Matrix.inv_eq_left_inv unitary
  have upper : m.BlockTriangular id := fun row col below => triangular row col below
  have : Invertible m := ⟨mᴴ, unitary, mul_eq_one_comm.mp unitary⟩
  have lower := Matrix.blockTriangular_inv_of_blockTriangular upper
  rw [inverse] at lower
  have diagonal : ∀ row col, row ≠ col → m row col = 0 := by
    intro row col apart
    rcases lt_or_gt_of_ne apart with above | below
    · exact star_eq_zero.mp (lower above)
    · exact triangular row col below
  refine ⟨diagonal, fun level => ?_⟩
  have length := congrFun₂ unitary level level
  rw [Matrix.mul_apply, Finset.sum_eq_single level, Matrix.conjTranspose_apply,
    Matrix.one_apply_eq, Complex.star_def, ← Complex.normSq_eq_conj_mul_self] at length
  · rw [Complex.norm_def, Complex.ofReal_eq_one.mp length, Real.sqrt_one]
  · intro row _ apart
    rw [diagonal row level apart, mul_zero]
  · simp

namespace Elimination

variable {u : Operator ℝ}

theorem run_undone (u : Operator ℝ) : Undone u.dim u (run u) :=
  undone_visited (List.append_nil _).symm

/-- The elimination of a unitary operator ends in a diagonal of phases. -/
theorem run_diagonal (unitary : u.Unitary) (passes : PassesOverZeros u) :
    (∀ row < u.dim, ∀ col < u.dim, row ≠ col → (run u).operator.entry row col = 0) ∧
      ∀ level < u.dim, ((run u).operator.entry level level).norm = 1 := by
  have whole : eliminationOrder u.dim = eliminationOrder u.dim ++ [] := (List.append_nil _).symm
  have cleared : Cleared (eliminationOrder u.dim) (run u).operator := cleared_visited passes whole
  have undone := run_undone u
  have turned := Gate.mixings_unitary (confined_run u).suits_undoing
  let left := (run u).operator.toMatrix u.dim
  have leftUnitary : leftᴴ * left = 1 := by
    have start := (Operator.unitary_iff rfl).mp unitary
    rw [← undone, Matrix.conjTranspose_mul, Matrix.mul_assoc,
      ← Matrix.mul_assoc (Gate.mixings _ _)ᴴ, turned, Matrix.one_mul] at start
    exact start
  have triangular : ∀ row col, col < row → left row col = 0 := by
    intro row col below
    have zero := cleared (col, row) (mem_eliminationOrder_iff.mpr ⟨below, row.isLt⟩)
    exact congrArg Amplitude.value zero
  obtain ⟨diagonal, lengths⟩ := diagonal_of_triangular triangular leftUnitary
  constructor
  · intro row rowBound col colBound apart
    exact Amplitude.value_injective
      (diagonal ⟨row, rowBound⟩ ⟨col, colBound⟩ (by simpa using apart))
  · intro level bound
    rw [Amplitude.norm_value]
    exact lengths ⟨level, bound⟩

end Elimination
end QuditSynth
