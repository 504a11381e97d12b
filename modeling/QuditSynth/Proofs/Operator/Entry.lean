import QuditSynth.Operator
import QuditSynth.Operator.Embedding
import QuditSynth.Proofs.Outcome
import Mathlib.Tactic.Ring

namespace QuditSynth.Operator

/-! # Operators entry by entry

An operator is its dimension and its entries; what each construction puts at a
row and a column.
-/

variable {R : Type} {u v : Operator R} {dim row col : Nat}

@[simp] theorem dim_ofFn (dim : Nat) (f : Nat → Nat → Amplitude R) : (ofFn dim f).dim = dim := rfl

@[simp] theorem dim_map (f : Amplitude R → Amplitude R) (u : Operator R) :
    (u.map f).dim = u.dim := rfl

@[simp] theorem dim_setEntry (u : Operator R) (row col : Nat) (amplitude : Amplitude R) :
    (u.setEntry row col amplitude).dim = u.dim := rfl

variable [Scalar R]

theorem cell_lt (rowBound : row < dim) (colBound : col < dim) : row * dim + col < dim * dim := by
  have step := Nat.mul_le_mul_right dim (Nat.succ_le_of_lt rowBound)
  rw [Nat.succ_mul] at step
  omega

theorem cell_div (row : Nat) (colBound : col < dim) : (row * dim + col) / dim = row := by
  rw [Nat.mul_comm, Nat.mul_add_div (Nat.zero_lt_of_lt colBound), Nat.div_eq_of_lt colBound,
    Nat.add_zero]

theorem cell_mod (row : Nat) (colBound : col < dim) : (row * dim + col) % dim = col := by
  rw [Nat.mul_comm, Nat.mul_add_mod, Nat.mod_eq_of_lt colBound]

theorem cell_inj {otherRow otherCol : Nat} (colBound : col < dim) (otherBound : otherCol < dim)
    (same : row * dim + col = otherRow * dim + otherCol) : row = otherRow ∧ col = otherCol := by
  have rows := congrArg (· / dim) same
  have cols := congrArg (· % dim) same
  simp only [cell_div _ colBound, cell_div _ otherBound, cell_mod _ colBound,
    cell_mod _ otherBound] at rows cols
  exact ⟨rows, cols⟩

theorem entry_eq_cell (u : Operator R) (row : Nat) (colBound : col < u.dim) :
    u.entry row col = u.cells[row * u.dim + col]?.getD 0 := by
  rw [entry, if_pos colBound, Array.getD_eq_getD_getElem?]

theorem entry_of_dim_le_col (row : Nat) (outside : u.dim ≤ col) : u.entry row col = 0 := by
  rw [entry, if_neg (Nat.not_lt.mpr outside)]

theorem entry_ofFn (f : Nat → Nat → Amplitude R) (rowBound : row < dim) (colBound : col < dim) :
    (ofFn dim f).entry row col = f row col := by
  rw [entry_eq_cell (ofFn dim f) row colBound]
  simp only [ofFn, Array.getElem?_ofFn, cell_lt rowBound colBound, ↓reduceDIte, Option.getD_some,
    cell_div row colBound, cell_mod row colBound]

theorem entry_map (f : Amplitude R → Amplitude R) (rowBound : row < u.dim)
    (colBound : col < u.dim) : (u.map f).entry row col = f (u.entry row col) := by
  have within : row * u.dim + col < u.cells.size := by
    rw [u.size_cells]
    exact cell_lt rowBound colBound
  rw [entry_eq_cell u row colBound, entry_eq_cell (u.map f) row colBound]
  simp [map, within]

/-- Operators with the same dimension and the same entries are equal. -/
theorem eq_of_entries (dims : u.dim = v.dim)
    (entries : ∀ row < u.dim, ∀ col < u.dim, u.entry row col = v.entry row col) : u = v := by
  obtain ⟨dim, cells, size⟩ := u
  obtain ⟨otherDim, otherCells, otherSize⟩ := v
  cases dims
  congr 1
  apply Array.ext
  · rw [size, otherSize]
  · intro index within otherWithin
    rw [size] at within
    have positive : 0 < dim := Nat.pos_of_mul_pos_left (Nat.zero_lt_of_lt within)
    have rowBound : index / dim < dim := Nat.div_lt_of_lt_mul within
    have colBound : index % dim < dim := Nat.mod_lt _ positive
    have same := entries _ rowBound _ colBound
    rw [entry_eq_cell _ _ colBound, entry_eq_cell _ _ colBound] at same
    simpa only [Nat.div_add_mod', Array.getElem?_eq_getElem, size, otherSize, within,
      Option.getD_some] using same

@[simp] theorem dim_identity (dim : Nat) : (identity dim : Operator R).dim = dim := rfl

@[simp] theorem dim_zero (dim : Nat) : (zero dim : Operator R).dim = dim := rfl

@[simp] theorem dim_mul (u v : Operator R) : (u * v).dim = u.dim := rfl

@[simp] theorem dim_scale (u : Operator R) (factor : Amplitude R) :
    (u.scale factor).dim = u.dim := rfl

@[simp] theorem dim_kronecker (u v : Operator R) : (u.kronecker v).dim = u.dim * v.dim := rfl

theorem compose_eq_ok_iff {composed : Operator R} :
    u.compose v = .ok composed ↔ u.dim = v.dim ∧ u * v = composed := by
  by_cases same : u.dim = v.dim
  · simp [compose, sameDim, same]
  · simp [compose, sameDim, same]

theorem dim_of_compose {composed : Operator R} (made : u.compose v = .ok composed) :
    composed.dim = v.dim := by
  obtain ⟨same, rfl⟩ := compose_eq_ok_iff.mp made
  exact (dim_mul u v).trans same

theorem compose_eq_ok (same : u.dim = v.dim) : u.compose v = .ok (u * v) :=
  compose_eq_ok_iff.mpr ⟨same, rfl⟩

theorem entry_zero (dim row col : Nat) : (zero dim : Operator R).entry row col = 0 := by
  by_cases colBound : col < dim
  · rw [entry_eq_cell (zero dim) row colBound]
    simp only [zero, Array.getElem?_replicate]
    split <;> rfl
  · exact entry_of_dim_le_col row (Nat.le_of_not_lt colBound)

/-- Adding to a cell changes that cell and no other. -/
theorem addAt_exists (amplitude : Amplitude R) (rowBound : row < u.dim) (colBound : col < u.dim) :
    ∃ next, u.addAt row col amplitude = .ok next ∧ next.dim = u.dim ∧
      next.entry row col = u.entry row col + amplitude ∧
      ∀ otherRow otherCol, otherCol < u.dim → (otherRow ≠ row ∨ otherCol ≠ col) →
        next.entry otherRow otherCol = u.entry otherRow otherCol := by
  have inside : row * u.dim + col < u.cells.size := by
    rw [u.size_cells]
    exact cell_lt rowBound colBound
  rw [addAt, if_pos ⟨rowBound, colBound⟩]
  refine ⟨_, rfl, rfl, ?_, ?_⟩
  · rw [entry_eq_cell u row colBound]
    refine (entry_eq_cell _ row (by exact colBound)).trans ?_
    simp only [Array.getElem?_modify, ↓reduceIte, Array.getElem?_eq_getElem inside,
      Option.map_some, Option.getD_some]
  · intro otherRow otherCol otherColBound elsewhere
    have apart : row * u.dim + col ≠ otherRow * u.dim + otherCol := by
      intro same
      obtain ⟨rows, cols⟩ := cell_inj colBound otherColBound same
      rcases elsewhere with differs | differs
      · exact differs rows.symm
      · exact differs cols.symm
    rw [entry_eq_cell u otherRow otherColBound]
    refine (entry_eq_cell _ otherRow (by exact otherColBound)).trans ?_
    simp only [Array.getElem?_modify, apart, ↓reduceIte]

/-- Overwriting an entry changes that entry and no other. -/
theorem entry_setEntry (u : Operator R) (amplitude : Amplitude R) (rowBound : row < u.dim)
    (colBound : col < u.dim) (otherRow otherCol : Nat) :
    (u.setEntry row col amplitude).entry otherRow otherCol =
      if otherRow = row ∧ otherCol = col then amplitude else u.entry otherRow otherCol := by
  have inside : row * u.dim + col < u.cells.size := by
    rw [u.size_cells]
    exact cell_lt rowBound colBound
  by_cases otherBound : otherCol < u.dim
  · rw [entry_eq_cell u otherRow otherBound]
    refine (entry_eq_cell (u.setEntry row col amplitude) otherRow otherBound).trans ?_
    simp only [setEntry, if_pos colBound]
    by_cases here : otherRow = row ∧ otherCol = col
    · obtain ⟨rfl, rfl⟩ := here
      rw [if_pos ⟨rfl, rfl⟩, Array.getElem?_setIfInBounds_self_of_lt inside, Option.getD_some]
    · have apart : row * u.dim + col ≠ otherRow * u.dim + otherCol := by
        intro same
        obtain ⟨rows, cols⟩ := cell_inj colBound otherBound same
        exact here ⟨rows.symm, cols.symm⟩
      rw [if_neg here, Array.getElem?_setIfInBounds_ne apart]
  · have outside : u.dim ≤ otherCol := Nat.le_of_not_lt otherBound
    have elsewhere : ¬ (otherRow = row ∧ otherCol = col) := by
      rintro ⟨_, rfl⟩
      exact otherBound colBound
    rw [if_neg elsewhere, entry_of_dim_le_col otherRow outside]
    exact entry_of_dim_le_col otherRow outside

theorem traceOverlap_eq (same : u.dim = v.dim) :
    u.traceOverlap v = .ok (Amplitude.sum (u.dim * u.dim) fun index =>
      (u.entry (index / u.dim) (index % u.dim)).conj *
        v.entry (index / u.dim) (index % u.dim)) := by
  rw [traceOverlap, sameDim, if_pos same]
  rfl

end QuditSynth.Operator
