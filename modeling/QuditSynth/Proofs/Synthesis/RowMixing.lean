import QuditSynth.LocalLayer
import QuditSynth.Proofs.Operator.Entry

namespace QuditSynth.LocalLayer

/-! # Rotations column by column

A rotation overwrites two entries of every column. No column is read after it was
written, so each holds the mixture of its entries at the start.
-/

variable {R : Type} [Scalar R] {u : Operator R} {c : R} {block : Operator.Block R} {a b : Nat}

/-- The entry that mixing two rows puts at a row and a column. -/
def mixed (c : R) (block : Operator.Block R) (a b : Nat) (u : Operator R) (row col : Nat) :
    Amplitude R :=
  if row = a then (u.entry a col).scale c + block.ab * u.entry b col
  else if row = b then block.ba * u.entry a col + (u.entry b col).scale c
  else u.entry row col

@[simp] theorem dim_rotateColumn (u : Operator R) (col : Nat) :
    (rotateColumn c block a b u col).dim = u.dim := rfl

theorem entry_rotateColumn {col : Nat} (distinct : a ≠ b) (aBound : a < u.dim) (bBound : b < u.dim)
    (colBound : col < u.dim) (row other : Nat) :
    (rotateColumn c block a b u col).entry row other =
      if other = col then mixed c block a b u row col else u.entry row other := by
  rw [rotateColumn, Operator.entry_setEntry (u.setEntry a col _) _ bBound colBound,
    Operator.entry_setEntry u _ aBound colBound, mixed]
  by_cases here : other = col
  · subst here
    by_cases first : row = a
    · subst first
      simp [distinct]
    · simp [first]
  · simp [here]

theorem dim_rotateColumns (columns : List Nat) (u : Operator R) :
    (columns.foldl (rotateColumn c block a b) u).dim = u.dim := by
  induction columns generalizing u with
  | nil => rfl
  | cons col columns ih => exact (ih _).trans (dim_rotateColumn u col)

/-- After some columns, these are mixed and the others are as they were. -/
theorem entry_rotateColumns (distinct : a ≠ b) (aBound : a < u.dim) (bBound : b < u.dim)
    {count : Nat} (within : count ≤ u.dim) (row col : Nat) :
    ((List.range count).foldl (rotateColumn c block a b) u).entry row col =
      if col < count then mixed c block a b u row col else u.entry row col := by
  induction count generalizing row col with
  | zero => rfl
  | succ count ih =>
      have before := ih (Nat.le_of_succ_le within)
      have dim : ((List.range count).foldl (rotateColumn c block a b) u).dim = u.dim :=
        dim_rotateColumns _ u
      rw [List.range_succ, List.foldl_concat, entry_rotateColumn distinct (dim ▸ aBound)
        (dim ▸ bBound) (dim ▸ within)]
      by_cases here : col = count
      · -- The column is met for the first time.
        subst here
        simp [mixed, before]
      · have same : col < count + 1 ↔ col < count := by omega
        rw [if_neg here, before]
        simp only [same]

@[simp] theorem dim_applyRotation (u : Operator R) (a b : Nat) (theta phi : R) :
    (applyRotation u a b theta phi).dim = u.dim :=
  dim_rotateColumns _ u

theorem entry_applyRotation_mixed (distinct : a ≠ b) (aBound : a < u.dim) (bBound : b < u.dim)
    {col : Nat} (colBound : col < u.dim) (theta phi : R) (row : Nat) :
    (applyRotation u a b theta phi).entry row col =
      mixed (Scalar.cos (Scalar.half theta)) (Operator.rotationBlock theta phi) a b u row col :=
  (entry_rotateColumns distinct aBound bBound le_rfl row col).trans (if_pos colBound)

end QuditSynth.LocalLayer
