import QuditSynth.Proofs.Exact.Matrix
import Mathlib.Algebra.BigOperators.Ring.Finset

namespace QuditSynth

/-! # Placing matrices into a larger state space

A placement says which part of a state a small matrix reads and writes. Spread
over the large state space, the matrix may depend on the rest of the state, as a
controlled gate does; as long as it does not depend on the part it writes,
spreading respects products and the identity.
-/

/-- A part of a state that can be read and written. -/
structure Placement (State Part : Type) where
  read : State → Part
  write : State → Part → State
  read_write : ∀ state part, read (write state part) = part
  write_read : ∀ state, write state (read state) = state
  write_write : ∀ state first second, write (write state first) second = write state second

namespace Placement

variable {State Part : Type} (placement : Placement State Part)
  {left right : State → Matrix Part Part ℂ}

theorem write_injective (state : State) : Function.Injective (placement.write state) := by
  intro first second equal
  rw [← placement.read_write state first, equal, placement.read_write]

theorem eq_of_write {row col : State} (reached : placement.write col (placement.read row) = row)
    (same : placement.read row = placement.read col) : row = col := by
  rw [← reached, same, placement.write_read]

/-- A family of matrices that sees a state only outside its part. -/
def Blind (block : State → Matrix Part Part ℂ) : Prop :=
  ∀ state part, block (placement.write state part) = block state

/-- The matrix that acts on the part of a state as the block of that state does. -/
def spread [DecidableEq State] (block : State → Matrix Part Part ℂ) : Matrix State State ℂ :=
  fun row col =>
    if placement.write col (placement.read row) = row then
      block col (placement.read row) (placement.read col)
    else 0

variable [DecidableEq State]

theorem spread_smul (factor : ℂ) :
    placement.spread (fun state => factor • right state) = factor • placement.spread right := by
  ext row col
  simp [spread]

theorem spread_one [DecidableEq Part] : placement.spread (fun _ => 1) = 1 := by
  ext row col
  by_cases diagonal : row = col
  · rw [diagonal, spread, if_pos (placement.write_read col), Matrix.one_apply_eq,
      Matrix.one_apply_eq]
  · rw [Matrix.one_apply_ne diagonal, spread]
    split
    · next reached =>
      exact Matrix.one_apply_ne fun same => diagonal (placement.eq_of_write reached same)
    · rfl

variable [Fintype State] [Fintype Part]

/-- The states between a column and a row are those with the column's rest. -/
theorem spread_mul (blind : placement.Blind left) :
    placement.spread left * placement.spread right =
      placement.spread fun state => left state * right state := by
  ext row col
  rw [Matrix.mul_apply]
  have between : ∀ part, placement.spread left row (placement.write col part) *
      placement.spread right (placement.write col part) col =
        if placement.write col (placement.read row) = row then
          left col (placement.read row) part * right col part (placement.read col)
        else 0 := by
    intro part
    rw [spread, spread, placement.write_write, blind, placement.read_write, if_pos rfl]
    split <;> simp
  have elsewhere : ∀ middle, middle ∉ Set.range (placement.write col) →
      placement.spread left row middle * placement.spread right middle col = 0 := by
    intro middle outside
    have unreached : ¬ placement.write col (placement.read middle) = middle :=
      fun reached => outside ⟨_, reached⟩
    rw [spread, spread, if_neg unreached, mul_zero]
  rw [← Fintype.sum_of_injective (placement.write col) (placement.write_injective col) _ _
    elsewhere (fun part => (between part).symm), spread]
  split
  · rw [Matrix.mul_apply]
  · exact Finset.sum_const_zero

end Placement

namespace Axis

variable {dims targets : List Nat}

/-- The digits of some positions, as a part of the states of a register. -/
def placement (addressable : Addressable dims) (positions : Positions dims targets) :
    Placement (Fin (product dims)) (Fin (product (targetDims dims targets))) where
  read state := ⟨localState (ofTargets dims targets) state,
    localState_lt addressable positions state⟩
  write state part := ⟨refill (ofTargets dims targets) state part,
    refill_lt addressable positions state.isLt part⟩
  read_write state part := Fin.ext (localState_refill addressable positions state.isLt part.isLt)
  write_read state := by
    apply Fin.ext
    exact ((agree_iff_eq_refill addressable positions state.isLt state.isLt).mp
      fun _ _ _ => rfl).symm
  write_write state first second := by
    apply Fin.ext
    have bound := refill_lt addressable positions state.isLt first
    apply eq_of_agree addressable positions (refill_lt addressable positions bound second)
      (refill_lt addressable positions state.isLt second)
    · intro position readable outside
      rw [agree_refill addressable positions bound second position readable outside,
        agree_refill addressable positions state.isLt first position readable outside,
        agree_refill addressable positions state.isLt second position readable outside]
    · rw [localState_refill addressable positions bound second.isLt,
        localState_refill addressable positions state.isLt second.isLt]

end Axis

namespace Operator

variable {dims targets : List Nat} {controls : List (Nat × Nat)} {u v : Operator ℝ}

/-- The matrix of an operator where its controls hold, and the identity elsewhere. -/
noncomputable def guarded (dims : List Nat) (controls : List (Nat × Nat)) {size : Nat}
    (block : Matrix (Fin size) (Fin size) ℂ) (state : Fin (product dims)) :
    Matrix (Fin size) (Fin size) ℂ :=
  if Admits dims controls state then block else 1

theorem guarded_nil {size : Nat} (block : Matrix (Fin size) (Fin size) ℂ) :
    guarded dims [] block = fun _ => block := by
  funext state
  exact if_pos (admits_nil _)

theorem guarded_mul {size : Nat} (left right : Matrix (Fin size) (Fin size) ℂ)
    (state : Fin (product dims)) :
    guarded dims controls left state * guarded dims controls right state =
      guarded dims controls (left * right) state := by
  by_cases admits : Admits dims controls state <;> simp [guarded, admits]

theorem guarded_one {size : Nat} :
    guarded dims controls (1 : Matrix (Fin size) (Fin size) ℂ) = fun _ => 1 := by
  funext state
  simp [guarded]

/-- Control digits are no targets, so writing targets leaves them alone. -/
theorem admits_write (addressable : Addressable dims) (positions : Positions dims targets)
    (controlled : ControlsFit dims targets controls) (state : Fin (product dims))
    (part : Fin (product (Axis.targetDims dims targets))) :
    Admits dims controls ((Axis.placement addressable positions).write state part) ↔
      Admits dims controls state := by
  refine forall₂_congr fun control isControl => ?_
  obtain ⟨readable, outside, _⟩ := controlled control isControl
  have kept := Axis.agree_refill addressable positions state.isLt part control.1 readable outside
  change digitIn dims control.1 (Axis.refill (Axis.ofTargets dims targets) state part) = _ ↔ _
  rw [kept]

theorem guarded_write (addressable : Addressable dims) (positions : Positions dims targets)
    (controlled : ControlsFit dims targets controls) {size : Nat}
    (block : Matrix (Fin size) (Fin size) ℂ) (state : Fin (product dims))
    (part : Fin (product (Axis.targetDims dims targets))) :
    guarded dims controls block ((Axis.placement addressable positions).write state part) =
      guarded dims controls block state := by
  simp only [guarded, admits_write addressable positions controlled]

theorem blind_guarded (addressable : Addressable dims) (positions : Positions dims targets)
    (controlled : ControlsFit dims targets controls)
    (block : Matrix (Fin (product (Axis.targetDims dims targets)))
      (Fin (product (Axis.targetDims dims targets))) ℂ) :
    (Axis.placement addressable positions).Blind (guarded dims controls block) :=
  guarded_write addressable positions controlled block

/-- The matrix of an embedding. -/
theorem embed_toMatrix (addressable : Addressable dims) (positions : Positions dims targets)
    (controlled : ControlsFit dims targets controls)
    (dim : u.dim = product (Axis.targetDims dims targets)) :
    ∃ full, u.embed dims targets controls = .ok full ∧ full.dim = product dims ∧
      full.toMatrix (product dims) =
        (Axis.placement addressable positions).spread
          (guarded dims controls (u.toMatrix (product (Axis.targetDims dims targets)))) := by
  obtain ⟨full, run, fullDim, entries⟩ := embed_exists addressable positions controlled dim
  refine ⟨full, run, fullDim, ?_⟩
  ext row col
  rw [toMatrix_apply, entries honestZero_exact row row.isLt col col.isLt, embedded,
    Placement.spread, guarded]
  have reached : Axis.Agree dims targets row col ↔ (Axis.placement addressable positions).write col
      ((Axis.placement addressable positions).read row) = row := by
    rw [Axis.agree_iff_eq_refill addressable positions row.isLt col.isLt, Fin.ext_iff]
    exact eq_comm
  by_cases admits : Admits dims controls col
  · simp only [if_pos admits, reached]
    split <;> rfl
  · rw [if_neg admits, if_neg admits]
    refine Eq.trans ?_
      (congrFun₂ (Axis.placement addressable positions).spread_one row col).symm
    rw [Matrix.one_apply]
    by_cases same : row = col
    · simp [same]
    · simp [same, Fin.val_inj]

theorem toMatrix_of_embed (addressable : Addressable dims) (positions : Positions dims targets)
    (controlled : ControlsFit dims targets controls)
    (dim : u.dim = product (Axis.targetDims dims targets)) {full : Operator ℝ}
    (run : u.embed dims targets controls = .ok full) :
    full.dim = product dims ∧ full.toMatrix (product dims) =
      (Axis.placement addressable positions).spread
        (guarded dims controls (u.toMatrix (product (Axis.targetDims dims targets)))) := by
  obtain ⟨other, otherRun, described⟩ := embed_toMatrix addressable positions controlled dim
  obtain rfl : other = full := Except.ok.inj (otherRun.symm.trans run)
  exact described

theorem embed_identity (addressable : Addressable dims) (positions : Positions dims targets)
    (controlled : ControlsFit dims targets controls) :
    (identity (product (Axis.targetDims dims targets)) : Operator ℝ).embed dims targets controls =
      .ok (identity (product dims)) := by
  obtain ⟨full, run, dim, toMatrix⟩ :=
    embed_toMatrix addressable positions controlled (Operator.dim_identity _)
  rw [toMatrix_identity, guarded_one, Placement.spread_one] at toMatrix
  rw [run, eq_of_toMatrix dim (dim_identity _) (toMatrix.trans toMatrix_identity.symm)]

/-- The embedding of a product is the product of the embeddings. -/
theorem embed_mul (addressable : Addressable dims) (positions : Positions dims targets)
    (controlled : ControlsFit dims targets controls)
    (uDim : u.dim = product (Axis.targetDims dims targets))
    (vDim : v.dim = product (Axis.targetDims dims targets)) {uFull vFull : Operator ℝ}
    (uRun : u.embed dims targets controls = .ok uFull)
    (vRun : v.embed dims targets controls = .ok vFull) :
    (u * v).embed dims targets controls = .ok (uFull * vFull) := by
  obtain ⟨uFullDim, uMatrix⟩ := toMatrix_of_embed addressable positions controlled uDim uRun
  obtain ⟨_, vMatrix⟩ := toMatrix_of_embed addressable positions controlled vDim vRun
  obtain ⟨full, run, dim, toMatrix⟩ :=
    embed_toMatrix (u := u * v) addressable positions controlled uDim
  have productDim : (uFull * vFull).dim = product dims := uFullDim
  have multiplied :
      full.toMatrix (product dims) = (uFull * vFull).toMatrix (product dims) := by
    rw [toMatrix, toMatrix_mul uDim, toMatrix_mul uFullDim, uMatrix, vMatrix,
      Placement.spread_mul _ (blind_guarded addressable positions controlled _)]
    simp only [guarded_mul]
  rw [run, eq_of_toMatrix dim productDim multiplied]

end Operator
end QuditSynth
