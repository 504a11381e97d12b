import QuditSynth.Gate.Action
import QuditSynth.Proofs.Exact.Scalar
import QuditSynth.Proofs.Operator.Embedding

namespace QuditSynth

/-! # What an embedding means

When an operator can be embedded, and what the result is, with the states of the
register read as strings of digits. Nothing is asked of the scalars but that
adding to zero gives what is added.
-/

variable {R : Type} {dims targets : List Nat} {controls : List (Nat × Nat)}

namespace Axis

/-- The number formed by the target digits of a state, the first target being the most
significant one. -/
def number (dims targets : List Nat) (state : Nat) : Nat :=
  targets.foldl (fun leading target => leading * dims.getD target 1 + digitIn dims target state) 0

theorem foldl_number (dims targets : List Nat) (state leading : Nat) :
    targets.foldl
        (fun leading target => leading * dims.getD target 1 + digitIn dims target state) leading =
      leading * product (targetDims dims targets) + localState (ofTargets dims targets) state := by
  induction targets generalizing leading with
  | nil => exact (Nat.mul_one leading).symm
  | cons target targets ih =>
      rw [List.foldl_cons, ih, localState_cons, targetDims_cons, product_cons]
      ring

theorem localState_eq_number (dims targets : List Nat) (state : Nat) :
    localState (ofTargets dims targets) state = number dims targets state := by
  rw [number, foldl_number, Nat.zero_mul, Nat.zero_add]

end Axis

namespace Operator

variable [Scalar R] {u : Operator R}

theorem legal_of_embed (positive : ∀ dim ∈ dims, 0 < dim) {full : Operator R}
    (made : u.embed dims targets controls = .ok full) :
    Positions dims targets ∧ ControlsFit dims targets controls ∧
      u.dim = product (Axis.targetDims dims targets) := by
  simp only [embed, Outcome.check_bind_eq_ok_iff] at made
  obtain ⟨targeted, controlled, made⟩ := made
  obtain ⟨within, distinct, _⟩ := checkTargets_eq_ok_iff.mp targeted
  obtain ⟨inner, multiplied, made⟩ := Outcome.bind_eq_ok_iff.mp made
  rw [wordProduct_eq (targetDims_positive positive targets)] at multiplied
  obtain ⟨_, rfl⟩ := word_eq_ok_iff.mp multiplied
  refine ⟨⟨within, distinct⟩, checkControls_eq_ok_iff.mp controlled, ?_⟩
  by_contra differs
  rw [if_pos (Ne.symm differs)] at made
  cases made

/-- An operator can be embedded exactly if its targets and controls make sense, its dimension is
that of its targets and the result can be addressed. Then every amplitude is read inside the
operator, every subtraction stays at zero or above, the cells written exist and are written once,
and every entry is the operator's at the target digits, within the identity on all others. -/
theorem embed_cells (zero_add : ∀ x : R, 0 + x = x) (u : Operator R) (dims targets : List Nat)
    (controls : List (Nat × Nat)) (positive : ∀ dim ∈ dims, 0 < dim) :
    let size := product dims
    let axes := Axis.ofTargets dims targets
    let guards := ControlDigit.ofControls dims controls
    let legal := Positions dims targets ∧ ControlsFit dims targets controls ∧
      u.dim = product (Axis.targetDims dims targets)
    let fitsInMemory := size * size * amplitudeBytes < byteLimit
    ((∃ full, u.embed dims targets controls = .ok full) ↔ legal ∧ fitsInMemory) ∧
      (legal → ¬ fitsInMemory → u.embed dims targets controls = .error .outOfRange) ∧
      ∀ full, u.embed dims targets controls = .ok full →
        full.dim = size ∧
        (∀ col < size, Axis.localState axes col < u.dim ∧
          ∀ before axis after, axes = before ++ axis :: after →
            axis.digit col * axis.stride ≤ Axis.cleared before col) ∧
        ((∀ built col, u.embedColumn axes guards built col =
            built.addAll (u.columnAdditions axes guards col)) ∧
          (zero size).addAll (u.additions dims targets controls) = .ok full ∧
          (∀ addition ∈ u.additions dims targets controls,
            addition.row < size ∧ addition.col < size) ∧
          ((u.additions dims targets controls).map Addition.cell).Nodup) ∧
        ∀ row < size, ∀ col < size,
          let amplitude := u.entry (Axis.number dims targets row) (Axis.number dims targets col)
          (full.entry row col =
            if ¬ Admits dims controls col then if row = col then 1 else 0
            else if ¬ Axis.Agree dims targets row col then 0
            else settled amplitude) ∧
          ((∀ x : R, (x == 0) = true → x = 0) → settled amplitude = amplitude) := by
  intro size axes guards legal fitsInMemory
  have room : checkDim size = .ok () ↔ fitsInMemory := checkCapacity_eq_ok_iff
  refine ⟨⟨?_, ?_⟩, ?_, ?_⟩
  · rintro ⟨full, made⟩
    obtain ⟨positions, controlled, dim⟩ := legal_of_embed positive made
    rw [embed_eq_addAll positive positions controlled dim,
      Outcome.check_bind_eq_ok_iff] at made
    exact ⟨⟨positions, controlled, dim⟩, room.mp made.1⟩
  · rintro ⟨⟨positions, controlled, dim⟩, small⟩
    have addressable : Addressable dims := ⟨positive, room.mpr small⟩
    obtain ⟨full, made, _⟩ := addAll_additions addressable positions controls dim
    refine ⟨full, ?_⟩
    rw [embed_eq_addAll positive positions controlled dim, addressable.room]
    exact made
  · rintro ⟨positions, controlled, dim⟩ large
    rw [embed_eq_addAll positive positions controlled dim]
    rcases checkCapacity_cases (size * size) amplitudeBytes with fine | refused
    · exact absurd (room.mp fine) large
    · rw [checkDim, refused]
      rfl
  · intro full made
    obtain ⟨positions, controlled, dim⟩ := legal_of_embed positive made
    rw [embed_eq_addAll positive positions controlled dim,
      Outcome.check_bind_eq_ok_iff] at made
    obtain ⟨small, made⟩ := made
    have addressable : Addressable dims := ⟨positive, small⟩
    obtain ⟨result, same, fullDim, entries⟩ := addAll_additions addressable positions controls dim
    cases made.symm.trans same
    refine ⟨fullDim, fun col colBound => ⟨?_, fun before axis after split => ?_⟩,
      ⟨embedColumn_eq_addAll axes guards, made, additions_within addressable positions,
        additions_distinct addressable positions dim⟩,
      fun row rowBound col colBound => ⟨?_, fun eq_zero => ?_⟩⟩
    · rw [dim]
      exact Axis.localState_lt addressable positions col
    · exact Axis.digit_mul_stride_le_clearFrom addressable positions colBound (fun _ _ => rfl) split
    · rw [entries (zero_add_amplitude zero_add) row rowBound col colBound,
        Axis.localState_eq_number, Axis.localState_eq_number, ite_not, ite_not]
    · exact (honestZero_of_scalars zero_add eq_zero).settled_eq _

/-- A shift of a qutrit that a qubit controls on its second level: below that level the states
stay where they are, on it the qutrit moves up. -/
theorem embed_cells_controlled_shift :
    ∃ full : Operator ℝ, (cyclicShift 3).embed [2, 3] [1] [(0, 1)] = .ok full ∧ full.dim = 6 ∧
      full.entry 1 1 = 1 ∧ full.entry 3 3 = 0 ∧ full.entry 4 3 = 1 := by
  obtain ⟨succeeds, _, meaning⟩ := embed_cells (fun x : ℝ => zero_add x) (cyclicShift 3) [2, 3] [1]
    [(0, 1)] (by decide)
  obtain ⟨full, made⟩ := succeeds.mpr
    ⟨⟨⟨by decide, by decide⟩, by unfold ControlsFit; decide, rfl⟩, by decide⟩
  obtain ⟨dim, _, _, entries⟩ := meaning full made
  have honest : ∀ x : ℝ, (x == 0) = true → x = 0 := fun _ => Scalar.beq_exact.mp
  obtain ⟨left, leftKept⟩ := entries 3 (by decide) 3 (by decide)
  obtain ⟨reached, reachedKept⟩ := entries 4 (by decide) 3 (by decide)
  refine ⟨full, made, dim, (entries 1 (by decide) 1 (by decide)).1, ?_, ?_⟩
  · exact (left.trans (leftKept honest)).trans (entry_ofFn _ (by decide) (by decide))
  · exact (reached.trans (reachedKept honest)).trans (entry_ofFn _ (by decide) (by decide))

/-- A qubit beside a qudit of so many levels that the states can be counted, but no operator on
them can be addressed. -/
theorem embed_unaddressable :
    Positions [2, 1073741824] [0] ∧ ControlsFit [2, 1073741824] [0] [] ∧
      (zero 2 : Operator ℝ).dim = product (Axis.targetDims [2, 1073741824] [0]) ∧
      product [2, 1073741824] < wordLimit ∧
      (zero 2 : Operator ℝ).embed [2, 1073741824] [0] [] = .error .outOfRange := by
  have positions : Positions [2, 1073741824] [0] := ⟨by decide, by decide⟩
  have fits : product [2, 1073741824] < wordLimit := by decide
  refine ⟨positions, controlsFit_nil, rfl, fits, ?_⟩
  rw [embed_eq_addAll (by decide) positions controlsFit_nil rfl]
  rfl

end Operator
end QuditSynth
