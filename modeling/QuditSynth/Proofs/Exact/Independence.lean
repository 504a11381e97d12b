import QuditSynth.Proofs.Exact.Placement

namespace QuditSynth

/-! # Independent placements

Two parts of a state are independent if it does not matter which of them is
written first. Matrices spread over independent parts commute, as long as
neither depends on the part that the other one writes. The digits of disjoint
positions are independent, and so are embeddings without common qudits.
-/

namespace Placement

variable {State First Second : Type}

/-- Writing one part leaves the other one alone. -/
def Independent (first : Placement State First) (second : Placement State Second) : Prop :=
  ∀ state a b, second.write (first.write state a) b = first.write (second.write state b) a

variable {first : Placement State First} {second : Placement State Second}

theorem Independent.symm (independent : first.Independent second) : second.Independent first :=
  fun state b a => (independent state a b).symm

theorem Independent.read_write_other (independent : first.Independent second) (state : State)
    (b : Second) : first.read (second.write state b) = first.read state := by
  have rewritten := independent state (first.read state) b
  rw [first.write_read] at rewritten
  rw [rewritten, first.read_write]

variable [DecidableEq State] [Fintype State] {left : State → Matrix First First ℂ}
  {right : State → Matrix Second Second ℂ}

/-- Of the states between a column and a row, the one with the row's second part and the column's
rest is the only one that both matrices reach. -/
theorem Independent.spread_mul_apply (independent : first.Independent second)
    (blind : ∀ state b, left (second.write state b) = left state) (row col : State) :
    (first.spread left * second.spread right) row col =
      if first.write (second.write col (second.read row)) (first.read row) = row then
        left col (first.read row) (first.read col) *
          right col (second.read row) (second.read col)
      else 0 := by
  rw [Matrix.mul_apply, Finset.sum_eq_single (second.write col (second.read row))]
  · rw [spread, spread, second.read_write, if_pos rfl, blind, independent.read_write_other]
    split
    · rfl
    · exact zero_mul _
  · intro middle _ elsewhere
    rw [spread, spread]
    by_cases reached : first.write middle (first.read row) = row
    · have same : second.read row = second.read middle := by
        rw [← reached]
        exact independent.symm.read_write_other middle _
      have unreached : ¬ second.write col (second.read middle) = middle :=
        fun written => elsewhere (same ▸ written.symm)
      rw [if_neg unreached, mul_zero]
    · rw [if_neg reached, zero_mul]
  · intro outside
    exact absurd (Finset.mem_univ _) outside

theorem Independent.spread_commute (independent : first.Independent second)
    (leftBlind : ∀ state b, left (second.write state b) = left state)
    (rightBlind : ∀ state a, right (first.write state a) = right state) :
    first.spread left * second.spread right = second.spread right * first.spread left := by
  ext row col
  rw [independent.spread_mul_apply leftBlind, independent.symm.spread_mul_apply rightBlind,
    independent col, mul_comm]

end Placement

namespace Axis

variable {dims targets others : List Nat}

theorem digitIn_refill_of_mem (addressable : Addressable dims) (positions : Positions dims targets)
    {first second inner position : Nat} (firstBound : first < product dims)
    (secondBound : second < product dims) (isTarget : position ∈ targets) :
    digitIn dims position (refill (ofTargets dims targets) first inner) =
      digitIn dims position (refill (ofTargets dims targets) second inner) := by
  obtain ⟨index, within, rfl⟩ := List.mem_iff_getElem.mp isTarget
  rw [(refill_spec addressable positions firstBound inner).2.2 index within,
    (refill_spec addressable positions secondBound inner).2.2 index within]

/-- Disjoint positions can be written in either order. -/
theorem placement_independent (addressable : Addressable dims) (positions : Positions dims targets)
    (otherPositions : Positions dims others) (disjoint : targets.Disjoint others) :
    (placement addressable positions).Independent (placement addressable otherPositions) := by
  intro state a b
  have stateBound := state.isLt
  have aBound := refill_lt addressable positions stateBound a
  have bBound := refill_lt addressable otherPositions stateBound b
  apply Fin.ext
  apply state_eq_of_digits (refill_lt addressable otherPositions aBound b)
    (refill_lt addressable positions bBound a)
  intro position readable
  by_cases isTarget : position ∈ targets
  · have isNoOther : position ∉ others := disjoint isTarget
    rw [agree_refill addressable otherPositions aBound b position readable isNoOther]
    exact digitIn_refill_of_mem addressable positions stateBound bBound isTarget
  · rw [agree_refill addressable positions bBound a position readable isTarget]
    by_cases isOther : position ∈ others
    · exact digitIn_refill_of_mem addressable otherPositions aBound stateBound isOther
    · rw [agree_refill addressable otherPositions aBound b position readable isOther,
        agree_refill addressable otherPositions stateBound b position readable isOther,
        agree_refill addressable positions stateBound a position readable isTarget]

end Axis

namespace Operator

variable {dims targets others : List Nat} {controls otherControls : List (Nat × Nat)}
  {u v uFull vFull : Operator ℝ}

theorem ControlsFit.away (controlled : ControlsFit dims targets controls)
    (disjoint : (controls.map Prod.fst).Disjoint others) : ControlsFit dims others controls := by
  intro control isControl
  obtain ⟨within, _, level⟩ := controlled control isControl
  exact ⟨within, disjoint (List.mem_map_of_mem isControl), level⟩

/-- Embeddings commute if each leaves alone what the other one reads. -/
theorem embed_commute (addressable : Addressable dims) (positions : Positions dims targets)
    (otherPositions : Positions dims others) (controlled : ControlsFit dims targets controls)
    (otherControlled : ControlsFit dims others otherControls)
    (targetsApart : targets.Disjoint others)
    (controlsApart : (controls.map Prod.fst).Disjoint others)
    (otherControlsApart : (otherControls.map Prod.fst).Disjoint targets)
    (uDim : u.dim = product (Axis.targetDims dims targets))
    (vDim : v.dim = product (Axis.targetDims dims others))
    (uRun : u.embed dims targets controls = .ok uFull)
    (vRun : v.embed dims others otherControls = .ok vFull) : uFull * vFull = vFull * uFull := by
  obtain ⟨uFullDim, uMatrix⟩ := toMatrix_of_embed addressable positions controlled uDim uRun
  obtain ⟨vFullDim, vMatrix⟩ :=
    toMatrix_of_embed addressable otherPositions otherControlled vDim vRun
  have independent :=
    Axis.placement_independent addressable positions otherPositions targetsApart
  refine eq_of_toMatrix uFullDim vFullDim ?_
  rw [toMatrix_mul uFullDim, toMatrix_mul vFullDim, uMatrix, vMatrix]
  exact independent.spread_commute
    (guarded_write addressable otherPositions (controlled.away controlsApart) _)
    (guarded_write addressable positions (otherControlled.away otherControlsApart) _)

end Operator
end QuditSynth
