import QuditSynth.Synthesis.Ansatz
import QuditSynth.Proofs.Outcome
import Mathlib.Tactic.Ring

namespace QuditSynth

/-! # The layout of parameters

Parameters of an ansatz are those of its layers and entanglers one after the
other. They can be cut up again as soon as there are enough of them, and there is
one way to do it.
-/

variable {R : Type}

theorem splitParams_eq_ok_iff {count : Nat} {params front rest : List R} :
    splitParams count params = .ok (front, rest) ↔
      front ++ rest = params ∧ front.length = count := by
  unfold splitParams
  by_cases enough : count ≤ params.length
  · rw [if_pos enough, List.splitAt_eq, Except.ok.injEq, Prod.mk.injEq]
    constructor
    · rintro ⟨rfl, rfl⟩
      exact ⟨List.take_append_drop count params, List.length_take_of_le enough⟩
    · rintro ⟨rfl, rfl⟩
      exact ⟨List.take_left, List.drop_left⟩
  · rw [if_neg enough]
    constructor
    · nofun
    · rintro ⟨rfl, rfl⟩
      simp at enough

theorem splitParams_exists {count : Nat} {params : List R} (enough : count ≤ params.length) :
    ∃ front rest, splitParams count params = .ok (front, rest) ∧ front.length = count ∧
      rest.length = params.length - count :=
  ⟨params.take count, params.drop count,
    splitParams_eq_ok_iff.mpr ⟨List.take_append_drop count params, List.length_take_of_le enough⟩,
    List.length_take_of_le enough, List.length_drop⟩

namespace LocalLayer

variable {layer : LocalLayer}

theorem split_eq_ok_iff {params : List R} {phases : List (R × Nat)}
    {rotations : List ((Nat × Nat) × (R × R))} :
    layer.split params = .ok (phases, rotations) ↔
      0 < layer.dim ∧ ∃ angles rest, angles ++ rest = params ∧ angles.length = layer.dim - 1 ∧
        phases = angles.zipIdx ∧ rotations = layer.pairs.zip (inPairs rest) := by
  unfold split
  by_cases none : layer.dim = 0
  · simp [none]
  · simp only [none, if_false, Outcome.pure_eq_ok, Outcome.bind_eq_ok_iff, Prod.exists,
      splitParams_eq_ok_iff, Except.ok.injEq, Prod.mk.injEq]
    constructor
    · rintro ⟨angles, rest, ⟨joined, count⟩, rfl, rfl⟩
      exact ⟨Nat.pos_of_ne_zero none, angles, rest, joined, count, rfl, rfl⟩
    · rintro ⟨_, angles, rest, joined, count, rfl, rfl⟩
      exact ⟨angles, rest, ⟨joined, count⟩, rfl, rfl⟩

end LocalLayer

namespace Ansatz

/-- All parameters of some slices, in order. -/
def Slices.params (slices : Slices R) : List R :=
  slices.opening ++ slices.blocks.flatMap fun block => block.1 ++ block.2

/-- Slices of the lengths that an ansatz asks for. -/
structure Fits (ansatz : Ansatz R) (slices : Slices R) : Prop where
  opening : slices.opening.length = ansatz.localParams
  layers : slices.blocks.length = ansatz.layers
  angles : ∀ block ∈ slices.blocks, block.1.length = ansatz.entanglerParams
  inner : ∀ block ∈ slices.blocks, block.2.length = ansatz.localParams

variable {ansatz : Ansatz R}

theorem sliceBlocks_eq_ok_iff {layers : Nat} {params : List R}
    {blocks : List (List R × List R)} :
    ansatz.sliceBlocks layers params = .ok blocks ↔
      blocks.length = layers ∧
        (∀ block ∈ blocks, block.1.length = ansatz.entanglerParams) ∧
        (∀ block ∈ blocks, block.2.length = ansatz.localParams) ∧
        (blocks.flatMap fun block => block.1 ++ block.2) <+: params := by
  induction layers generalizing params blocks with
  | zero =>
      rw [sliceBlocks, Except.ok.injEq, List.length_eq_zero_iff]
      constructor
      · rintro rfl
        simp
      · rintro ⟨rfl, _⟩
        rfl
  | succ layers ih =>
      simp only [sliceBlocks, Outcome.bind_eq_ok_iff, Prod.exists, splitParams_eq_ok_iff, ih,
        Outcome.pure_eq_ok, Except.ok.injEq]
      constructor
      · rintro ⟨angles, _, ⟨rfl, anglesLength⟩, inner, rest, ⟨rfl, innerLength⟩, blocks,
          ⟨count, anglesFit, innerFit, front⟩, rfl⟩
        refine ⟨by simp [count], List.forall_mem_cons.mpr ⟨anglesLength, anglesFit⟩,
          List.forall_mem_cons.mpr ⟨innerLength, innerFit⟩, ?_⟩
        rw [List.flatMap_cons, List.append_assoc]
        exact (List.prefix_append_right_inj _).mpr ((List.prefix_append_right_inj _).mpr front)
      · rintro ⟨count, anglesFit, innerFit, front⟩
        cases blocks with
        | nil => simp at count
        | cons block blocks =>
            obtain ⟨rest, rfl⟩ := front
            obtain ⟨anglesLength, anglesFit⟩ := List.forall_mem_cons.mp anglesFit
            obtain ⟨innerLength, innerFit⟩ := List.forall_mem_cons.mp innerFit
            refine ⟨block.1, _, ⟨?_, anglesLength⟩, block.2,
              (blocks.flatMap fun block => block.1 ++ block.2) ++ rest, ⟨rfl, innerLength⟩, blocks,
              ⟨by simpa using count, anglesFit, innerFit, List.prefix_append _ _⟩, rfl⟩
            simp

theorem slices_eq_ok_iff {params : List R} {slices : Slices R} :
    ansatz.slices params = .ok slices ↔ ansatz.Fits slices ∧ slices.params <+: params := by
  simp only [Ansatz.slices, Outcome.bind_eq_ok_iff, Prod.exists, splitParams_eq_ok_iff,
    sliceBlocks_eq_ok_iff, Outcome.pure_eq_ok, Except.ok.injEq]
  constructor
  · rintro ⟨opening, rest, ⟨rfl, openingLength⟩, blocks, ⟨count, angles, inner, front⟩, rfl⟩
    exact ⟨⟨openingLength, count, angles, inner⟩, (List.prefix_append_right_inj _).mpr front⟩
  · rintro ⟨fits, rest, rfl⟩
    refine ⟨slices.opening, _, ⟨?_, fits.opening⟩, slices.blocks,
      ⟨fits.layers, fits.angles, fits.inner, List.prefix_append _ rest⟩, rfl⟩
    simp [Slices.params]

theorem Fits.length_params {slices : Slices R} (fits : ansatz.Fits slices) :
    slices.params.length = ansatz.paramCount := by
  have each : ∀ block ∈ slices.blocks,
      (block.1 ++ block.2).length = ansatz.entanglerParams + ansatz.localParams := by
    intro block member
    rw [List.length_append, fits.angles block member, fits.inner block member]
  rw [Slices.params, List.length_append, fits.opening, List.length_flatMap,
    List.map_congr_left each, List.map_const', List.sum_replicate_nat, fits.layers, paramCount]
  ring

theorem sliceBlocks_exists {layers : Nat} {params : List R}
    (enough : layers * (ansatz.entanglerParams + ansatz.localParams) ≤ params.length) :
    ∃ blocks, ansatz.sliceBlocks layers params = .ok blocks := by
  induction layers generalizing params with
  | zero => exact ⟨[], rfl⟩
  | succ layers ih =>
      rw [Nat.succ_mul] at enough
      obtain ⟨angles, rest, anglesSplit, _, restLength⟩ :=
        splitParams_exists (show ansatz.entanglerParams ≤ params.length by omega)
      obtain ⟨inner, last, innerSplit, _, lastLength⟩ :=
        splitParams_exists (show ansatz.localParams ≤ rest.length by omega)
      have left : layers * (ansatz.entanglerParams + ansatz.localParams) ≤ last.length := by omega
      obtain ⟨blocks, sliced⟩ := ih left
      exact ⟨(angles, inner) :: blocks, by simp [sliceBlocks, anglesSplit, innerSplit, sliced]⟩

/-- Parameters of the right number are exactly those of their slices. -/
theorem slices_exists {params : List R} (count : params.length = ansatz.paramCount) :
    ∃ slices, ansatz.slices params = .ok slices ∧ ansatz.Fits slices ∧ slices.params = params := by
  have total : ansatz.paramCount = ansatz.localParams +
      ansatz.layers * (ansatz.entanglerParams + ansatz.localParams) := by
    rw [paramCount]
    ring
  obtain ⟨opening, rest, split, _, restLength⟩ :=
    splitParams_exists (show ansatz.localParams ≤ params.length by omega)
  have left : ansatz.layers * (ansatz.entanglerParams + ansatz.localParams) ≤ rest.length := by
    omega
  obtain ⟨blocks, sliced⟩ := sliceBlocks_exists left
  have made : ansatz.slices params = .ok ⟨opening, blocks⟩ := by
    simp [Ansatz.slices, split, sliced]
  obtain ⟨fits, front⟩ := slices_eq_ok_iff.mp made
  exact ⟨_, made, fits, front.eq_of_length (fits.length_params.trans count.symm)⟩

end Ansatz
end QuditSynth
