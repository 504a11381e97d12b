import QuditSynth.Proofs.Gate.Operator
import QuditSynth.Proofs.Instruction.Validity

namespace QuditSynth

/-! # Register arithmetic in words

Products of dimensions are multiplied out in 64-bit words, and one that does not
fit in a word is out of range. So the total dimension of a register, its strides
and the sizes of its custom operators are right exactly as long as the products
they stand for fit. Words that wrap around would be right as long, but wrong then.
-/

/-- The product of dimensions, multiplied out in words that wrap around. -/
def machineProduct (dims : List Nat) : UInt64 :=
  dims.foldl (fun total dim => total * UInt64.ofNat dim) 1

theorem toNat_foldl_mul (start : UInt64) (dims : List Nat) :
    (dims.foldl (fun total dim => total * UInt64.ofNat dim) start).toNat =
      start.toNat * product dims % wordLimit := by
  induction dims generalizing start with
  | nil =>
      rw [List.foldl_nil, product_nil, Nat.mul_one]
      exact (Nat.mod_eq_of_lt start.toNat_lt).symm
  | cons dim rest ih =>
      have word : (UInt64.ofNat dim).toNat = dim % wordLimit := UInt64.toNat_ofNat'
      have step : (start * UInt64.ofNat dim).toNat = start.toNat * dim % wordLimit := by
        refine (UInt64.toNat_mul start (UInt64.ofNat dim)).trans ?_
        rw [word]
        exact Nat.mul_mod_mod _ _ _
      rw [List.foldl_cons, ih, step, product_cons, Nat.mod_mul_mod, Nat.mul_assoc]

theorem toNat_machineProduct (dims : List Nat) :
    (machineProduct dims).toNat = product dims % wordLimit := by
  refine (toNat_foldl_mul 1 dims).trans ?_
  rw [UInt64.toNat_one, Nat.one_mul]

namespace Register

variable {R : Type} {register inner : Register} {qudits : List Qudit}

/-- The dimension of a custom operator is compared with a word. -/
theorem checkLevels_custom (register : Register) (name : String) (u : Operator R) :
    (product register.dims < wordLimit →
      ((Gate.unitary name u).checkLevels register.dims = .ok () ↔
        u.dim = product register.dims)) ∧
    (¬ product register.dims < wordLimit →
      (Gate.unitary name u).checkLevels register.dims = .error .outOfRange) := by
  have multiplied := wordProduct_eq register.positive
  constructor
  · intro fits
    rw [word_of_lt fits] at multiplied
    rw [Gate.checkLevels_eq_ok_iff, Gate.Suits, multiplied, Except.ok.injEq]
    exact (and_iff_right register.dims_ne_nil).trans eq_comm
  · intro large
    rw [word_refused large] at multiplied
    simp [Gate.checkLevels, Gate.checkArity, Gate.arity, multiplied]

theorem product_le_of_select (selected : register.select qudits = .ok inner)
    (distinct : qudits.Nodup) : product inner.dims ≤ product register.dims := by
  obtain ⟨within, dims⟩ := select_eq_ok_iff.mp selected
  have positions : Positions register.dims (qudits.map Qudit.index) :=
    ⟨List.forall_mem_map.mpr within, distinct.map Qudit.index_injective⟩
  rw [dims]
  exact positions.product_le register.positive

theorem select_qudits (register : Register) : register.select register.qudits = .ok register := by
  have indices : register.qudits.map Qudit.index = List.range register.size := by
    simp [qudits, Function.comp_def]
  rw [select_eq_ok_iff]
  constructor
  · intro qudit member
    have listed := List.mem_map_of_mem (f := Qudit.index) member
    rw [indices] at listed
    exact List.mem_range.mp listed
  · rw [indices]
    exact (Axis.targetDims_range register.dims).symm

theorem nodup_qudits (register : Register) : register.qudits.Nodup :=
  List.nodup_range.map fun _ _ same => congrArg Qudit.index same

/-- The total dimension exists and is right exactly if it fits in a word, the strides exactly if the
first of them does, and the sizes that custom operators are compared with exactly if the total
dimension does; anything else is out of range. Multiplied in words that wrap around, the same
products are right under the same conditions. -/
theorem arithmetic_in_words (R : Type) [Scalar R] (register : Register) :
    (register.totalDimension = .ok (product register.dims) ↔
      product register.dims < wordLimit) ∧
    (¬ product register.dims < wordLimit → register.totalDimension = .error .outOfRange) ∧
    (strides register.dims = .ok ((List.range register.size).map (weight register.dims)) ↔
      product register.dims.tail < wordLimit) ∧
    (¬ product register.dims.tail < wordLimit →
      strides register.dims = .error .outOfRange) ∧
    ((∀ qudits inner, qudits.Nodup → register.select qudits = .ok inner →
      ∀ name (u : Operator R),
        (Gate.unitary name u).checkLevels inner.dims = .ok () ↔ u.dim = product inner.dims) ↔
          product register.dims < wordLimit) ∧
    (∀ qudits inner, register.select qudits = .ok inner → ¬ product inner.dims < wordLimit →
      ∀ name (u : Operator R),
        (Gate.unitary name u).checkLevels inner.dims = .error .outOfRange) ∧
    ∀ factors, (machineProduct factors).toNat = product factors % wordLimit ∧
      ((machineProduct factors).toNat = product factors ↔ product factors < wordLimit) := by
  have total := wordProduct_eq register.positive
  refine ⟨?_, fun large => ?_, ?_, strides_refused, ⟨fun exact => ?_, fun fits => ?_⟩, ?_, ?_⟩
  · rw [totalDimension, total, word_eq_ok_iff]
    exact and_iff_left rfl
  · rw [totalDimension, total, word_refused large]
  · rw [size, ← weights_eq_map, ← strides_eq_ok_iff register.positive]
  · have own := exact register.qudits register register.nodup_qudits register.select_qudits "u"
      (Operator.zero (product register.dims))
    by_contra large
    cases ((register.checkLevels_custom "u" _).2 large).symm.trans (own.mpr rfl)
  · intro qudits inner distinct selected name u
    have inside := Nat.lt_of_le_of_lt (product_le_of_select selected distinct) fits
    exact (inner.checkLevels_custom name u).1 inside
  · intro qudits inner _ large name u
    exact (inner.checkLevels_custom name u).2 large
  · intro factors
    rw [toNat_machineProduct]
    exact ⟨rfl, Nat.mod_eq_iff_lt (by decide)⟩

/-- Two qudits whose total dimension is out of range, although the register is accepted. It is the
size that a custom operator for both of them would have to be compared with, and the stride of a
third qudit in front. In words that wrap around it would be one. -/
theorem overflowing_arithmetic :
    let pair : Register := ⟨[3, 12297829382473034411], by decide, by decide⟩
    let triple : Register := ⟨[2, 3, 12297829382473034411], by decide, by decide⟩
    let scalar : Operator Float := .identity 1
    ofDims [3, 12297829382473034411] = .ok pair ∧
      product pair.dims = 36893488147419103233 ∧ pair.totalDimension = .error .outOfRange ∧
      (machineProduct pair.dims).toNat = 1 ∧
      weight triple.dims 0 = 36893488147419103233 ∧ strides triple.dims = .error .outOfRange ∧
      scalar.dim ≠ product pair.dims ∧
      (Gate.unitary "u" scalar).checkLevels pair.dims = .error .outOfRange := by
  intro pair triple scalar
  refine ⟨ofDims_eq_ok_iff.mpr rfl, by decide, rfl, by decide, by decide, rfl, by decide, ?_⟩
  exact (checkLevels_custom pair "u" scalar).2 (by decide)

end Register
end QuditSynth
