import QuditSynth.Proofs.Register.Words
import Mathlib.Algebra.BigOperators.Fin
import Mathlib.Algebra.Order.BigOperators.Group.Finset

namespace QuditSynth

/-! # Basis states as numerals

The strides of a register are the weights of a numeral system in mixed radix:
the basis states below the product of the dimensions are the sums of their
digits times the strides, each string of digits is that of one of them, and
some of the digits never add up to more than the whole. Strides are words, so
there are none unless the product of the dimensions after the first fits in one.
-/

/-- A digit below each dimension. -/
abbrev DigitString (dims : List Nat) : Type :=
  (position : Fin dims.length) → Fin (dims.get position)

/-- The entry of a table of strides at a position. -/
def strideAt (table : List Nat) {size : Nat} (position : Fin size) : Nat := table.getD position 1

def weightAt (dims : List Nat) (position : Fin dims.length) : Nat := weight dims position

/-- The digit that a basis state has at a position for the weights given. -/
def digitFor (dims : List Nat) (weights : Fin dims.length → Nat) (state : Nat)
    (position : Fin dims.length) : Nat :=
  digitAt state (weights position) (dims.get position)

/-- What the digits at some positions add up to. -/
def partialSum {size : Nat} (weights digits : Fin size → Nat) (positions : Finset (Fin size)) :
    Nat :=
  ∑ position ∈ positions, digits position * weights position

/-- What all digits add up to. -/
def numeral {size : Nat} (weights digits : Fin size → Nat) : Nat :=
  partialSum weights digits Finset.univ

/-- Weights by which basis states and strings of digits stand for each other. -/
structure NumeralSystem (dims : List Nat) (weights : Fin dims.length → Nat) : Prop where
  /-- No weight is zero, so every digit can be read. -/
  positive : ∀ position, 0 < weights position
  /-- A basis state is what its digits add up to. -/
  recovered : ∀ state < product dims, numeral weights (digitFor dims weights state) = state
  /-- Digits add up to a basis state, which has these digits. -/
  bounded : ∀ digits : DigitString dims, numeral weights (digits ·) < product dims
  read : ∀ (digits : DigitString dims) position,
    digitFor dims weights (numeral weights (digits ·)) position = digits position
  oneToOne : ∃ reading : Fin (product dims) ≃ DigitString dims,
    (∀ state position, (reading state position : Nat) = digitFor dims weights state position) ∧
      ∀ digits, (reading.symm digits : Nat) = numeral weights (digits ·)
  /-- Subtracting some of the digits never goes below zero. -/
  not_exceeded : ∀ state positions,
    partialSum weights (digitFor dims weights state) positions ≤ state

variable {dims rest : List Nat} {dim : Nat}

theorem partialSum_le_numeral {size : Nat} (weights digits : Fin size → Nat)
    (positions : Finset (Fin size)) :
    partialSum weights digits positions ≤ numeral weights digits :=
  Finset.sum_le_sum_of_subset (Finset.subset_univ positions)

/-- The leading digit counts the blocks of basis states that agree in it. -/
theorem numeral_cons (digits : Fin (dim :: rest).length → Nat) :
    numeral (weightAt (dim :: rest)) digits =
      digits 0 * product rest + numeral (weightAt rest) (fun position => digits position.succ) :=
  Fin.sum_univ_succ fun position : Fin (rest.length + 1) =>
    digits position * weightAt (dim :: rest) position

theorem digitFor_weightAt (dims : List Nat) (state : Nat) :
    digitFor dims (weightAt dims) state =
      fun position : Fin dims.length => digitIn dims position state := by
  funext position
  rw [digitFor, digitIn, List.getD_eq_getElem _ _ position.isLt, List.get_eq_getElem, weightAt]

/-- The digits of any number add up to its remainder. -/
theorem numeral_digitIn (dims : List Nat) (state : Nat) :
    numeral (weightAt dims) (fun position => digitIn dims position state) =
      state % product dims := by
  induction dims with
  | nil => exact (Nat.mod_one state).symm
  | cons dim rest ih =>
      have trailing : numeral (weightAt rest)
          (fun position => digitIn (dim :: rest) position.succ state) = state % product rest := ih
      -- A remainder by `product rest * dim` is one by `product rest` and the leading digit's share.
      rw [numeral_cons, trailing, Fin.val_zero, digitIn_cons_zero, product_cons, Nat.mul_comm dim,
        Nat.mod_mul, Nat.add_comm, Nat.mul_comm (product rest)]

theorem numeral_lt (digits : DigitString dims) :
    numeral (weightAt dims) (digits ·) < product dims := by
  induction dims with
  | nil => exact Nat.one_pos
  | cons dim rest ih =>
      have trailing := ih fun position => digits position.succ
      have leading : (digits 0 : Nat) < dim := (digits 0).isLt
      have step := Nat.mul_le_mul_right (product rest) (Nat.succ_le_of_lt leading)
      rw [numeral_cons, product_cons]
      rw [Nat.succ_mul] at step
      exact Nat.lt_of_lt_of_le (Nat.add_lt_add_left trailing _) step

theorem digitIn_numeral (digits : DigitString dims) (position : Fin dims.length) :
    digitIn dims position (numeral (weightAt dims) (digits ·)) = digits position := by
  induction dims with
  | nil => exact position.elim0
  | cons dim rest ih =>
      have trailing := numeral_lt fun position : Fin rest.length => digits position.succ
      have leading : (digits 0 : Nat) < dim := (digits 0).isLt
      rw [numeral_cons]
      refine Fin.cases ?_ (fun position => ?_) position
      · rw [Fin.val_zero, digitIn_cons_zero, Nat.mul_comm,
          Nat.mul_add_div (Nat.zero_lt_of_lt trailing), Nat.div_eq_of_lt trailing, Nat.add_zero,
          Nat.mod_eq_of_lt leading]
      · rw [Fin.val_succ, digitIn_cons_succ, digitIn_add_mul_product _ position.isLt]
        exact ih (fun position => digits position.succ) position

/-- Reading the digits of basis states, undone by adding them up. -/
def digitReading (positive : ∀ dim ∈ dims, 0 < dim) : Fin (product dims) ≃ DigitString dims where
  toFun state position := ⟨digitFor dims (weightAt dims) state position,
    Nat.mod_lt _ (positive _ (List.get_mem dims position))⟩
  invFun digits := ⟨numeral (weightAt dims) (digits ·), numeral_lt digits⟩
  left_inv state := by
    apply Fin.ext
    change numeral (weightAt dims) (digitFor dims (weightAt dims) state) = state
    rw [digitFor_weightAt, numeral_digitIn, Nat.mod_eq_of_lt state.isLt]
  right_inv digits := by
    funext position
    apply Fin.ext
    change digitFor dims (weightAt dims) (numeral (weightAt dims) (digits ·)) position = _
    rw [digitFor_weightAt]
    exact digitIn_numeral digits position

theorem numeralSystem_weightAt (positive : ∀ dim ∈ dims, 0 < dim) :
    NumeralSystem dims (weightAt dims) where
  positive position := product_pos fun dim member => positive dim (List.mem_of_mem_drop member)
  recovered state bound :=
    congrArg Fin.val ((digitReading positive).symm_apply_apply ⟨state, bound⟩)
  bounded := numeral_lt
  read digits position :=
    congrArg Fin.val (congrFun ((digitReading positive).apply_symm_apply digits) position)
  oneToOne := ⟨digitReading positive, fun _ _ => rfl, fun _ => rfl⟩
  not_exceeded state positions := by
    refine Nat.le_trans (partialSum_le_numeral _ _ positions) ?_
    rw [digitFor_weightAt, numeral_digitIn]
    exact Nat.mod_le state (product dims)

theorem strideAt_weights (dims : List Nat) : strideAt (weights dims) = weightAt dims :=
  funext fun position => weights_getD dims position

/-- Digits times weights, added up in words one position after the other. -/
def wordSum {size : Nat} (weights digits : Fin size → Nat) (positions : List (Fin size)) :
    Except Error Nat :=
  positions.foldlM (fun total position => do
    word (total + (← word (digits position * weights position)))) 0

/-- Partial sums stay below the whole, so none is out of range unless the whole is. -/
theorem foldlM_word_add {size : Nat} (weights digits : Fin size → Nat)
    (positions : List (Fin size)) (start : Nat)
    (fits : start + (positions.map fun position => digits position * weights position).sum <
      wordLimit) :
    positions.foldlM (fun total position => do
        word (total + (← word (digits position * weights position)))) start =
      .ok (start + (positions.map fun position => digits position * weights position).sum) := by
  induction positions generalizing start with
  | nil => rfl
  | cons position positions ih =>
      rw [List.map_cons, List.sum_cons, ← Nat.add_assoc] at fits ⊢
      have step : start + digits position * weights position < wordLimit := by omega
      rw [List.foldlM_cons, word_of_lt (by omega), Outcome.ok_bind, word_of_lt step,
        Outcome.ok_bind, ih _ fits]

theorem wordSum_eq {size : Nat} {weights digits : Fin size → Nat} {positions : List (Fin size)}
    (distinct : positions.Nodup) (fits : numeral weights digits < wordLimit) :
    wordSum weights digits positions =
      .ok (partialSum weights digits positions.toFinset) := by
  have sum : partialSum weights digits positions.toFinset =
      (positions.map fun position => digits position * weights position).sum :=
    List.sum_toFinset _ distinct
  have small := Nat.lt_of_le_of_lt (partialSum_le_numeral weights digits positions.toFinset) fits
  rw [wordSum, foldlM_word_add _ _ _ _ (by rwa [Nat.zero_add, ← sum]), Nat.zero_add, sum]

/-- If the product of the dimensions after the first fits in a word, there are strides, and basis
states and strings of digits stand for each other by them. If words number all basis states, sums of
digits at distinct positions can be taken in words. If the product does not fit, there are no
strides. -/
theorem strides_number_states (positive : ∀ dim ∈ dims, 0 < dim) :
    (product dims.tail < wordLimit → ∃ table, strides dims = .ok table ∧
      table.length = dims.length ∧ NumeralSystem dims (strideAt table) ∧
      (product dims ≤ wordLimit →
        ∀ (digits : DigitString dims) (positions : List (Fin dims.length)), positions.Nodup →
          wordSum (strideAt table) (digits ·) positions =
            .ok (partialSum (strideAt table) (digits ·) positions.toFinset))) ∧
    (¬ product dims.tail < wordLimit → strides dims = .error .outOfRange) := by
  refine ⟨fun fits => ⟨weights dims, strides_of_lt positive fits, ?_⟩, strides_refused⟩
  rw [strideAt_weights]
  refine ⟨by simp [weights_eq_map], numeralSystem_weightAt positive,
    fun inWords digits positions distinct => ?_⟩
  exact wordSum_eq distinct (Nat.lt_of_lt_of_le (numeral_lt digits) inWords)

/-- A register with a qudit of a single level in the middle. -/
theorem strides_number_states_flat :
    (∀ dim ∈ [3, 1, 2], 0 < dim) ∧ strides [3, 1, 2] = .ok [2, 2, 1] ∧
      NumeralSystem [3, 1, 2] (strideAt [2, 2, 1]) ∧
      ∀ digits : DigitString [3, 1, 2],
        wordSum (strideAt [2, 2, 1]) (digits ·) [2, 0] =
          .ok (partialSum (strideAt [2, 2, 1]) (digits ·) {2, 0}) := by
  have positive : ∀ dim ∈ [3, 1, 2], 0 < dim := by decide
  have made : strides [3, 1, 2] = .ok [2, 2, 1] := rfl
  obtain ⟨table, found, _, system, sums⟩ := (strides_number_states positive).1 (by decide)
  cases made.symm.trans found
  exact ⟨positive, made, system, fun digits => sums (by decide) digits [2, 0] (by decide)⟩

/-- The leading stride would be `2 ^ 65 + 1`. -/
theorem strides_out_of_range :
    let dims := [2, 3, 12297829382473034411]
    (∀ dim ∈ dims, 0 < dim) ∧ weightAt dims 0 = 36893488147419103233 ∧
      strides dims = .error .outOfRange := by
  refine ⟨by decide, by decide, rfl⟩

end QuditSynth
