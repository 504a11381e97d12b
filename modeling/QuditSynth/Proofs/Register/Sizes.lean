import QuditSynth.Proofs.Outcome
import QuditSynth.Proofs.Register.Digits

namespace QuditSynth

/-! # Sizes that fit in words

A product of dimensions and the weights of a register are multiplied out in
words. Whatever comes out is exact. On positive dimensions a product comes out
exactly if it fits in a word, and the weights if the first of them does.
-/

variable {dims : List Nat} {size result : Nat}

theorem word_of_lt (fits : size < wordLimit) : word size = .ok size := if_pos fits

theorem word_refused (large : ¬ size < wordLimit) : word size = .error .outOfRange := if_neg large

theorem word_eq_ok_iff : word size = .ok result ↔ size < wordLimit ∧ result = size := by
  by_cases fits : size < wordLimit
  · rw [word_of_lt fits, Except.ok.injEq]
    exact ⟨fun same => ⟨fits, same.symm⟩, fun same => same.2.symm⟩
  · simp [word_refused fits, fits]

theorem word_fails (size : Nat) : Outcome.FailsAs .outOfRange (word size) := by
  intro cause failed
  by_cases fits : size < wordLimit
  · cases (word_of_lt fits).symm.trans failed
  · exact (Except.error.inj ((word_refused fits).symm.trans failed)).symm

/-- A partial product of positive factors that is too large makes the whole product too large. -/
theorem foldlM_word_mul (start : Nat) (positive : ∀ dim ∈ dims, 0 < dim) :
    (dims.foldlM (fun total dim => word (total * dim)) start >>= word) =
      word (start * product dims) := by
  induction dims generalizing start with
  | nil => rw [List.foldlM_nil, product_nil, Nat.mul_one, Outcome.pure_eq_ok, Outcome.ok_bind]
  | cons dim rest ih =>
      obtain ⟨_, restPositive⟩ := List.forall_mem_cons.mp positive
      rw [List.foldlM_cons, product_cons, ← Nat.mul_assoc]
      by_cases inside : start * dim < wordLimit
      · rw [word_of_lt inside, Outcome.ok_bind, ih _ restPositive]
      · have below : start * dim ≤ start * dim * product rest :=
          Nat.le_mul_of_pos_right _ (product_pos restPositive)
        rw [word_refused inside, word_refused fun small => inside (Nat.lt_of_le_of_lt below small)]
        rfl

theorem wordProduct_eq (positive : ∀ dim ∈ dims, 0 < dim) :
    wordProduct dims = word (product dims) := by
  cases dims with
  | nil => rfl
  | cons first rest => exact foldlM_word_mul first (List.forall_mem_cons.mp positive).2

theorem wordProduct_single (dim : Nat) : wordProduct [dim] = word dim := rfl

theorem wordProduct_pair (first second : Nat) :
    wordProduct [first, second] = word (first * second) := by
  by_cases fits : first * second < wordLimit
  · simp [wordProduct, word_of_lt fits]
  · simp [wordProduct, word_refused fits]

theorem weights_tail_le (positive : ∀ dim ∈ dims, 0 < dim) :
    ∀ weight ∈ weights dims, weight ≤ product dims.tail := by
  induction dims with
  | nil => exact List.forall_mem_nil _
  | cons dim rest ih =>
      obtain ⟨_, restPositive⟩ := List.forall_mem_cons.mp positive
      refine List.forall_mem_cons.mpr ⟨Nat.le_refl _, fun weight member => ?_⟩
      refine Nat.le_trans (ih restPositive weight member) ?_
      cases rest with
      | nil => exact Nat.le_refl _
      | cons next rest => exact product_tail_le (restPositive next (by simp))

theorem strides_of_lt (positive : ∀ dim ∈ dims, 0 < dim)
    (fits : product dims.tail < wordLimit) : strides dims = .ok (weights dims) := by
  have each : ∀ weight ∈ weights dims, word weight = .ok (id weight) := fun weight member =>
    word_of_lt (Nat.lt_of_le_of_lt (weights_tail_le positive weight member) fits)
  rw [strides, Outcome.mapM_eq_map each, List.map_id]

theorem strides_refused (large : ¬ product dims.tail < wordLimit) :
    strides dims = .error .outOfRange := by
  cases dims with
  | nil => exact absurd (show product [] < wordLimit by decide) large
  | cons dim rest =>
      rw [List.tail_cons] at large
      rw [strides, weights, List.mapM_cons, word_refused large, Outcome.error_bind]

theorem strides_eq_ok_iff (positive : ∀ dim ∈ dims, 0 < dim) :
    strides dims = .ok (weights dims) ↔ product dims.tail < wordLimit := by
  refine ⟨fun made => ?_, strides_of_lt positive⟩
  by_contra large
  cases (strides_refused large).symm.trans made

theorem tail_le_product (positive : ∀ dim ∈ dims, 0 < dim) : product dims.tail ≤ product dims := by
  cases dims with
  | nil => exact Nat.le_refl _
  | cons dim rest => exact product_tail_le (positive dim (by simp))

end QuditSynth
