import QuditSynth.Register
import Mathlib.Data.List.GetD
import Mathlib.Tactic.Ring

namespace QuditSynth

/-! # Digits of basis states

A basis state of a register is a numeral in mixed radix. `weight` is the exact
stride of a position and `digitIn` the digit there; a state below the product of
the dimensions is determined by its digits, and any digit can be replaced
without touching the others.
-/

/-- The product of the dimensions after a position. -/
def weight (dims : List Nat) (position : Nat) : Nat := product (dims.drop (position + 1))

/-- The digit of a basis state at a position. -/
def digitIn (dims : List Nat) (position state : Nat) : Nat :=
  digitAt state (weight dims position) (dims.getD position 1)

variable {dims rest : List Nat} {dim position other state value inner : Nat}

@[simp] theorem product_nil : product [] = 1 := rfl

@[simp] theorem product_cons (dim : Nat) (rest : List Nat) :
    product (dim :: rest) = dim * product rest := rfl

theorem product_single (dim : Nat) : product [dim] = dim := Nat.mul_one dim

theorem product_pair (first second : Nat) : product [first, second] = first * second := by
  rw [product_cons, product_single]

theorem product_pos (positive : ∀ dim ∈ dims, 0 < dim) : 0 < product dims := by
  induction dims with
  | nil => exact Nat.one_pos
  | cons dim rest ih =>
      rw [product_cons]
      exact Nat.mul_pos (positive dim (by simp))
        (ih fun dim member => positive dim (by simp [member]))

theorem product_tail_le (positive : 0 < dim) : product rest ≤ product (dim :: rest) :=
  Nat.le_mul_of_pos_left _ positive

@[simp] theorem weight_cons_zero : weight (dim :: rest) 0 = product rest := rfl

@[simp] theorem weight_cons_succ :
    weight (dim :: rest) (position + 1) = weight rest position := rfl

@[simp] theorem digitIn_cons_zero :
    digitIn (dim :: rest) 0 state = state / product rest % dim := rfl

@[simp] theorem digitIn_cons_succ :
    digitIn (dim :: rest) (position + 1) state = digitIn rest position state := rfl

theorem getD_pos (positive : ∀ dim ∈ dims, 0 < dim) (position : Nat) :
    0 < dims.getD position 1 := by
  by_cases within : position < dims.length
  · rw [List.getD_eq_getElem _ _ within]
    exact positive _ (List.getElem_mem within)
  · rw [List.getD_eq_default _ _ (Nat.le_of_not_lt within)]
    exact Nat.one_pos

theorem digitIn_lt (positive : ∀ dim ∈ dims, 0 < dim) (position state : Nat) :
    digitIn dims position state < dims.getD position 1 :=
  Nat.mod_lt _ (getD_pos positive position)

theorem digitIn_mul_weight_le (dims : List Nat) (position state : Nat) :
    digitIn dims position state * weight dims position ≤ state :=
  Nat.le_trans (Nat.mul_le_mul_right _ (Nat.mod_le _ _)) (Nat.div_mul_le_self _ _)

theorem weights_getD (dims : List Nat) (position : Nat) :
    (weights dims).getD position 1 = weight dims position := by
  induction dims generalizing position with
  | nil => simp [weights, weight]
  | cons dim rest ih =>
      cases position with
      | zero => rfl
      | succ position => exact ih position

theorem weights_eq_map (dims : List Nat) :
    weights dims = (List.range dims.length).map (weight dims) := by
  induction dims with
  | nil => rfl
  | cons dim rest ih =>
      rw [weights, ih, List.length_cons, List.range_succ_eq_map, List.map_cons, List.map_map]
      rfl

/-- Whole multiples of the product do not show in any digit. -/
theorem digitIn_add_mul_product (factor : Nat) (within : position < dims.length) :
    digitIn dims position (factor * product dims + state) = digitIn dims position state := by
  induction dims generalizing position factor with
  | nil => simp at within
  | cons dim rest ih =>
      cases position with
      | zero =>
          rcases Nat.eq_zero_or_pos (product rest) with empty | room
          · simp [empty]
          · have regroup : factor * product (dim :: rest) + state =
                state + product rest * (dim * factor) := by
              rw [product_cons]
              ring
            rw [digitIn_cons_zero, digitIn_cons_zero, regroup, Nat.add_mul_div_left _ _ room,
              Nat.add_mul_mod_self_left]
      | succ position =>
          have regroup : factor * product (dim :: rest) + state =
              factor * dim * product rest + state := by
            rw [product_cons]
            ring
          rw [digitIn_cons_succ, digitIn_cons_succ, regroup]
          exact ih (factor * dim) (by simpa using within)

theorem digitIn_mod_product (within : position < dims.length) :
    digitIn dims position (state % product dims) = digitIn dims position state := by
  conv_rhs => rw [← Nat.div_add_mod' state (product dims)]
  exact (digitIn_add_mul_product _ within).symm

theorem div_product_lt (bound : state < product (dim :: rest)) : state / product rest < dim := by
  rw [product_cons, Nat.mul_comm] at bound
  exact Nat.div_lt_of_lt_mul bound

theorem product_rest_pos (bound : state < product (dim :: rest)) : 0 < product rest := by
  rw [product_cons] at bound
  exact Nat.pos_of_mul_pos_left (Nat.zero_lt_of_lt bound)

/-- A basis state is determined by its digits. -/
theorem state_eq_of_digits {first second : Nat}
    (firstBound : first < product dims) (secondBound : second < product dims)
    (same : ∀ position < dims.length, digitIn dims position first = digitIn dims position second) :
    first = second := by
  induction dims generalizing first second with
  | nil =>
      simp only [product_nil, Nat.lt_one_iff] at firstBound secondBound
      rw [firstBound, secondBound]
  | cons dim rest ih =>
      have leading := same 0 (by simp)
      rw [digitIn_cons_zero, digitIn_cons_zero, Nat.mod_eq_of_lt (div_product_lt firstBound),
        Nat.mod_eq_of_lt (div_product_lt secondBound)] at leading
      have room := product_rest_pos firstBound
      have trailing : first % product rest = second % product rest := by
        apply ih (Nat.mod_lt _ room) (Nat.mod_lt _ room)
        intro position within
        rw [digitIn_mod_product within, digitIn_mod_product within]
        exact same (position + 1) (by simpa using within)
      rw [← Nat.div_add_mod first (product rest), ← Nat.div_add_mod second (product rest), leading,
        trailing]

/-- A basis state with one digit replaced. -/
def withDigit (dims : List Nat) (position value state : Nat) : Nat :=
  state - digitIn dims position state * weight dims position + value * weight dims position

theorem withDigit_cons_succ (within : position < rest.length) :
    withDigit (dim :: rest) (position + 1) value state =
      state / product rest * product rest +
        withDigit rest position value (state % product rest) := by
  have below := digitIn_mul_weight_le rest position (state % product rest)
  have split := Nat.div_add_mod' state (product rest)
  simp only [withDigit, digitIn_cons_succ, weight_cons_succ, digitIn_mod_product within] at below ⊢
  omega

theorem withDigit_cons_zero (bound : state < product (dim :: rest)) :
    withDigit (dim :: rest) 0 value state = value * product rest + state % product rest := by
  have split := Nat.div_add_mod' state (product rest)
  simp only [withDigit, digitIn_cons_zero, weight_cons_zero,
    Nat.mod_eq_of_lt (div_product_lt bound)]
  omega

theorem withDigit_lt (bound : state < product dims) (within : position < dims.length)
    (small : value < dims.getD position 1) :
    withDigit dims position value state < product dims := by
  induction dims generalizing position state with
  | nil => simp at within
  | cons dim rest ih =>
      have room := product_rest_pos bound
      cases position with
      | zero =>
          rw [withDigit_cons_zero bound, product_cons]
          have inside := Nat.mod_lt state room
          have step := Nat.mul_le_mul_right (product rest) (Nat.succ_le_of_lt small)
          simp only [List.getD_cons_zero, Nat.succ_mul] at step
          omega
      | succ position =>
          rw [withDigit_cons_succ (by simpa using within), product_cons]
          have inside := ih (Nat.mod_lt state room) (by simpa using within) (by simpa using small)
          have step :=
            Nat.mul_le_mul_right (product rest) (Nat.succ_le_of_lt (div_product_lt bound))
          simp only [Nat.succ_mul] at step
          omega

/-- Replacing a digit changes that digit and no other. -/
theorem digitIn_withDigit (bound : state < product dims) (within : position < dims.length)
    (small : value < dims.getD position 1) (readable : other < dims.length) :
    digitIn dims other (withDigit dims position value state) =
      if other = position then value else digitIn dims other state := by
  induction dims generalizing position other state with
  | nil => simp at within
  | cons dim rest ih =>
      have room := product_rest_pos bound
      cases position with
      | zero =>
          rw [withDigit_cons_zero bound]
          cases other with
          | zero =>
              have smallFirst : value < dim := small
              rw [digitIn_cons_zero, Nat.mul_comm, Nat.mul_add_div room,
                Nat.div_eq_of_lt (Nat.mod_lt _ room), Nat.add_zero, if_pos rfl,
                Nat.mod_eq_of_lt smallFirst]
          | succ other =>
              have inRest : other < rest.length := by simpa using readable
              rw [if_neg (Nat.succ_ne_zero other), digitIn_cons_succ, digitIn_cons_succ,
                digitIn_add_mul_product _ inRest, digitIn_mod_product inRest]
      | succ position =>
          have inRest : position < rest.length := by simpa using within
          have smallRest : value < rest.getD position 1 := by simpa using small
          have replaced := withDigit_lt (Nat.mod_lt state room) inRest smallRest
          rw [withDigit_cons_succ inRest]
          cases other with
          | zero =>
              rw [digitIn_cons_zero, Nat.mul_comm, Nat.mul_add_div room, Nat.div_eq_of_lt replaced,
                Nat.add_zero, if_neg (Nat.succ_ne_zero position).symm, digitIn_cons_zero]
          | succ other =>
              have otherInRest : other < rest.length := by simpa using readable
              rw [digitIn_cons_succ, digitIn_cons_succ, digitIn_add_mul_product _ otherInRest,
                ih (Nat.mod_lt state room) inRest smallRest otherInRest,
                digitIn_mod_product otherInRest]
              simp only [Nat.add_right_cancel_iff]

end QuditSynth
