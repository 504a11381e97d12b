import QuditSynth.Proofs.Operator.Entry
import QuditSynth.Proofs.Register.Sizes
import Mathlib.Algebra.BigOperators.Group.Finset.Basic
import Mathlib.Algebra.BigOperators.Ring.List

namespace QuditSynth

/-! # Target digits of a register

An operator on some qudits of a register reads the digits at its targets as a
state of its own (`Axis.localState`) and writes such a state back
(`Axis.refill`). Reading what was written gives it back, writing what was read
changes nothing, and of two writes the second counts; digits that are no
targets stay as they are throughout.
-/

/-- Dimensions whose operators are small enough to be addressed. -/
structure Addressable (dims : List Nat) : Prop where
  positive : ∀ dim ∈ dims, 0 < dim
  room : Operator.checkDim (product dims) = .ok ()

/-- Distinct positions of a register. -/
structure Positions (dims targets : List Nat) : Prop where
  within : ∀ target ∈ targets, target < dims.length
  distinct : targets.Nodup

variable {dims targets : List Nat} {state inner : Nat}

theorem checkCapacity_eq_ok_iff {count width : Nat} :
    checkCapacity count width = .ok () ↔ count * width < byteLimit := by
  rw [checkCapacity]
  split <;> simp_all

theorem checkCapacity_cases (count width : Nat) :
    checkCapacity count width = .ok () ∨ checkCapacity count width = .error .outOfRange := by
  unfold checkCapacity
  split
  · exact Or.inl rfl
  · exact Or.inr rfl

theorem checkCapacity_fails (count width : Nat) :
    Outcome.FailsAs .outOfRange (checkCapacity count width) := by
  intro cause failed
  rcases checkCapacity_cases count width with fits | large
  · cases fits.symm.trans failed
  · exact (Except.error.inj (large.symm.trans failed)).symm

theorem Operator.checkDim_cases (dim : Nat) :
    checkDim dim = .ok () ∨ checkDim dim = .error .outOfRange :=
  checkCapacity_cases _ _

theorem Operator.checkDim_mono {small large : Nat} (le : small ≤ large)
    (room : checkDim large = .ok ()) : checkDim small = .ok () := by
  rw [checkDim, checkCapacity_eq_ok_iff] at room ⊢
  exact Nat.lt_of_le_of_lt (Nat.mul_le_mul_right _ (Nat.mul_le_mul le le)) room

/-- A dimension whose matrices can be addressed is far below the word size. -/
theorem Operator.lt_wordLimit_of_checkDim {dim : Nat} (room : checkDim dim = .ok ()) :
    dim < wordLimit := by
  rw [checkDim, checkCapacity_eq_ok_iff] at room
  have square : dim ≤ dim * dim := Nat.le_mul_self _
  simp only [amplitudeBytes, byteLimit, wordLimit, Nat.pow_eq, Nat.reducePow] at room ⊢
  omega

theorem Addressable.fits (addressable : Addressable dims) : product dims < wordLimit :=
  Operator.lt_wordLimit_of_checkDim addressable.room

theorem Addressable.wordProduct_eq (addressable : Addressable dims) :
    wordProduct dims = .ok (product dims) := by
  rw [QuditSynth.wordProduct_eq addressable.positive, word_of_lt addressable.fits]

theorem addressable_or_refused (positive : ∀ dim ∈ dims, 0 < dim) :
    Addressable dims ∨ Operator.checkDim (product dims) = .error .outOfRange := by
  rcases checkCapacity_cases (product dims * product dims) Operator.amplitudeBytes with
    room | refused
  · exact Or.inl ⟨positive, room⟩
  · exact Or.inr refused

theorem Positions.tail {target : Nat} (positions : Positions dims (target :: targets)) :
    Positions dims targets where
  within := fun position member => positions.within position (by simp [member])
  distinct := (List.nodup_cons.mp positions.distinct).2

theorem product_eq_prod (dims : List Nat) : product dims = dims.prod := List.prod_eq_foldr.symm

theorem Axis.targetDims_range (dims : List Nat) :
    targetDims dims (List.range dims.length) = dims := by
  apply List.ext_getElem
  · simp [targetDims]
  · intro position within inDims
    simp [targetDims, inDims]

/-- The targets' dimensions are some of the register's, each taken once. -/
theorem Positions.product_dvd (positions : Positions dims targets) :
    product (Axis.targetDims dims targets) ∣ product dims := by
  have whole : (List.range dims.length).map (dims.getD · 1) = dims := Axis.targetDims_range dims
  have subset : targets.toFinset ⊆ (List.range dims.length).toFinset := by
    intro target member
    simpa using positions.within target (by simpa using member)
  have divides := Finset.prod_dvd_prod_of_subset _ _ (dims.getD · 1) subset
  rw [List.prod_toFinset _ positions.distinct, List.prod_toFinset _ List.nodup_range, whole]
    at divides
  rw [product_eq_prod, product_eq_prod]
  exact divides

theorem Positions.product_le (positions : Positions dims targets)
    (positive : ∀ dim ∈ dims, 0 < dim) :
    product (Axis.targetDims dims targets) ≤ product dims :=
  Nat.le_of_dvd (product_pos positive) positions.product_dvd

theorem targetDims_positive (positive : ∀ dim ∈ dims, 0 < dim) (targets : List Nat) :
    ∀ dim ∈ Axis.targetDims dims targets, 0 < dim := by
  intro dim member
  obtain ⟨target, _, rfl⟩ := List.mem_map.mp member
  exact getD_pos positive target

theorem Addressable.atTargets (addressable : Addressable dims)
    (positions : Positions dims targets) : Addressable (Axis.targetDims dims targets) where
  positive := targetDims_positive addressable.positive targets
  room := Operator.checkDim_mono (positions.product_le addressable.positive) addressable.room

namespace Axis

@[simp] theorem targetDims_nil : targetDims dims [] = [] := rfl

@[simp] theorem targetDims_cons (target : Nat) :
    targetDims dims (target :: targets) = dims.getD target 1 :: targetDims dims targets := rfl

@[simp] theorem length_targetDims : (targetDims dims targets).length = targets.length :=
  List.length_map ..

/-- The leading target has the weight of all targets after it. -/
theorem ofTargets_cons (dims targets : List Nat) (target : Nat) :
    ofTargets dims (target :: targets) =
      ⟨dims.getD target 1, weight dims target, product (targetDims dims targets)⟩ ::
        ofTargets dims targets := by
  rw [← weights_getD]
  rfl

theorem foldl_add_start {axes : List Axis} (term : Axis → Nat) (start : Nat) :
    axes.foldl (fun total axis => total + term axis) start =
      start + axes.foldl (fun total axis => total + term axis) 0 := by
  induction axes generalizing start with
  | nil => rfl
  | cons axis axes ih =>
      rw [List.foldl_cons, List.foldl_cons, ih, ih (0 + term axis)]
      omega

theorem localState_cons (dims targets : List Nat) (target state : Nat) :
    localState (ofTargets dims (target :: targets)) state =
      digitIn dims target state * product (targetDims dims targets) +
        localState (ofTargets dims targets) state := by
  rw [ofTargets_cons, localState, List.foldl_cons, foldl_add_start,
    Nat.zero_add]
  rfl

theorem localState_lt (addressable : Addressable dims) (positions : Positions dims targets)
    (state : Nat) :
    localState (ofTargets dims targets) state < product (targetDims dims targets) := by
  induction targets with
  | nil => exact Nat.one_pos
  | cons target targets ih =>
      have rest := ih positions.tail
      have leading := digitIn_lt addressable.positive target state
      have step := Nat.mul_le_mul_right (product (targetDims dims targets))
        (Nat.succ_le_of_lt leading)
      rw [localState_cons, targetDims_cons, product_cons]
      rw [Nat.succ_mul] at step
      omega

/-- Reading the targets keeps their digits. -/
theorem digitIn_localState (addressable : Addressable dims) (positions : Positions dims targets)
    (state : Nat) {index : Nat} (within : index < targets.length) :
    digitIn (targetDims dims targets) index (localState (ofTargets dims targets) state) =
      digitIn dims targets[index] state := by
  induction targets generalizing index with
  | nil => simp at within
  | cons target targets ih =>
      have rest := localState_lt addressable positions.tail state
      rw [localState_cons, targetDims_cons]
      cases index with
      | zero =>
          rw [digitIn_cons_zero, Nat.mul_comm, Nat.mul_add_div (Nat.zero_lt_of_lt rest),
            Nat.div_eq_of_lt rest, Nat.add_zero,
            Nat.mod_eq_of_lt (digitIn_lt addressable.positive target state)]
          rfl
      | succ index =>
          have inRest : index < targets.length := by simpa using within
          rw [digitIn_cons_succ, digitIn_add_mul_product _ (by simpa using inRest),
            ih positions.tail inRest]
          rfl

/-- Clearing the targets of a state in what is left of it. -/
def clearFrom (axes : List Axis) (state rest : Nat) : Nat :=
  axes.foldl (fun rest axis => rest - axis.digit state * axis.stride) rest

theorem clearFrom_cons (dims targets : List Nat) (target state rest : Nat) :
    clearFrom (ofTargets dims (target :: targets)) state rest =
      clearFrom (ofTargets dims targets) state
        (rest - digitIn dims target state * weight dims target) := by
  rw [ofTargets_cons]
  rfl

/-- Subtracting the leading target clears its digit, and the other targets keep theirs. -/
theorem clear_leading (addressable : Addressable dims) {target rest : Nat}
    (positions : Positions dims (target :: targets)) (bound : rest < product dims)
    (same : ∀ other ∈ target :: targets, digitIn dims other rest = digitIn dims other state) :
    rest - digitIn dims target state * weight dims target = withDigit dims target 0 rest ∧
      withDigit dims target 0 rest < product dims ∧
      ∀ other ∈ targets,
        digitIn dims other (withDigit dims target 0 rest) = digitIn dims other state := by
  have inDims := positions.within target (by simp)
  have small : 0 < dims.getD target 1 := getD_pos addressable.positive target
  refine ⟨?_, withDigit_lt bound inDims small, ?_⟩
  · rw [withDigit, same target (by simp), Nat.zero_mul, Nat.add_zero]
  · intro other member
    have fresh := (List.nodup_cons.mp positions.distinct).1
    have apart : other ≠ target := fun equal => fresh (equal ▸ member)
    rw [digitIn_withDigit bound inDims small (positions.within other (by simp [member])),
      if_neg apart, same other (by simp [member])]

theorem clearFrom_spec (addressable : Addressable dims) (positions : Positions dims targets)
    {rest : Nat} (bound : rest < product dims)
    (same : ∀ target ∈ targets, digitIn dims target rest = digitIn dims target state) :
    clearFrom (ofTargets dims targets) state rest < product dims ∧
      ∀ position < dims.length,
        digitIn dims position (clearFrom (ofTargets dims targets) state rest) =
          if position ∈ targets then 0 else digitIn dims position rest := by
  induction targets generalizing rest with
  | nil => exact ⟨bound, fun position _ => by simp [clearFrom, ofTargets]⟩
  | cons target targets ih =>
      have inDims := positions.within target (by simp)
      have small : 0 < dims.getD target 1 := getD_pos addressable.positive target
      obtain ⟨step, stepBound, kept⟩ := clear_leading addressable positions bound same
      obtain ⟨lower, digits⟩ := ih positions.tail stepBound kept
      rw [clearFrom_cons, step]
      refine ⟨lower, fun position readable => ?_⟩
      rw [digits position readable, digitIn_withDigit bound inDims small readable]
      by_cases isTarget : position = target
      · simp [isTarget]
      · simp [isTarget]

/-- What is subtracted for a target is at most what the targets before it have left. -/
theorem digit_mul_stride_le_clearFrom (addressable : Addressable dims)
    (positions : Positions dims targets) {rest : Nat} (bound : rest < product dims)
    (same : ∀ target ∈ targets, digitIn dims target rest = digitIn dims target state)
    {before after : List Axis} {axis : Axis}
    (split : ofTargets dims targets = before ++ axis :: after) :
    axis.digit state * axis.stride ≤ clearFrom before state rest := by
  induction targets generalizing rest before with
  | nil => simp [ofTargets] at split
  | cons target targets ih =>
      rw [ofTargets_cons] at split
      cases before with
      | nil =>
          cases (List.cons.inj split).1
          have inside := digitIn_mul_weight_le dims target rest
          rw [same target (by simp)] at inside
          exact inside
      | cons first before =>
          obtain ⟨leading, remaining⟩ := List.cons.inj split
          cases leading
          obtain ⟨step, stepBound, kept⟩ := clear_leading addressable positions bound same
          have later := ih positions.tail stepBound kept remaining
          rw [← step] at later
          exact later

theorem filled_cons (dims targets : List Nat) (target base inner : Nat) :
    filled (ofTargets dims (target :: targets)) base inner =
      filled (ofTargets dims targets)
        (base + digitIn (targetDims dims (target :: targets)) 0 inner * weight dims target)
        inner := by
  rw [ofTargets_cons]
  rfl

theorem filled_spec (addressable : Addressable dims) (positions : Positions dims targets)
    {base : Nat} (bound : base < product dims)
    (cleared : ∀ target ∈ targets, digitIn dims target base = 0) (inner : Nat) :
    filled (ofTargets dims targets) base inner < product dims ∧
      (∀ position < dims.length, position ∉ targets →
        digitIn dims position (filled (ofTargets dims targets) base inner) =
          digitIn dims position base) ∧
      ∀ index, (within : index < targets.length) →
        digitIn dims targets[index] (filled (ofTargets dims targets) base inner) =
          digitIn (targetDims dims targets) index inner := by
  induction targets generalizing base with
  | nil => exact ⟨bound, fun _ _ _ => rfl, fun index within => absurd within (by simp)⟩
  | cons target targets ih =>
      have inDims := positions.within target (by simp)
      have small : digitIn (targetDims dims (target :: targets)) 0 inner < dims.getD target 1 :=
        digitIn_lt (targetDims_positive addressable.positive _) 0 inner
      have step : base + digitIn (targetDims dims (target :: targets)) 0 inner *
          weight dims target =
            withDigit dims target (digitIn (targetDims dims (target :: targets)) 0 inner) base := by
        rw [withDigit, cleared target (by simp), Nat.zero_mul, Nat.sub_zero]
      have fresh := (List.nodup_cons.mp positions.distinct).1
      have remaining : ∀ other ∈ targets, digitIn dims other (withDigit dims target
          (digitIn (targetDims dims (target :: targets)) 0 inner) base) = 0 := by
        intro other member
        have apart : other ≠ target := fun equal => fresh (equal ▸ member)
        rw [digitIn_withDigit bound inDims small (positions.within other (by simp [member])),
          if_neg apart, cleared other (by simp [member])]
      obtain ⟨lower, kept, written⟩ :=
        ih positions.tail (withDigit_lt bound inDims small) remaining
      rw [filled_cons, step]
      refine ⟨lower, fun position readable outside => ?_, fun index within => ?_⟩
      · simp only [List.mem_cons, not_or] at outside
        rw [kept position readable outside.2, digitIn_withDigit bound inDims small readable,
          if_neg outside.1]
      · cases index with
        | zero =>
            rw [List.getElem_cons_zero, kept target inDims fresh,
              digitIn_withDigit bound inDims small inDims, if_pos rfl]
        | succ index => exact written index (by simpa using within)

/-- A register state with its target digits replaced by those of an operator state. -/
def refill (axes : List Axis) (state inner : Nat) : Nat := filled axes (cleared axes state) inner

/-- Writing the targets sets their digits and keeps all others. -/
theorem refill_spec (addressable : Addressable dims) (positions : Positions dims targets)
    (bound : state < product dims) (inner : Nat) :
    refill (ofTargets dims targets) state inner < product dims ∧
      (∀ position < dims.length, position ∉ targets →
        digitIn dims position (refill (ofTargets dims targets) state inner) =
          digitIn dims position state) ∧
      ∀ index, (within : index < targets.length) →
        digitIn dims targets[index] (refill (ofTargets dims targets) state inner) =
          digitIn (targetDims dims targets) index inner := by
  obtain ⟨lower, digits⟩ := clearFrom_spec addressable positions bound (fun _ _ => rfl)
  have empty : ∀ target ∈ targets,
      digitIn dims target (clearFrom (ofTargets dims targets) state state) = 0 := by
    intro target member
    rw [digits target (positions.within target member), if_pos member]
  obtain ⟨filledBound, kept, written⟩ := filled_spec addressable positions lower empty inner
  refine ⟨filledBound, fun position readable outside => ?_, written⟩
  have base := digits position readable
  rw [if_neg outside] at base
  exact (kept position readable outside).trans base

/-- Whether two register states have the same digits outside the targets. -/
def Agree (dims targets : List Nat) (first second : Nat) : Prop :=
  ∀ position < dims.length, position ∉ targets →
    digitIn dims position first = digitIn dims position second

instance (first second : Nat) : Decidable (Agree dims targets first second) :=
  inferInstanceAs (Decidable (∀ position < dims.length, position ∉ targets →
    digitIn dims position first = digitIn dims position second))

theorem refill_lt (addressable : Addressable dims) (positions : Positions dims targets)
    (bound : state < product dims) (inner : Nat) :
    refill (ofTargets dims targets) state inner < product dims :=
  (refill_spec addressable positions bound inner).1

theorem agree_refill (addressable : Addressable dims) (positions : Positions dims targets)
    (bound : state < product dims) (inner : Nat) :
    Agree dims targets (refill (ofTargets dims targets) state inner) state :=
  (refill_spec addressable positions bound inner).2.1

theorem localState_refill (addressable : Addressable dims) (positions : Positions dims targets)
    (bound : state < product dims) (small : inner < product (targetDims dims targets)) :
    localState (ofTargets dims targets) (refill (ofTargets dims targets) state inner) = inner := by
  apply state_eq_of_digits (localState_lt addressable positions _) small
  intro index within
  have inTargets : index < targets.length := by simpa using within
  rw [digitIn_localState addressable positions _ inTargets]
  exact (refill_spec addressable positions bound inner).2.2 index inTargets

/-- A state is determined by its target digits and the digits outside. -/
theorem eq_of_agree (addressable : Addressable dims) (positions : Positions dims targets)
    {first second : Nat} (firstBound : first < product dims) (secondBound : second < product dims)
    (agree : Agree dims targets first second)
    (same : localState (ofTargets dims targets) first =
      localState (ofTargets dims targets) second) : first = second := by
  apply state_eq_of_digits firstBound secondBound
  intro position readable
  by_cases isTarget : position ∈ targets
  · obtain ⟨index, within, rfl⟩ := List.mem_iff_getElem.mp isTarget
    rw [← digitIn_localState addressable positions first within,
      ← digitIn_localState addressable positions second within, same]
  · exact agree position readable isTarget

/-- The states that agree with a given one are those obtained from it by writing its targets. -/
theorem agree_iff_eq_refill (addressable : Addressable dims) (positions : Positions dims targets)
    {first second : Nat} (firstBound : first < product dims) (secondBound : second < product dims) :
    Agree dims targets first second ↔
      first = refill (ofTargets dims targets) second
        (localState (ofTargets dims targets) first) := by
  have small := localState_lt addressable positions first
  have outside := agree_refill addressable positions secondBound
    (localState (ofTargets dims targets) first)
  constructor
  · intro agree
    apply eq_of_agree addressable positions firstBound
      (refill_lt addressable positions secondBound _)
    · intro position readable isOutside
      rw [agree position readable isOutside, outside position readable isOutside]
    · rw [localState_refill addressable positions secondBound small]
  · intro equal
    rw [equal]
    exact outside

end Axis
end QuditSynth
