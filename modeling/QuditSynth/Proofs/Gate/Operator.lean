import QuditSynth.Gate.Action
import QuditSynth.Proofs.Operator.Embedding

namespace QuditSynth

/-! # Operators of suitable gates

A gate that passes its own checks on some operands has an operator there, of the
dimension of the operands, whatever the gate and its angles.
-/

namespace Operator

variable {R : Type} [Scalar R] {dim a b : Nat} {u v : Operator R}

theorem blockOn_eq_ok (room : checkDim dim = .ok ()) (aBound : a < dim) (bBound : b < dim)
    (block : Block R) : blockOn dim a b block = .ok (ofBlock dim a b block) := by
  simp [blockOn, room, aBound, bBound]

theorem phases_exists (room : checkDim dim = .ok ()) {settings : List (Nat × Amplitude R)}
    (bounds : ∀ setting ∈ settings, setting.1 < dim) :
    ∃ u, phases dim settings = .ok u ∧ u.dim = dim := by
  rw [phases, room, Outcome.ok_bind, if_pos]
  · exact ⟨_, rfl, rfl⟩
  · simpa using fun level amplitude member => bounds (level, amplitude) member

theorem lowestFlip_exists (room : checkDim dim = .ok ()) (levels : 2 ≤ dim) :
    ∃ u : Operator R, lowestFlip dim = .ok u ∧ u.dim = dim := by
  simp only [lowestFlip, room, Outcome.ok_bind, levels, ↓reduceIte, Outcome.pure_eq_ok]
  exact ⟨_, rfl, rfl⟩

theorem tensor_eq_ok (nonempty : v.dim ≠ 0) (room : checkDim (u.dim * v.dim) = .ok ()) :
    u.tensor v = .ok (u.kronecker v) := by
  simp [tensor, nonempty, room]

end Operator

namespace Gate

variable {R : Type} {gate : Gate R} {dims : List Nat}

theorem checkLevel_eq_ok_iff {level dim : Nat} :
    gate.checkLevel level dim = .ok () ↔ level < dim := by
  simp [checkLevel]

theorem checkPair_eq_ok_iff {a b dim : Nat} :
    gate.checkPair a b dim = .ok () ↔ a ≠ b ∧ a < dim ∧ b < dim := by
  by_cases same : a = b
  · simp [checkPair, same]
  · simp [checkPair, same, Outcome.check_bind_eq_ok_iff, checkLevel_eq_ok_iff]

/-- The operands on which a gate makes sense. -/
def Suits (gate : Gate R) (dims : List Nat) : Prop :=
  match gate with
  | r _ _ a b | rz _ a b => ∃ dim, dims = [dim] ∧ a ≠ b ∧ a < dim ∧ b < dim
  | virtRz _ level => ∃ dim, dims = [dim] ∧ level < dim
  | cex control a b _ =>
      ∃ controlDim dim, dims = [controlDim, dim] ∧ control < controlDim ∧ a ≠ b ∧ a < dim ∧ b < dim
  | h | x => ∃ dim, dims = [dim]
  | ms _ | csum => ∃ first second, dims = [first, second]
  | unitary _ operator => dims ≠ [] ∧ wordProduct dims = .ok operator.dim

theorem checkLevels_eq_ok_iff : gate.checkLevels dims = .ok () ↔ gate.Suits dims := by
  unfold checkLevels
  rw [Outcome.check_bind_eq_ok_iff]
  cases gate with
  | unitary name operator =>
      by_cases none : dims = []
      · simp [checkArity, arity, Suits, none, wordProduct]
      · cases multiplied : wordProduct dims with
        | error cause => simp [checkArity, arity, Suits, none, multiplied]
        | ok expected =>
            by_cases same : operator.dim = expected
            · simp [checkArity, arity, Suits, none, multiplied, same]
            · simp [checkArity, arity, Suits, none, multiplied, same, Ne.symm same]
  | r | rz | virtRz | h | x | cex | ms | csum =>
      rcases dims with _ | ⟨first, _ | ⟨second, _ | ⟨third, rest⟩⟩⟩ <;>
        simp [checkArity, arity, Suits, checkPair_eq_ok_iff, checkLevel_eq_ok_iff,
          Outcome.check_bind_eq_ok_iff]

variable [Scalar R]

theorem suits_canonicalize (gate : Gate R) (dims : List Nat) :
    gate.canonicalize.Suits dims = gate.Suits dims := by
  cases gate <;> rfl

theorem cex_operator_exists {controlDim dim control a b : Nat}
    (addressable : Addressable [controlDim, dim]) (controlBound : control < controlDim)
    (aBound : a < dim) (bBound : b < dim) (phi : R) :
    ∃ u, (do
        let exchange ← Operator.rotation dim a b Scalar.pi phi
        exchange.embed [controlDim, dim] [1] [(0, control)]) = .ok u ∧
      u.dim = product [controlDim, dim] := by
  have room : Operator.checkDim dim = .ok () := by
    refine Operator.checkDim_mono ?_ addressable.room
    rw [product_pair]
    exact Nat.le_mul_of_pos_left dim (Nat.zero_lt_of_lt controlBound)
  have positions : Positions [controlDim, dim] [1] := ⟨by simp, by simp⟩
  have controlled : Operator.ControlsFit [controlDim, dim] [1] [(0, control)] := by
    simpa [Operator.ControlsFit] using controlBound
  simp only [Operator.rotation, Operator.blockOn_eq_ok room aBound bBound, Outcome.ok_bind]
  obtain ⟨full, run, fullDim, _⟩ := Operator.embed_exists addressable positions controlled
    (u := Operator.ofBlock dim a b (Operator.rotationBlock Scalar.pi phi))
    (product_single dim).symm
  exact ⟨full, run, fullDim⟩

variable [Exponential R]

/-- An interaction is generated by the flips of both qudits. -/
theorem ms_operator_eq {first second : Nat} (room : Operator.checkDim (first * second) = .ok ())
    (firstLevels : 2 ≤ first) (secondLevels : 2 ≤ second) :
    ∃ flipFirst flipSecond : Operator R, Operator.lowestFlip first = .ok flipFirst ∧
      Operator.lowestFlip second = .ok flipSecond ∧
      (flipFirst.kronecker flipSecond).dim = first * second ∧
      ∀ theta : R, (ms theta).operator [first, second] = .ok (Exponential.exp
        ((flipFirst.kronecker flipSecond).scale ⟨0, Scalar.half (-theta)⟩)) := by
  have firstRoom := Operator.checkDim_mono (Nat.le_mul_of_pos_right first (by omega)) room
  have secondRoom := Operator.checkDim_mono (Nat.le_mul_of_pos_left second (by omega)) room
  obtain ⟨flipFirst, firstRun, firstDim⟩ :=
    Operator.lowestFlip_exists (R := R) firstRoom firstLevels
  obtain ⟨flipSecond, secondRun, secondDim⟩ :=
    Operator.lowestFlip_exists (R := R) secondRoom secondLevels
  have product := Operator.tensor_eq_ok (u := flipFirst) (v := flipSecond) (by omega)
    (by rwa [firstDim, secondDim])
  refine ⟨flipFirst, flipSecond, firstRun, secondRun,
    by rw [Operator.dim_kronecker, firstDim, secondDim], fun theta => ?_⟩
  have checked : (ms theta).checkLevels [first, second] = .ok () :=
    checkLevels_eq_ok_iff.mpr ⟨first, second, rfl⟩
  simp [operator, checked, room, firstRun, secondRun, product]

/-- A gate that suits its operands has an operator on them. -/
theorem operator_exists (addressable : Addressable dims) (levels : ∀ dim ∈ dims, 2 ≤ dim)
    (checked : gate.checkLevels dims = .ok ()) :
    ∃ u, gate.operator dims = .ok u ∧ u.dim = product dims := by
  have room := addressable.room
  have suits := checkLevels_eq_ok_iff.mp checked
  unfold operator
  rw [checked, Outcome.ok_bind]
  cases gate with
  | r theta phi a b =>
      obtain ⟨dim, rfl, _, aBound, bBound⟩ := suits
      rw [product_single] at room ⊢
      exact ⟨_, Operator.blockOn_eq_ok room aBound bBound _, rfl⟩
  | rz theta a b =>
      obtain ⟨dim, rfl, _, aBound, bBound⟩ := suits
      rw [product_single] at room ⊢
      exact Operator.phases_exists room (by simp [aBound, bBound])
  | virtRz theta level =>
      obtain ⟨dim, rfl, bound⟩ := suits
      rw [product_single] at room ⊢
      exact Operator.phases_exists room (by simp [bound])
  | cex control a b phi =>
      obtain ⟨controlDim, dim, rfl, controlBound, _, aBound, bBound⟩ := suits
      exact cex_operator_exists addressable controlBound aBound bBound phi
  | ms theta =>
      obtain ⟨first, second, rfl⟩ := suits
      rw [product_pair] at room ⊢
      obtain ⟨flipFirst, flipSecond, firstRun, secondRun, dims, built⟩ :=
        ms_operator_eq (R := R) room (levels first (by simp)) (levels second (by simp))
      have built := built theta
      rw [Gate.operator, checked, Outcome.ok_bind] at built
      exact ⟨_, built, by rw [Exponential.dim_exp, Operator.dim_scale, dims]⟩
  | h =>
      obtain ⟨dim, rfl⟩ := suits
      rw [product_single] at room ⊢
      exact ⟨Operator.fourier dim, by simp [room], rfl⟩
  | x =>
      obtain ⟨dim, rfl⟩ := suits
      rw [product_single] at room ⊢
      exact ⟨Operator.cyclicShift dim, by simp [room], rfl⟩
  | csum =>
      obtain ⟨first, second, rfl⟩ := suits
      rw [product_pair] at room ⊢
      exact ⟨Operator.controlledSum first second, by simp [room], rfl⟩
  | unitary name operator =>
      exact ⟨operator, rfl, Except.ok.inj (suits.2.symm.trans addressable.wordProduct_eq)⟩

end Gate
end QuditSynth
