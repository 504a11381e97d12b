import QuditSynth.Proofs.Exact.EmbeddedDistance
import QuditSynth.Proofs.Resynthesis.Factorization

namespace QuditSynth

/-! # Distances of windows

A window in a circuit is replaced by other gates on the same qudits, and the
rest of the circuit is unitary and stays. Then the operator of the circuit moves
exactly as far as the operator of the window.
-/

namespace Operator

variable {dims targets : List Nat} {u v : Operator ℝ}

/-- An operator on some targets, with operators on all qudits after and before it. -/
def between {R : Type} [Scalar R] (u : Operator R) (dims targets : List Nat)
    (after before : Operator R) : Except Error (Operator R) := do
  (← after.compose (← u.embed dims targets [])).compose before

theorem between_exists (addressable : Addressable dims) (positions : Positions dims targets)
    (dim : u.dim = product (Axis.targetDims dims targets)) {after before : Operator ℝ}
    (afterDim : after.dim = product dims) (beforeDim : before.dim = product dims) :
    ∃ full whole, u.embed dims targets [] = .ok full ∧
      u.between dims targets after before = .ok whole ∧ whole.dim = product dims ∧
      whole.toMatrix (product dims) = after.toMatrix (product dims) *
        full.toMatrix (product dims) * before.toMatrix (product dims) := by
  obtain ⟨full, run, fullDim, _⟩ := embed_exists addressable positions controlsFit_nil dim
  have leftDim : (after * full).dim = product dims := afterDim
  refine ⟨full, after * full * before, run, ?_, leftDim, ?_⟩
  · rw [between, run, Outcome.ok_bind, compose_eq_ok (afterDim.trans fullDim.symm),
      Outcome.ok_bind, compose_eq_ok (leftDim.trans beforeDim.symm)]
  · rw [toMatrix_mul leftDim, toMatrix_mul afterDim]

theorem between_distance (addressable : Addressable dims) (positions : Positions dims targets)
    (uDim : u.dim = product (Axis.targetDims dims targets))
    (vDim : v.dim = product (Axis.targetDims dims targets)) {after before : Operator ℝ}
    (afterDim : after.dim = product dims) (beforeDim : before.dim = product dims)
    (afterUnitary : after.Unitary) (beforeUnitary : before.Unitary) :
    ∃ distance, u.distance v = .ok distance ∧
      (do
        (← u.between dims targets after before).distance (← v.between dims targets after before)) =
          .ok distance := by
  obtain ⟨uFull, uWhole, uRun, uBuilt, uWholeDim, uMatrix⟩ :=
    between_exists addressable positions uDim afterDim beforeDim
  obtain ⟨vFull, vWhole, vRun, vBuilt, vWholeDim, vMatrix⟩ :=
    between_exists addressable positions vDim afterDim beforeDim
  refine ⟨_, distance_exact uDim vDim, ?_⟩
  rw [uBuilt, vBuilt, ← distance_exact uDim vDim]
  exact distance_eq_of_matrices addressable positions uDim vDim uRun vRun afterDim beforeDim
    afterUnitary beforeUnitary uWholeDim vWholeDim uMatrix vMatrix

end Operator

namespace Window

variable [Exponential ℝ] {register : Register} {window other : Window ℝ}
  {before after : List (Instruction ℝ)} {first last : Operator ℝ}

theorem faithful_of_suited (addressable : Addressable register.dims)
    (within : ∀ qudit ∈ window.qudits, qudit.index < register.size)
    (distinct : window.qudits.Nodup) (some : window.qudits ≠ [])
    (suited : ∀ instruction ∈ window.instructions, instruction.validate register = .ok () ∧
      instruction.isGate = true ∧ ∀ qudit ∈ instruction.allQudits, qudit ∈ window.qudits) :
    window.Faithful register := by
  refine faithful_of_valid addressable within distinct some ?_ ?_ ?_
  · intro instruction member
    exact Instruction.validate_eq_ok_iff.mp (suited instruction member).1
  · intro instruction member
    simpa [instruction.isGate_eq_not_isMeasure] using (suited instruction member).2.1
  · intro instruction member
    exact (suited instruction member).2.2

theorem Faithful.performs_between (faithful : window.Faithful register)
    (performsBefore : Performs register before (first.toMatrix (product register.dims)))
    (performsAfter : Performs register after (last.toMatrix (product register.dims)))
    (addressable : Addressable register.dims) (name : String) :
    ∃ small full whole, window.operator register = .ok small ∧
      small.dim = product (Axis.targetDims register.dims (window.qudits.map Qudit.index)) ∧
      small.embed register.dims (window.qudits.map Qudit.index) [] = .ok full ∧
      Circuit.operator ⟨name, register, before ++ window.instructions ++ after⟩ = .ok whole ∧
      whole.dim = product register.dims ∧
      whole.toMatrix (product register.dims) = last.toMatrix (product register.dims) *
        full.toMatrix (product register.dims) * first.toMatrix (product register.dims) := by
  obtain ⟨small, full, built, dim, embedded, _, performs⟩ := faithful.factor
  let circuit : Circuit ℝ := ⟨name, register, before ++ window.instructions ++ after⟩
  have performsAll : Performs circuit.register circuit.instructions _ :=
    (performsBefore.append performs).append performsAfter
  obtain ⟨whole, run, wholeDim, matrix⟩ := performsAll.operator_exists addressable
  exact ⟨small, full, whole, built, dim, embedded, run, wholeDim,
    matrix.trans (Matrix.mul_assoc _ _ _).symm⟩

/-- Between unitary instructions, a window and another one on its qudits are as far apart in a
circuit as they are alone. -/
theorem Faithful.distance_replaced (faithful : window.Faithful register)
    (otherFaithful : other.Faithful register) (same : other.qudits = window.qudits)
    (addressable : Addressable register.dims) (name : String)
    (builtBefore : Circuit.operator ⟨name, register, before⟩ = .ok first)
    (unitaryBefore : first.Unitary)
    (builtAfter : Circuit.operator ⟨name, register, after⟩ = .ok last)
    (unitaryAfter : last.Unitary) :
    ∃ small otherSmall distance, window.operator register = .ok small ∧
      other.operator register = .ok otherSmall ∧ small.distance otherSmall = .ok distance ∧
      Circuit.distance ⟨name, register, before ++ window.instructions ++ after⟩
        ⟨name, register, before ++ other.instructions ++ after⟩ = .ok distance := by
  obtain ⟨firstDim, performsBefore⟩ := Circuit.performs_of_operator addressable builtBefore
  obtain ⟨lastDim, performsAfter⟩ := Circuit.performs_of_operator addressable builtAfter
  obtain ⟨small, full, whole, built, dim, embedded, run, wholeDim, matrix⟩ :=
    faithful.performs_between performsBefore performsAfter addressable name
  obtain ⟨otherSmall, otherFull, otherWhole, otherBuilt, otherDim, otherEmbedded, otherRun,
    otherWholeDim, otherMatrix⟩ :=
    otherFaithful.performs_between performsBefore performsAfter addressable name
  rw [same] at otherDim otherEmbedded
  refine ⟨small, otherSmall, _, built, otherBuilt, Operator.distance_exact dim otherDim, ?_⟩
  rw [Circuit.distance, run, otherRun, ← Operator.distance_exact dim otherDim]
  exact Operator.distance_eq_of_matrices addressable faithful.positions dim otherDim embedded
    otherEmbedded lastDim firstDim unitaryAfter unitaryBefore wholeDim otherWholeDim matrix
    otherMatrix

end Window

namespace Resynthesis

/-- Two operators on some of the qudits are as far apart between unitary operators on all qudits as
they are alone. So are a window and a sequence of gates on its qudits in a circuit whose other
instructions are unitary together. Where the register has no room for its matrices, nothing can be
embedded. -/
theorem distance_of_window [Exponential ℝ] (register : Register) :
    let size := product register.dims
    let room := size * size * Operator.amplitudeBytes < byteLimit
    (∀ targets, Operator.checkTargets register.dims.length [] targets = .ok () →
      ∀ u v : Operator ℝ, u.dim = product (Axis.targetDims register.dims targets) →
        v.dim = product (Axis.targetDims register.dims targets) →
        (room → ∀ after before : Operator ℝ, after.dim = size → before.dim = size →
          after.Unitary → before.Unitary → ∃ distance, u.distance v = .ok distance ∧
            (do
              (← u.between register.dims targets after before).distance
                (← v.between register.dims targets after before)) = .ok distance) ∧
        (¬ room → u.embed register.dims targets [] = .error .outOfRange)) ∧
    ∀ (name : String) (window : Window ℝ) (sequence before after : List (Instruction ℝ)),
      (∀ qudit ∈ window.qudits, qudit.index < register.size) → window.qudits.Nodup →
      window.qudits ≠ [] →
      (∀ instruction ∈ window.instructions ++ sequence, instruction.validate register = .ok () ∧
        instruction.isGate = true ∧ ∀ qudit ∈ instruction.allQudits, qudit ∈ window.qudits) →
      (∀ rest ∈ [before, after], ∃ full, Circuit.operator ⟨name, register, rest⟩ = .ok full ∧
        full.Unitary) →
      ∃ distance,
        (do
          (← window.operator register).distance
            (← (window.replacedBy sequence).operator register)) = .ok distance ∧
        Circuit.distance ⟨name, register, before ++ window.instructions ++ after⟩
          ⟨name, register, before ++ sequence ++ after⟩ = .ok distance := by
  intro size room
  refine ⟨fun targets targeted u v uDim vDim => ?_, ?_⟩
  · obtain ⟨within, distinct, _⟩ := Operator.checkTargets_eq_ok_iff.mp targeted
    have positions : Positions register.dims targets := ⟨within, distinct⟩
    refine ⟨fun small after before afterDim beforeDim afterUnitary beforeUnitary => ?_,
      fun large => ?_⟩
    · have addressable : Addressable register.dims :=
        Register.addressable (checkCapacity_eq_ok_iff.mpr small)
      exact Operator.between_distance addressable positions uDim vDim afterDim beforeDim
        afterUnitary beforeUnitary
    · exact Operator.embed_refused register.positive positions Operator.controlsFit_nil
        (if_neg large) uDim
  · intro name window sequence before after within distinct some suited unitary
    obtain ⟨⟨first, builtFirst, unitaryFirst⟩, last⟩ := List.forall_mem_cons.mp unitary
    obtain ⟨last, builtLast, unitaryLast⟩ := List.forall_mem_singleton.mp last
    have addressable : Addressable register.dims := Circuit.addressable_of_operator builtFirst
    obtain ⟨suitedWindow, suitedSequence⟩ := List.forall_mem_append.mp suited
    have faithful := Window.faithful_of_suited addressable within distinct some suitedWindow
    have replaced : (window.replacedBy sequence).Faithful register :=
      Window.faithful_of_suited addressable within distinct some suitedSequence
    obtain ⟨small, otherSmall, distance, built, otherBuilt, measured, measuredWhole⟩ :=
      faithful.distance_replaced replaced rfl addressable name builtFirst unitaryFirst builtLast
        unitaryLast
    refine ⟨distance, ?_, measuredWhole⟩
    rw [built, otherBuilt]
    exact measured

/-- A qutrit between a shift of all states and the same shift again, and an exchange between two
shifts of another qudit that a shift takes the place of. -/
theorem distance_of_window_exchange :
    let _ : Exponential ℝ := .taylor
    let register : Register := ⟨[2, 3, 2], by decide, by decide⟩
    let around : Operator ℝ := .cyclicShift 12
    let other : Instruction ℝ := .ofGate .x [⟨0⟩]
    let exchange : Instruction ℝ := .ofGate (.cex 1 0 2 0) [⟨2⟩, ⟨1⟩]
    let shift : Instruction ℝ := .ofGate .x [⟨1⟩]
    around.Unitary ∧
      (do
        (← (Operator.cyclicShift 3).between [2, 3, 2] [1] around around).distance
          (← (Operator.identity 3).between [2, 3, 2] [1] around around)) = .ok 1 ∧
      ∃ distance,
        (do
          (← Window.operator ⟨[⟨2⟩, ⟨1⟩], [exchange], true⟩ register).distance
            (← Window.operator ⟨[⟨2⟩, ⟨1⟩], [shift], true⟩ register)) = .ok distance ∧
        Circuit.distance ⟨"c", register, [other, exchange, other]⟩
          ⟨"c", register, [other, shift, other]⟩ = .ok distance := by
  intro taylor register around other exchange shift
  have unitary : around.Unitary := (Operator.unitary_iff rfl).mpr Operator.shift_unitary
  obtain ⟨operators, windows⟩ := distance_of_window register
  obtain ⟨kept, _⟩ := operators [1] rfl (.cyclicShift 3) (.identity 3) rfl rfl
  obtain ⟨distance, alone, between⟩ := kept (by decide) around around rfl rfl unitary unitary
  have apart : distance = 1 :=
    Except.ok.inj (alone.symm.trans (Operator.distance_shift_identity (by decide)))
  rw [apart] at between
  have addressable : Addressable register.dims := Register.addressable (by decide)
  have first : (⟨0⟩ : Qudit).index < register.size := by decide
  obtain ⟨full, built, dim, unitaryOther⟩ := shift_operator_unitary addressable first
  have rest : ∃ full, Circuit.operator ⟨"c", register, [other]⟩ = .ok full ∧ full.Unitary :=
    ⟨full, Performs.operator_eq (performs_single built dim) addressable dim, unitaryOther⟩
  have covered : ∀ instruction ∈ [exchange] ++ [shift], instruction.validate register = .ok () ∧
      instruction.isGate = true ∧ ∀ qudit ∈ instruction.allQudits, qudit ∈ [⟨2⟩, ⟨1⟩] := by
    refine List.forall_mem_cons.mpr ⟨⟨rfl, rfl, by decide⟩, List.forall_mem_singleton.mpr ?_⟩
    exact ⟨rfl, rfl, by decide⟩
  have replaced := windows "c" ⟨[⟨2⟩, ⟨1⟩], [exchange], true⟩ [shift] [other] [other]
    (by decide) (by decide) (List.cons_ne_nil _ _) covered
    (List.forall_mem_cons.mpr ⟨rest, List.forall_mem_singleton.mpr rest⟩)
  exact ⟨unitary, between, replaced⟩

/-- On a register without room for matrices operators that have a distance cannot be embedded, so
their distance is not seen there. -/
theorem distance_without_room :
    Operator.checkTargets [2, 1073741824].length [] [0] = .ok () ∧
      (Operator.zero 2 : Operator ℝ).distance (.zero 2) = .ok 1 ∧
      (do
        (← (Operator.zero 2 : Operator ℝ).embed [2, 1073741824] [0] []).distance
          (← (Operator.zero 2).embed [2, 1073741824] [0] [])) = .error .outOfRange := by
  have refused : (Operator.zero 2 : Operator ℝ).embed [2, 1073741824] [0] [] =
      .error .outOfRange :=
    Operator.embed_refused (by decide) ⟨by decide, by decide⟩ Operator.controlsFit_nil rfl rfl
  have vanishes : (Operator.zero 2 : Operator ℝ).toMatrix 2 = 0 := by
    ext row col
    simp [Operator.toMatrix, Operator.entry_zero]
  refine ⟨rfl, ?_, ?_⟩
  · rw [Operator.distance_exact (Operator.dim_zero 2) (Operator.dim_zero 2), vanishes]
    simp
  · rw [refused]
    rfl

end Resynthesis
end QuditSynth
