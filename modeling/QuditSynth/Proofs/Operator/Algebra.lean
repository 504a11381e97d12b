import QuditSynth.Proofs.Exact.Adjoint
import QuditSynth.Proofs.Exact.Independence
import QuditSynth.Proofs.Exact.Levels

namespace QuditSynth.Operator

/-! # Embeddings and the algebra of operators

Embedding on fixed targets and under fixed controls takes products to products,
adjoints to adjoints and the identity to the identity, and embeddings without
common qudits commute. The laws are stated for outcomes: where a register has no
room for its matrices, both sides fail alike.
-/

variable {dims targets others : List Nat} {controls otherControls : List (Nat × Nat)}
  {u v : Operator ℝ}

section Lifted

variable (positive : ∀ dim ∈ dims, 0 < dim) (positions : Positions dims targets)
  (controlled : ControlsFit dims targets controls)

include positive positions controlled

theorem embed_exists_iff (dim : u.dim = product (Axis.targetDims dims targets)) :
    (∃ full, u.embed dims targets controls = .ok full) ↔
      product dims * product dims * amplitudeBytes < byteLimit := by
  rw [← checkCapacity_eq_ok_iff]
  constructor
  · intro made
    obtain ⟨full, made⟩ := made
    rw [embed_eq_addAll positive positions controlled dim] at made
    exact (Outcome.check_bind_eq_ok_iff.mp made).1
  · intro room
    obtain ⟨full, made, _⟩ := embed_exists ⟨positive, room⟩ positions controlled dim
    exact ⟨full, made⟩

theorem compose_embed (uDim : u.dim = product (Axis.targetDims dims targets))
    (vDim : v.dim = product (Axis.targetDims dims targets)) :
    (do (← u.embed dims targets controls).compose (← v.embed dims targets controls)) =
      (do (← u.compose v).embed dims targets controls) := by
  have composed : u.compose v = .ok (u * v) := compose_eq_ok (uDim.trans vDim.symm)
  rw [composed, Outcome.ok_bind]
  rcases addressable_or_refused positive with addressable | refused
  · obtain ⟨uFull, uRun, uFullDim, _⟩ := embed_exists addressable positions controlled uDim
    obtain ⟨vFull, vRun, vFullDim, _⟩ := embed_exists addressable positions controlled vDim
    rw [uRun, vRun, embed_mul addressable positions controlled uDim vDim uRun vRun]
    exact compose_eq_ok (uFullDim.trans vFullDim.symm)
  · have productDim : (u * v).dim = product (Axis.targetDims dims targets) := uDim
    rw [embed_refused positive positions controlled refused uDim,
      embed_refused positive positions controlled refused productDim]
    rfl

theorem dagger_embed (dim : u.dim = product (Axis.targetDims dims targets)) :
    u.dagger.embed dims targets controls =
      (do return (← u.embed dims targets controls).dagger) := by
  rcases addressable_or_refused positive with addressable | refused
  · obtain ⟨full, run, _⟩ := embed_exists addressable positions controlled dim
    rw [run, embed_dagger addressable positions controlled dim run]
    rfl
  · rw [embed_refused positive positions controlled refused dim,
      embed_refused positive positions controlled refused ((dim_dagger u).trans dim)]
    rfl

theorem identity_embed :
    (identity (product (Axis.targetDims dims targets)) : Operator ℝ).embed dims targets controls =
      identityOn (product dims) := by
  rcases addressable_or_refused positive with addressable | refused
  · rw [embed_identity addressable positions controlled, identityOn, addressable.room]
    rfl
  · rw [embed_refused positive positions controlled refused (dim_identity _), identityOn,
      refused]
    rfl

theorem embed_embed_commute (otherPositions : Positions dims others)
    (otherControlled : ControlsFit dims others otherControls)
    (disjoint : (targets ++ controls.map Prod.fst).Disjoint (others ++ otherControls.map Prod.fst))
    (uDim : u.dim = product (Axis.targetDims dims targets))
    (vDim : v.dim = product (Axis.targetDims dims others)) :
    (do (← u.embed dims targets controls).compose (← v.embed dims others otherControls)) =
      (do (← v.embed dims others otherControls).compose (← u.embed dims targets controls)) := by
  rcases addressable_or_refused positive with addressable | refused
  · obtain ⟨uFull, uRun, uFullDim, _⟩ := embed_exists addressable positions controlled uDim
    obtain ⟨vFull, vRun, vFullDim, _⟩ :=
      embed_exists addressable otherPositions otherControlled vDim
    rw [List.disjoint_append_left, List.disjoint_append_right, List.disjoint_append_right]
      at disjoint
    obtain ⟨⟨targetsApart, otherControlsApart⟩, controlsApart, _⟩ := disjoint
    have same : uFull.dim = vFull.dim := uFullDim.trans vFullDim.symm
    rw [uRun, vRun, Outcome.ok_bind, Outcome.ok_bind, Outcome.ok_bind, Outcome.ok_bind,
      compose_eq_ok same, compose_eq_ok same.symm,
      embed_commute addressable positions otherPositions controlled otherControlled targetsApart
        controlsApart otherControlsApart.symm uDim vDim uRun vRun]
  · rw [embed_refused positive positions controlled refused uDim,
      embed_refused positive otherPositions otherControlled refused vDim]

end Lifted

/-- Embedding respects products, adjoints, the identity and unitarity, and embeddings without common
qudits commute. -/
theorem embed_algebra (dims targets : List Nat) (controls : List (Nat × Nat))
    (positive : ∀ dim ∈ dims, 0 < dim)
    (targeted : checkTargets dims.length [] targets = .ok ())
    (controlled : checkControls dims targets controls = .ok ()) :
    let size := product dims
    let inner := product (Axis.targetDims dims targets)
    let lift (u : Operator ℝ) := u.embed dims targets controls
    (∀ u : Operator ℝ, u.dim = inner →
      ((∃ full, lift u = .ok full) ↔ size * size * amplitudeBytes < byteLimit)) ∧
    (∀ u v : Operator ℝ, u.dim = inner → v.dim = inner →
      (do (← lift u).compose (← lift v)) = (do lift (← u.compose v))) ∧
    (∀ u : Operator ℝ, u.dim = inner → lift u.dagger = (do return (← lift u).dagger)) ∧
    lift (identity inner) = identityOn size ∧
    (∀ u : Operator ℝ, u.dim = inner → u.Unitary → ∀ full, lift u = .ok full → full.Unitary) ∧
    ∀ others otherControls,
      checkTargets dims.length [] others = .ok () →
      checkControls dims others otherControls = .ok () →
      (targets ++ controls.map Prod.fst).Disjoint (others ++ otherControls.map Prod.fst) →
      ∀ u v : Operator ℝ, u.dim = inner → v.dim = product (Axis.targetDims dims others) →
        (do (← lift u).compose (← v.embed dims others otherControls)) =
          (do (← v.embed dims others otherControls).compose (← lift u)) := by
  intro size inner lift
  obtain ⟨within, distinct, _⟩ := checkTargets_eq_ok_iff.mp targeted
  have positions : Positions dims targets := ⟨within, distinct⟩
  have fit := checkControls_eq_ok_iff.mp controlled
  refine ⟨fun u dim => embed_exists_iff positive positions fit dim,
    fun u v uDim vDim => compose_embed positive positions fit uDim vDim,
    fun u dim => dagger_embed positive positions fit dim,
    identity_embed positive positions fit, ?_, ?_⟩
  · intro u dim unitary full made
    have room := (embed_exists_iff positive positions fit dim).mp ⟨full, made⟩
    have addressable : Addressable dims := ⟨positive, checkCapacity_eq_ok_iff.mpr room⟩
    exact unitary.embed addressable positions fit dim made
  · intro others otherControls otherTargeted otherControlled disjoint u v uDim vDim
    obtain ⟨otherWithin, otherDistinct, _⟩ := checkTargets_eq_ok_iff.mp otherTargeted
    exact embed_embed_commute positive positions fit ⟨otherWithin, otherDistinct⟩
      (checkControls_eq_ok_iff.mp otherControlled) disjoint uDim vDim

/-- A shift of a qutrit under a control on a qubit before it, and a shift of the qubit after it. -/
theorem embed_algebra_controlled_shift :
    checkTargets [2, 3, 2].length [] [1] = .ok () ∧ checkControls [2, 3, 2] [1] [(0, 1)] = .ok () ∧
      ∃ full other : Operator ℝ,
        (cyclicShift 3).embed [2, 3, 2] [1] [(0, 1)] = .ok full ∧ full.Unitary ∧
        (cyclicShift 3).dagger.embed [2, 3, 2] [1] [(0, 1)] = .ok full.dagger ∧
        (cyclicShift 2).embed [2, 3, 2] [2] [] = .ok other ∧
        full.compose other = other.compose full := by
  have unitary : (cyclicShift 3 : Operator ℝ).Unitary := (unitary_iff rfl).mpr shift_unitary
  obtain ⟨exists_iff, _, adjoint, _, keeps, commute⟩ :=
    embed_algebra [2, 3, 2] [1] [(0, 1)] (by decide) rfl rfl
  obtain ⟨full, made⟩ := (exists_iff (cyclicShift 3) rfl).mpr (by decide)
  obtain ⟨otherExists, _⟩ := embed_algebra [2, 3, 2] [2] [] (by decide) rfl rfl
  obtain ⟨other, otherMade⟩ := (otherExists (cyclicShift 2) rfl).mpr (by decide)
  have undone := adjoint (cyclicShift 3) rfl
  have swapped := commute [2] [] rfl rfl (by simp) (cyclicShift 3) (cyclicShift 2) rfl rfl
  simp only [made, otherMade, Outcome.ok_bind] at undone swapped
  exact ⟨rfl, rfl, full, other, made, keeps _ rfl unitary full made, undone, otherMade, swapped⟩

/-- On a register without room for matrices neither the identity nor a product that vanishes can be
embedded. -/
theorem embed_algebra_without_room :
    checkTargets [2, 1073741824].length [] [0] = .ok () ∧
      checkControls [2, 1073741824] [0] [] = .ok () ∧
      (identity 2 : Operator ℝ).embed [2, 1073741824] [0] [] = .error .outOfRange ∧
      (do (← (zero 2 : Operator ℝ).compose (zero 2)).embed [2, 1073741824] [0] []) =
        .error .outOfRange := by
  have refused : ∀ u : Operator ℝ, u.dim = 2 →
      u.embed [2, 1073741824] [0] [] = .error .outOfRange := fun u dim =>
    embed_refused (by decide) ⟨by decide, by decide⟩ controlsFit_nil rfl dim
  refine ⟨rfl, rfl, refused _ rfl, ?_⟩
  rw [compose_eq_ok rfl, Outcome.ok_bind]
  exact refused _ rfl

end QuditSynth.Operator
