import QuditSynth.Proofs.Operator.Embedding

namespace QuditSynth

/-! # Embedding in two steps

An operator embedded into some qudits of a register, and from there into the
whole register, is the operator embedded directly. Positions among the selected
qudits turn into positions of the register through the selection.
-/

variable {dims selection targets : List Nat} {controls : List (Nat × Nat)}

/-- Positions among selected qudits, as positions of the register they were selected from. -/
def through (selection targets : List Nat) : List Nat := targets.map (selection.getD · 0)

/-- Controls among selected qudits, as controls of the register they were selected from. -/
def throughControls (selection : List Nat) (controls : List (Nat × Nat)) : List (Nat × Nat) :=
  controls.map fun control => (selection.getD control.1 0, control.2)

theorem length_through : (through selection targets).length = targets.length := List.length_map _

theorem Positions.within_selection (inner : Positions (Axis.targetDims dims selection) targets)
    {target : Nat} (member : target ∈ targets) : target < selection.length := by
  simpa using inner.within target member

theorem Positions.targetDims_through
    (inner : Positions (Axis.targetDims dims selection) targets) :
    Axis.targetDims (Axis.targetDims dims selection) targets =
      Axis.targetDims dims (through selection targets) := by
  simp only [Axis.targetDims, through, List.map_map]
  refine List.map_congr_left fun target isTarget => ?_
  have inSelection := inner.within_selection isTarget
  simp [inSelection]

section Selected

variable (outer : Positions dims selection)
  (inner : Positions (Axis.targetDims dims selection) targets)

include outer inner

theorem Positions.through_targets : Positions dims (through selection targets) where
  within := by
    intro position member
    obtain ⟨target, isTarget, rfl⟩ := List.mem_map.mp member
    rw [List.getD_eq_getElem _ _ (inner.within_selection isTarget)]
    exact outer.within _ (List.getElem_mem _)
  distinct := by
    refine inner.distinct.map_on ?_
    intro first firstIn second secondIn equal
    rw [List.getD_eq_getElem _ _ (inner.within_selection firstIn),
      List.getD_eq_getElem _ _ (inner.within_selection secondIn)] at equal
    exact (outer.distinct.getElem_inj_iff).mp equal

theorem Positions.mem_through {position : Nat} (within : position < selection.length) :
    selection[position] ∈ through selection targets ↔ position ∈ targets := by
  constructor
  · intro member
    obtain ⟨target, isTarget, equal⟩ := List.mem_map.mp member
    rw [List.getD_eq_getElem _ _ (inner.within_selection isTarget)] at equal
    exact (outer.distinct.getElem_inj_iff).mp equal ▸ isTarget
  · intro isTarget
    refine List.mem_map.mpr ⟨position, isTarget, ?_⟩
    rw [List.getD_eq_getElem _ _ within]

end Selected

namespace Axis

/-- Reading the targets of a selection reads them off the register. -/
theorem localState_localState (addressable : Addressable dims)
    (outer : Positions dims selection) (inner : Positions (targetDims dims selection) targets)
    (state : Nat) :
    localState (ofTargets (targetDims dims selection) targets)
        (localState (ofTargets dims selection) state) =
      localState (ofTargets dims (through selection targets)) state := by
  have small := addressable.atTargets outer
  have direct := outer.through_targets inner
  have directDims := inner.targetDims_through
  apply state_eq_of_digits (localState_lt small inner _)
    (directDims ▸ localState_lt addressable direct state)
  intro index within
  have inTargets : index < targets.length := by simpa using within
  have inThrough : index < (through selection targets).length := by rwa [length_through]
  have inSelection := inner.within_selection (List.getElem_mem inTargets)
  have atIndex : (through selection targets)[index] = selection[targets[index]] := by
    simp [through, inSelection]
  calc digitIn (targetDims (targetDims dims selection) targets) index _
      = digitIn (targetDims dims selection) targets[index]
          (localState (ofTargets dims selection) state) :=
        digitIn_localState small inner _ inTargets
    _ = digitIn dims selection[targets[index]] state :=
        digitIn_localState addressable outer state inSelection
    _ = digitIn dims (through selection targets)[index] state := by rw [atIndex]
    _ = digitIn (targetDims dims (through selection targets)) index _ :=
        (digitIn_localState addressable direct state inThrough).symm
    _ = digitIn (targetDims (targetDims dims selection) targets) index _ := by rw [directDims]

/-- Two states agree outside the targets if they do so outside the selection and within it. -/
theorem agree_through (addressable : Addressable dims)
    (outer : Positions dims selection) (inner : Positions (targetDims dims selection) targets)
    (first second : Nat) :
    Agree dims (through selection targets) first second ↔
      Agree dims selection first second ∧
        Agree (targetDims dims selection) targets (localState (ofTargets dims selection) first)
          (localState (ofTargets dims selection) second) := by
  constructor
  · intro agree
    refine ⟨fun position readable outside => agree position readable fun member => outside ?_, ?_⟩
    · obtain ⟨target, isTarget, rfl⟩ := List.mem_map.mp member
      rw [List.getD_eq_getElem _ _ (inner.within_selection isTarget)]
      exact List.getElem_mem _
    · intro index within outside
      have inSelection : index < selection.length := by simpa using within
      rw [digitIn_localState addressable outer _ inSelection,
        digitIn_localState addressable outer _ inSelection]
      apply agree _ (outer.within _ (List.getElem_mem inSelection))
      rwa [outer.mem_through inner inSelection]
  · rintro ⟨agreeOutside, agreeWithin⟩ position readable outside
    by_cases selected : position ∈ selection
    · obtain ⟨index, inSelection, rfl⟩ := List.mem_iff_getElem.mp selected
      rw [outer.mem_through inner inSelection] at outside
      rw [← digitIn_localState addressable outer _ inSelection,
        ← digitIn_localState addressable outer _ inSelection]
      exact agreeWithin index (by simpa using inSelection) outside
    · exact agreeOutside position readable selected

end Axis

namespace Operator

theorem ControlsFit.within_selection
    (controlled : ControlsFit (Axis.targetDims dims selection) targets controls)
    {control : Nat × Nat} (member : control ∈ controls) : control.1 < selection.length := by
  simpa using (controlled control member).1

theorem ControlsFit.through (outer : Positions dims selection)
    (inner : Positions (Axis.targetDims dims selection) targets)
    (controlled : ControlsFit (Axis.targetDims dims selection) targets controls) :
    ControlsFit dims (through selection targets) (throughControls selection controls) := by
  intro control member
  obtain ⟨source, isControl, rfl⟩ := List.mem_map.mp member
  obtain ⟨_, isNoTarget, level⟩ := controlled source isControl
  have inSelection := controlled.within_selection isControl
  simp only [List.getD_eq_getElem _ _ inSelection]
  refine ⟨outer.within _ (List.getElem_mem inSelection), ?_, ?_⟩
  · rwa [outer.mem_through inner inSelection]
  · simpa [Axis.targetDims, inSelection] using level

theorem admits_through (addressable : Addressable dims) (outer : Positions dims selection)
    (controlled : ControlsFit (Axis.targetDims dims selection) targets controls) (state : Nat) :
    Admits dims (throughControls selection controls) state ↔
      Admits (Axis.targetDims dims selection) controls
        (Axis.localState (Axis.ofTargets dims selection) state) := by
  simp only [Admits, throughControls, List.forall_mem_map]
  refine forall₂_congr fun control isControl => ?_
  have inSelection := controlled.within_selection isControl
  rw [Axis.digitIn_localState addressable outer _ inSelection,
    List.getD_eq_getElem _ _ inSelection]

variable {R : Type} [Scalar R] {u small : Operator R}

/-- Embedding in two steps gives the entries of the direct embedding. -/
theorem embedded_embedded (addressable : Addressable dims) (outer : Positions dims selection)
    (inner : Positions (Axis.targetDims dims selection) targets)
    (controlled : ControlsFit (Axis.targetDims dims selection) targets controls)
    (entries : ∀ row < product (Axis.targetDims dims selection),
      ∀ col < product (Axis.targetDims dims selection),
        small.entry row col = u.embedded (Axis.targetDims dims selection) targets controls row col)
    {row col : Nat} (rowBound : row < product dims) (colBound : col < product dims) :
    small.embedded dims selection [] row col =
      u.embedded dims (through selection targets) (throughControls selection controls) row col := by
  have sameState : Axis.Agree dims selection row col ∧
      Axis.localState (Axis.ofTargets dims selection) row =
        Axis.localState (Axis.ofTargets dims selection) col ↔ row = col := by
    constructor
    · rintro ⟨agree, same⟩
      exact Axis.eq_of_agree addressable outer rowBound colBound agree same
    · rintro rfl
      exact ⟨fun _ _ _ => rfl, rfl⟩
  simp only [embedded, if_pos (admits_nil col), admits_through addressable outer controlled,
    Axis.agree_through addressable outer inner, ← sameState,
    entries _ (Axis.localState_lt addressable outer row) _
      (Axis.localState_lt addressable outer col),
    Axis.localState_localState addressable outer inner]
  by_cases agree : Axis.Agree dims selection row col <;> simp [agree]

/-- Embedding into a selection and then into the register is embedding into the register. -/
theorem embed_embed (honest : HonestZero R) (addressable : Addressable dims)
    (outer : Positions dims selection)
    (inner : Positions (Axis.targetDims dims selection) targets)
    (controlled : ControlsFit (Axis.targetDims dims selection) targets controls)
    (dim : u.dim = product (Axis.targetDims (Axis.targetDims dims selection) targets)) :
    ∃ small, u.embed (Axis.targetDims dims selection) targets controls = .ok small ∧
      small.dim = product (Axis.targetDims dims selection) ∧
      small.embed dims selection [] =
        u.embed dims (through selection targets) (throughControls selection controls) := by
  obtain ⟨small, runSmall, smallDim, smallEntries⟩ :=
    embed_exists (addressable.atTargets outer) inner controlled dim
  obtain ⟨nested, runNested, nestedDim, nestedEntries⟩ :=
    embed_exists addressable outer controlsFit_nil smallDim
  obtain ⟨direct, runDirect, directDim, directEntries⟩ :=
    embed_exists addressable (outer.through_targets inner) (controlled.through outer inner)
      (dim.trans (by rw [inner.targetDims_through]))
  refine ⟨small, runSmall, smallDim, runNested.trans (Eq.trans ?_ runDirect.symm)⟩
  refine congrArg Except.ok (eq_of_entries (nestedDim.trans directDim.symm) ?_)
  intro row rowBound col colBound
  rw [nestedDim] at rowBound colBound
  rw [nestedEntries honest row rowBound col colBound,
    directEntries honest row rowBound col colBound]
  exact embedded_embedded addressable outer inner controlled (smallEntries honest) rowBound colBound

end Operator
end QuditSynth
