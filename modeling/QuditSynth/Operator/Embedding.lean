import QuditSynth.Operator
import QuditSynth.Register

namespace QuditSynth

/-! # Embedding an operator into a register

An operator on some qudits of a register acts on the whole register: untouched
digits of a basis state stay as they are, and control digits have to sit on
their levels for the operator to act at all.
-/

/-- A target digit: its radix, its weight in the register and its weight in the operator. -/
structure Axis where
  radix : Nat
  stride : Nat
  localStride : Nat
deriving Repr, DecidableEq

/-- A control digit and the level on which it lets the operator act. -/
structure ControlDigit where
  radix : Nat
  stride : Nat
  level : Nat
deriving Repr, DecidableEq

namespace Axis

/-- The dimensions of the targets of an operator. -/
def targetDims (dims targets : List Nat) : List Nat := targets.map (dims.getD · 1)

/-- The digits at the given positions, the first being the most significant one of the operator. -/
def ofTargets (dims targets : List Nat) : List Axis :=
  let inner := targetDims dims targets
  (targets.zip (inner.zip (weights inner))).map fun (target, radix, weight) =>
    ⟨radix, (weights dims).getD target 1, weight⟩

/-- The digit of a register state. -/
def digit (axis : Axis) (state : Nat) : Nat := digitAt state axis.stride axis.radix

/-- The digit of an operator state. -/
def localDigit (axis : Axis) (state : Nat) : Nat := digitAt state axis.localStride axis.radix

/-- The operator state formed by the target digits of a register state. -/
def localState (axes : List Axis) (state : Nat) : Nat :=
  axes.foldl (fun total axis => total + axis.digit state * axis.localStride) 0

/-- A register state with its target digits set to zero. -/
def cleared (axes : List Axis) (state : Nat) : Nat :=
  axes.foldl (fun rest axis => rest - axis.digit state * axis.stride) state

/-- A cleared register state with the target digits of an operator state filled in. -/
def filled (axes : List Axis) (base inner : Nat) : Nat :=
  axes.foldl (fun total axis => total + axis.localDigit inner * axis.stride) base

end Axis

namespace ControlDigit

/-- The digits at the given positions, each with its level. -/
def ofControls (dims : List Nat) (controls : List (Nat × Nat)) : List ControlDigit :=
  controls.map fun (position, level) =>
    ⟨dims.getD position 1, (weights dims).getD position 1, level⟩

def holds (control : ControlDigit) (state : Nat) : Bool :=
  digitAt state control.stride control.radix == control.level

end ControlDigit

namespace Operator

variable {R : Type} [Scalar R]

/-- A missing position is named if it can be, that is, if it fits in 32 bits. -/
def missing (position : Nat) : Error :=
  if position < Qudit.limit then .quditNotFound ⟨position⟩ none else .outOfRange

/-- Targets have to exist and to differ from those before them. -/
def checkTargets (size : Nat) : List Nat → List Nat → Except Error Unit
  | _, [] => .ok ()
  | seen, target :: rest =>
      if size ≤ target then .error (missing target)
      else if target ∈ seen then .error (.duplicateQudit ⟨target⟩ none)
      else checkTargets size (target :: seen) rest

/-- Controls have to exist, to be no targets and to name a level of their qudit. -/
def checkControls (dims targets : List Nat) : List (Nat × Nat) → Except Error Unit
  | [] => .ok ()
  | (position, level) :: rest =>
      match dims[position]? with
      | none => .error (missing position)
      | some dim =>
          if position ∈ targets then .error (.controlOnTarget position)
          else if dim ≤ level then .error (.controlLevelOutOfRange level dim position)
          else checkControls dims targets rest

/-- Adds an amplitude to a cell that has to exist. -/
def addAt (u : Operator R) (row col : Nat) (amplitude : Amplitude R) : Except Error (Operator R) :=
  if row < u.dim ∧ col < u.dim then
    .ok { u with
      cells := u.cells.modify (row * u.dim + col) (· + amplitude)
      size_cells := by rw [Array.size_modify, u.size_cells] }
  else .error .outOfRange

/-- Fills one column: the basis state itself where a control does not hold, and otherwise the
operator's column spread over the states that differ in target digits only. -/
def embedColumn (u : Operator R) (axes : List Axis) (controls : List ControlDigit)
    (full : Operator R) (col : Nat) : Except Error (Operator R) :=
  if controls.all (·.holds col) then
    let source := Axis.localState axes col
    let base := Axis.cleared axes col
    (List.range u.dim).foldlM (fun full target => do
      let amplitude := u.entry target source
      if amplitude == 0 then return full
      else full.addAt (Axis.filled axes base target) col amplitude) full
  else full.addAt col col 1

/-- The operator on the whole register, given the positions it acts on (most significant first)
and the positions and levels that control it. -/
def embed (u : Operator R) (dims targets : List Nat) (controls : List (Nat × Nat)) :
    Except Error (Operator R) := do
  checkTargets dims.length [] targets
  checkControls dims targets controls
  let inner ← wordProduct (Axis.targetDims dims targets)
  if inner ≠ u.dim then throw (.dimensionMismatch "embed" u.dim inner)
  -- The weights that the digits are read with have to fit in words.
  let _ ← strides dims
  let _ ← strides (Axis.targetDims dims targets)
  let axes := Axis.ofTargets dims targets
  let guards := ControlDigit.ofControls dims controls
  let total ← wordProduct dims
  checkDim total
  (List.range total).foldlM (u.embedColumn axes guards) (zero total)

end Operator
end QuditSynth
