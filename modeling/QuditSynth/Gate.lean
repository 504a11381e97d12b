import QuditSynth.Angle
import QuditSynth.Operator
import QuditSynth.Register

namespace QuditSynth

/-! # Gates

Gates over qudits with several levels, counted from zero. A gate on two qudits
takes the more significant digit first; that qudit is the control where the gate
has one.
-/

inductive GateCategory
  /-- A rotation of one qudit. -/
  | singleQuditRotation
  /-- A pulse on two qudits. -/
  | twoQuditNative
  /-- Anything that has to be compiled away. -/
  | generic
deriving Repr, DecidableEq

inductive Gate (R : Type)
  /-- Rotation between two levels by `theta` about the axis at phase `phi`. -/
  | r (theta phi : R) (levelA levelB : Nat)
  /-- Relative phase between two levels. -/
  | rz (theta : R) (levelA levelB : Nat)
  /-- The phase `-theta` on one level. -/
  | virtRz (theta : R) (level : Nat)
  /-- Exchange of two levels of the second qudit when the first sits on `control`. -/
  | cex (control levelA levelB : Nat) (phi : R)
  /-- Simultaneous flip of the lowest two levels of both qudits. -/
  | ms (theta : R)
  /-- Fourier transform of the levels. -/
  | h
  /-- Cyclic shift of the levels. -/
  | x
  /-- Addition of the first level to the second, modulo the second dimension. -/
  | csum
  /-- An operator on any number of qudits, with a name of its own. -/
  | unitary (name : String) (operator : Operator R)

namespace Gate

variable {R : Type}

/-- The name by which native gate sets know the gate. -/
def name : Gate R → String
  | r .. => "r"
  | rz .. => "rz"
  | virtRz .. => "virtrz"
  | cex .. => "cex"
  | ms .. => "ms"
  | h => "h"
  | x => "x"
  | csum => "csum"
  | unitary name _ => name

def category : Gate R → GateCategory
  | r .. | rz .. | virtRz .. => .singleQuditRotation
  | cex .. | ms .. => .twoQuditNative
  | h | x | csum | unitary .. => .generic

def isCustom : Gate R → Bool
  | unitary .. => true
  | _ => false

/-- The number of qudits the gate acts on, where that is fixed. -/
def arity : Gate R → Option Nat
  | r .. | rz .. | virtRz .. | h | x => some 1
  | cex .. | ms .. | csum => some 2
  | unitary .. => none

def params : Gate R → List R
  | r theta phi .. => [theta, phi]
  | rz theta .. | virtRz theta _ | ms theta => [theta]
  | cex _ _ _ phi => [phi]
  | _ => []

def checkLevel (gate : Gate R) (level dim : Nat) : Except Error Unit :=
  if level < dim then .ok () else .error (.levelOutOfRange gate.name level dim)

/-- Two levels have to differ before their range matters. -/
def checkPair (gate : Gate R) (a b dim : Nat) : Except Error Unit := do
  if a = b then throw (.invalidLevels gate.name a b)
  gate.checkLevel a dim
  gate.checkLevel b dim

/-- Whether a gate with a fixed number of qudits has that many operands. -/
def checkArity (gate : Gate R) (count : Nat) : Except Error Unit :=
  match gate.arity with
  | some expected =>
      if count = expected then .ok () else .error (.quditCountMismatch gate.name expected count)
  | none => .ok ()

/-- Whether the gate's operands number as they should and have the levels it names. -/
def checkLevels (gate : Gate R) (dims : List Nat) : Except Error Unit := do
  gate.checkArity dims.length
  match gate, dims with
  | r _ _ a b, [dim] | rz _ a b, [dim] => gate.checkPair a b dim
  | virtRz _ level, [dim] => gate.checkLevel level dim
  | cex control a b _, [controlDim, dim] => do
      gate.checkLevel control controlDim
      gate.checkPair a b dim
  | unitary _ operator, dims => do
      let expected ← wordProduct dims
      if dims.isEmpty || operator.dim != expected then
        throw (.dimensionMismatch "unitary gate" operator.dim expected)
  | _, _ => return ()

variable [Scalar R]

def beq : Gate R → Gate R → Bool
  | r theta phi a b, r theta' phi' a' b' => theta == theta' && phi == phi' && a == a' && b == b'
  | rz theta a b, rz theta' a' b' => theta == theta' && a == a' && b == b'
  | virtRz theta level, virtRz theta' level' => theta == theta' && level == level'
  | cex control a b phi, cex control' a' b' phi' =>
      control == control' && a == a' && b == b' && phi == phi'
  | ms theta, ms theta' => theta == theta'
  | h, h => true
  | x, x => true
  | csum, csum => true
  | unitary name operator, unitary name' operator' => name == name' && operator == operator'
  | _, _ => false

instance : BEq (Gate R) := ⟨beq⟩

/-- Reduces every angle modulo its period. -/
def canonicalize : Gate R → Gate R
  | r theta phi a b =>
      r (Angle.wrap theta Angle.rotationPeriod) (Angle.wrap phi Angle.phasePeriod) a b
  | rz theta a b => rz (Angle.wrap theta Angle.rotationPeriod) a b
  | virtRz theta level => virtRz (Angle.wrap theta Angle.phasePeriod) level
  | cex control a b phi => cex control a b (Angle.wrap phi Angle.phasePeriod)
  | ms theta => ms (Angle.wrap theta Angle.rotationPeriod)
  | gate => gate

/-- Whether the gate's angle is a multiple of its period, up to a tolerance. -/
def isIdentity (gate : Gate R) (tolerance : R) : Bool :=
  match gate with
  | r theta .. | rz theta .. | ms theta =>
      Angle.nearMultiple theta Angle.rotationPeriod tolerance
  | virtRz theta _ => Angle.nearMultiple theta Angle.phasePeriod tolerance
  | _ => false

end Gate
end QuditSynth
