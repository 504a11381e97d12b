import QuditSynth.Config
import QuditSynth.Instruction

namespace QuditSynth

/-! # Targets

What a device executes directly, which family entangles each pair of its qudits,
and how hard to search.
-/

/-- The names of the gates that a device executes directly. -/
structure NativeSet where
  names : List String
deriving Repr, DecidableEq

namespace NativeSet

/-- Rotations of one qudit, and the two kinds of entangling pulse. -/
def standard : NativeSet := ⟨["r", "rz", "virtrz", "cex", "ms"]⟩

def contains (native : NativeSet) (name : String) : Bool := native.names.contains name

/-- Whether an instruction can run as it is: a gate from the set, not an operator with a name of
its own, and without extra controls. -/
def isNative {R : Type} (native : NativeSet) (instruction : Instruction R) : Bool :=
  match instruction.gate? with
  | some gate => !gate.isCustom && !instruction.isControlled && native.contains gate.name
  | none => false

/-- Whether an instruction is a gate that cannot run as it is. -/
def isForeign {R : Type} (native : NativeSet) (instruction : Instruction R) : Bool :=
  instruction.isGate && !native.isNative instruction

/-- The names in order, each once. -/
def sorted (native : NativeSet) : List String :=
  native.names.eraseDups.mergeSort fun first second => first ≤ second

end NativeSet

structure Target (R : Type) where
  config : Config R
  native : NativeSet := .standard
  /-- Pairs of qudits with a family of their own, the last one bound first. -/
  bindings : List ((Qudit × Qudit) × Family) := []

namespace Target

variable {R : Type}

/-- A pair of qudits whatever their order. -/
def unordered (first second : Qudit) : Qudit × Qudit :=
  if first.index ≤ second.index then (first, second) else (second, first)

/-- Binds a pair of qudits to a family, in place of any earlier one. -/
def bind (target : Target R) (first second : Qudit) (family : Family) : Target R :=
  { target with bindings := (unordered first second, family) :: target.bindings }

/-- The family of a pair of qudits; unless bound, the configured one. -/
def familyFor (target : Target R) (first second : Qudit) : Family :=
  (target.bindings.lookup (unordered first second)).getD target.config.family

end Target
end QuditSynth
