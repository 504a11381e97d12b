import QuditSynth.Circuit

namespace QuditSynth

/-! # Workspaces

Circuits in a workspace may share the storage of their instructions. Copying a
circuit shares its storage; adding to a circuit whose storage is shared first
moves that circuit to storage of its own. Circuits are numbered in the order in
which they came in.
-/

/-- A circuit and the number of the storage that holds its instructions. -/
structure Held (R : Type) where
  circuit : Circuit R
  storage : Nat

structure Workspace (R : Type) where
  held : List (Held R) := []
  /-- The first storage number that was never used. -/
  fresh : Nat := 0

namespace Workspace

variable {R : Type}

def size (workspace : Workspace R) : Nat := workspace.held.length

def get (workspace : Workspace R) (number : Nat) : Except Error (Held R) :=
  match workspace.held[number]? with
  | some held => .ok held
  | none => .error .outOfRange

def circuit (workspace : Workspace R) (number : Nat) : Except Error (Circuit R) := do
  return (← workspace.get number).circuit

/-- Takes in a circuit with storage of its own. -/
def add (workspace : Workspace R) (circuit : Circuit R) : Workspace R where
  held := workspace.held ++ [⟨circuit, workspace.fresh⟩]
  fresh := workspace.fresh + 1

/-- A further circuit with the same contents and the same storage. -/
def copy (workspace : Workspace R) (number : Nat) : Except Error (Workspace R) := do
  let held ← workspace.get number
  return { workspace with held := workspace.held ++ [held] }

/-- A further circuit on the register of an existing one, with other instructions. -/
def withInstructions (workspace : Workspace R) (number : Nat)
    (instructions : List (Instruction R)) : Except Error (Workspace R) := do
  let circuit ← workspace.circuit number
  return workspace.add (← circuit.withInstructions instructions)

/-- Adds an instruction to one circuit. Its storage is its own afterwards. -/
def append (workspace : Workspace R) (number : Nat) (instruction : Instruction R) :
    Except Error (Workspace R) := do
  let circuit ← workspace.circuit number
  let longer ← circuit.append instruction
  return {
    held := workspace.held.set number ⟨longer, workspace.fresh⟩
    fresh := workspace.fresh + 1 }

/-- Whether two circuits keep their instructions in the same storage. -/
def shares (workspace : Workspace R) (first second : Nat) : Except Error Bool := do
  return (← workspace.get first).storage == (← workspace.get second).storage

end Workspace
end QuditSynth
