import QuditSynth.Instruction

namespace QuditSynth

/-! # Circuits

A named list of instructions on a register, in the order in which they run. The
operations here accept an instruction only if it makes sense on the register.
-/

structure Circuit (R : Type) where
  name : String
  register : Register
  instructions : List (Instruction R)

namespace Circuit

variable {R : Type}

def empty (name : String) (register : Register) : Circuit R := ⟨name, register, []⟩

def ofDims (name : String) (dims : List Nat) : Except Error (Circuit R) := do
  return empty name (← Register.ofDims dims)

/-- The same name and register with other instructions, each of which has to be valid. -/
def withInstructions (circuit : Circuit R) (instructions : List (Instruction R)) :
    Except Error (Circuit R) := do
  instructions.forM (·.validate circuit.register)
  return { circuit with instructions }

/-- Adds a valid instruction at the end. -/
def append (circuit : Circuit R) (instruction : Instruction R) : Except Error (Circuit R) := do
  instruction.validate circuit.register
  return { circuit with instructions := circuit.instructions ++ [instruction] }

def dims (circuit : Circuit R) : List Nat := circuit.register.dims

/-- How many instructions touch two or more qudits. -/
def multiQuditCount (circuit : Circuit R) : Nat :=
  circuit.instructions.countP (2 ≤ ·.quditCount)

def hasMeasurement (circuit : Circuit R) : Bool := circuit.instructions.any (·.isMeasure)

/-- Inserts a name into a sorted list of counts, or raises its count. -/
def countName (name : String) : List (String × Nat) → List (String × Nat)
  | [] => [(name, 1)]
  | (other, count) :: rest =>
      if name = other then (other, count + 1) :: rest
      else if name < other then (name, 1) :: (other, count) :: rest
      else (other, count) :: countName name rest

/-- How often each instruction name occurs, sorted by name. -/
def countOps (circuit : Circuit R) : List (String × Nat) :=
  circuit.instructions.foldl (fun counts instruction => countName instruction.name counts) []

variable [Scalar R] [Exponential R]

/-- The operator of the whole circuit: later instructions multiply from the left. -/
def operator (circuit : Circuit R) : Except Error (Operator R) := do
  let start ← Operator.identityOn (← circuit.register.totalDimension)
  circuit.instructions.foldlM (fun total instruction => do
    (← instruction.operator circuit.register).compose total) start

def distance (first second : Circuit R) : Except Error R := do
  (← first.operator).distance (← second.operator)

instance : BEq (Circuit R) where
  beq first second :=
    first.name == second.name && first.dims == second.dims &&
      first.instructions == second.instructions

end Circuit
end QuditSynth
