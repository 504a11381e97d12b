import QuditSynth.Gate.Action

namespace QuditSynth

/-! # Instructions

A gate or a measurement with its operands. A gate may carry extra controls,
each a qudit and the level on which the gate acts.
-/

/-- Control qudits and their levels, position by position. -/
structure Controls where
  qudits : List Qudit
  levels : List Nat
deriving Repr, DecidableEq

namespace Controls

/-- Refuses lists of different lengths. -/
def ofLists (qudits : List Qudit) (levels : List Nat) : Except Error Controls :=
  if qudits.length = levels.length then .ok ⟨qudits, levels⟩
  else .error (.controlCountMismatch none qudits.length levels.length)

/-- The controls as pairs of position and level. -/
def pairs (controls : Controls) : List (Nat × Nat) :=
  (controls.qudits.map Qudit.index).zip controls.levels

def append (first second : Controls) : Controls :=
  ⟨first.qudits ++ second.qudits, first.levels ++ second.levels⟩

def map (f : Qudit → Qudit) (controls : Controls) : Controls :=
  { controls with qudits := controls.qudits.map f }

end Controls

inductive Action (R : Type)
  | gate (gate : Gate R)
  | measure

structure Instruction (R : Type) where
  action : Action R
  qudits : List Qudit
  controls : Option Controls := none

namespace Instruction

variable {R : Type}

def ofGate (gate : Gate R) (qudits : List Qudit) : Instruction R := ⟨.gate gate, qudits, none⟩

def measure (qudit : Qudit) : Instruction R := ⟨.measure, [qudit], none⟩

def gate? (instruction : Instruction R) : Option (Gate R) :=
  match instruction.action with
  | .gate gate => some gate
  | .measure => none

def name (instruction : Instruction R) : String :=
  match instruction.action with
  | .gate gate => gate.name
  | .measure => "measure"

def params (instruction : Instruction R) : List R :=
  match instruction.action with
  | .gate gate => gate.params
  | .measure => []

def isGate (instruction : Instruction R) : Bool := instruction.gate?.isSome

def isMeasure (instruction : Instruction R) : Bool := instruction.gate?.isNone

def controlQudits (instruction : Instruction R) : List Qudit :=
  (instruction.controls.map Controls.qudits).getD []

def controlPairs (instruction : Instruction R) : List (Nat × Nat) :=
  (instruction.controls.map Controls.pairs).getD []

def isControlled (instruction : Instruction R) : Bool := !instruction.controlQudits.isEmpty

/-- Targets, then controls. -/
def allQudits (instruction : Instruction R) : List Qudit :=
  instruction.qudits ++ instruction.controlQudits

def quditCount (instruction : Instruction R) : Nat := instruction.allQudits.length

/-- Adds controls after those already there. Without any control qudit there are no controls. -/
def withControls (instruction : Instruction R) (controls : Controls) : Instruction R :=
  let merged := match instruction.controls with
    | some existing => existing.append controls
    | none => controls
  { instruction with controls := if merged.qudits.isEmpty then none else some merged }

/-- Moves the instruction to other qudits. -/
def remap (instruction : Instruction R) (f : Qudit → Qudit) : Instruction R :=
  { instruction with
    qudits := instruction.qudits.map f
    controls := instruction.controls.map (Controls.map f) }

/-- Operands have to exist and to differ from those before them. -/
def checkQudits (name : String) (size : Nat) : List Qudit → List Qudit → Except Error Unit
  | _, [] => .ok ()
  | seen, qudit :: rest =>
      if size ≤ qudit.index then .error (.quditNotFound qudit (some name))
      else if qudit ∈ seen then .error (.duplicateQudit qudit (some name))
      else checkQudits name size (qudit :: seen) rest

/-- Every control has a level, and its qudit has that level. -/
def checkControls (name : String) (register : Register) (controls : Controls) :
    Except Error Unit := do
  if controls.qudits.length ≠ controls.levels.length then
    throw (.controlCountMismatch (some name) controls.qudits.length controls.levels.length)
  (controls.qudits.zip controls.levels).forM fun (qudit, level) => do
    let dim ← register.dimensionOf qudit
    if dim ≤ level then throw (.levelOutOfRange name level dim)

/-- A gate needs an operand, and its operands have to suit it. -/
def checkGate (register : Register) (gate : Gate R) (qudits : List Qudit) : Except Error Unit := do
  if qudits.isEmpty then throw (.quditCountMismatch gate.name (gate.arity.getD 1) 0)
  gate.checkLevels (← register.select qudits).dims

/-- Whether the instruction makes sense on a register. -/
def validate (instruction : Instruction R) (register : Register) : Except Error Unit := do
  checkQudits instruction.name register.size [] instruction.allQudits
  instruction.controls.forM (checkControls instruction.name register)
  match instruction.action with
  | .gate gate => checkGate register gate instruction.qudits
  | .measure =>
      if instruction.qudits.length ≠ 1 || instruction.isControlled then
        throw (.quditCountMismatch "measure" 1 instruction.quditCount)

variable [Scalar R] [Exponential R]

/-- The gate of an instruction; a measurement has none. -/
def gateOrError (instruction : Instruction R) : Except Error (Gate R) :=
  match instruction.gate? with
  | some gate => .ok gate
  | none => .error (.nonUnitary instruction.name)

/-- The operator on the targets alone. -/
def localOperator (instruction : Instruction R) (register : Register) :
    Except Error (Operator R) := do
  let gate ← instruction.gateOrError
  gate.operator (← register.select instruction.qudits).dims

/-- The operator on the whole register, controls included. -/
def operator (instruction : Instruction R) (register : Register) : Except Error (Operator R) := do
  instruction.validate register
  let inner ← instruction.localOperator register
  inner.embed register.dims (instruction.qudits.map Qudit.index) instruction.controlPairs

def dagger (instruction : Instruction R) (register : Register) : Except Error (Instruction R) := do
  let gate ← instruction.gateOrError
  let inverse ← gate.dagger (← register.select instruction.qudits).dims
  return { instruction with action := .gate inverse }

instance : BEq (Action R) where
  beq
    | .gate first, .gate second => first == second
    | .measure, .measure => true
    | _, _ => false

instance : BEq (Instruction R) where
  beq first second :=
    first.action == second.action && first.qudits == second.qudits &&
      first.controls == second.controls

end Instruction
end QuditSynth
