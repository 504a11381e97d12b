import QuditSynth.Circuit
import QuditSynth.Target

namespace QuditSynth

/-! # Windows

The gates of a circuit are grouped into windows: contiguous stretches on a fixed
set of qudits. A window on one qudit grows onto two when the next gate covers its
qudit, unless that gate is native and the window is not: the gate then opens a
window of its own. Measurements stand between windows.
-/

/-- A stretch of gates and the qudits they lie on. -/
structure Window (R : Type) where
  qudits : List Qudit
  instructions : List (Instruction R)
  /-- Whether one of the gates is not native. -/
  foreign : Bool

/-- A part of a circuit that is compiled on its own. -/
inductive Segment (R : Type)
  | window (window : Window R)
  | measurement (instruction : Instruction R)

namespace Segment

variable {R : Type}

def instructions : Segment R → List (Instruction R)
  | .window stretch => stretch.instructions
  | .measurement instruction => [instruction]

end Segment

namespace Window

variable {R : Type}

/-- The window of a single gate. -/
def ofInstruction (native : NativeSet) (instruction : Instruction R) : Window R :=
  ⟨instruction.allQudits, [instruction], !native.isNative instruction⟩

/-- The qudits of a window once a gate has joined it, if the gate can join. -/
def widen (window : Window R) (qudits : List Qudit) (isNative : Bool) : Option (List Qudit) :=
  if qudits.all (window.qudits.contains ·) then some window.qudits
  else
    match window.qudits, qudits with
    | [only], [_, _] =>
        if qudits.contains only && (!isNative || !window.foreign) then some qudits else none
    | _, _ => none

/-- Lets a gate join a window. -/
def join (native : NativeSet) (window : Window R) (instruction : Instruction R) :
    Option (Window R) := do
  let isNative := native.isNative instruction
  let qudits ← window.widen instruction.allQudits isNative
  return {
    qudits
    instructions := window.instructions ++ [instruction]
    foreign := window.foreign || !isNative }

/-- The operator of a window on its own qudits, the first being the most significant. -/
def operator [Scalar R] [Exponential R] (window : Window R) (register : Register) :
    Except Error (Operator R) := do
  let inner ← register.select window.qudits
  let position (qudit : Qudit) : Qudit := ⟨(window.qudits.findIdx? (· = qudit)).getD 0⟩
  let circuit ← (Circuit.empty "window" inner).withInstructions
    (window.instructions.map (·.remap position))
  circuit.operator

end Window

/-- The segments of the instructions seen so far, and the window that is still open. -/
structure Cutting (R : Type) where
  closed : List (Segment R) := []
  current : Option (Window R) := none

namespace Cutting

variable {R : Type}

/-- All segments, the open window included. -/
def segments (cutting : Cutting R) : List (Segment R) :=
  cutting.closed ++ cutting.current.toList.map .window

/-- Closes the open window and opens one for a gate. -/
def reopen (native : NativeSet) (cutting : Cutting R) (instruction : Instruction R) :
    Cutting R where
  closed := cutting.segments
  current := some (.ofInstruction native instruction)

def step (native : NativeSet) (cutting : Cutting R) (instruction : Instruction R) : Cutting R :=
  if instruction.isMeasure then { closed := cutting.segments ++ [.measurement instruction] }
  else
    match cutting.current.bind (·.join native instruction) with
    | some window => { cutting with current := some window }
    | none => cutting.reopen native instruction

end Cutting

/-- Cuts instructions into segments. -/
def cut {R : Type} (native : NativeSet) (instructions : List (Instruction R)) :
    List (Segment R) :=
  (instructions.foldl (Cutting.step native) {}).segments

end QuditSynth
