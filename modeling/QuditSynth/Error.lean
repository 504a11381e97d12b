namespace QuditSynth

/-! # Errors of registers, operators, gates and circuits

Each constructor is one cause; `Error.message` holds its wording.
-/

/-- A qudit, known by its position in a register. -/
structure Qudit where
  index : Nat
deriving Repr, DecidableEq

namespace Qudit

def text (qudit : Qudit) : String := "q" ++ toString qudit.index

/-- Positions are stored in 32 bits. -/
def limit : Nat := Nat.pow 2 32

end Qudit

inductive Error
  | dimensionMismatch (operation : String) (left right : Nat)
  | notSquare (rows cols : Nat)
  | invalidDimension (dimension : Nat)
  | emptyRegister
  | quditNotFound (qudit : Qudit) (gate : Option String)
  | duplicateQudit (qudit : Qudit) (gate : Option String)
  | quditCountMismatch (gate : String) (expected actual : Nat)
  | levelOutOfRange (gate : String) (level dimension : Nat)
  | invalidLevels (gate : String) (first second : Nat)
  /-- A qudit is used both as a target and as a control. -/
  | controlOnTarget (position : Nat)
  | controlLevelOutOfRange (level dimension position : Nat)
  /-- Every control qudit needs its level. -/
  | controlCountMismatch (gate : Option String) (qudits levels : Nat)
  | nonUnitary (instruction : String)
  /-- An index beyond the end of the data it selects from, or a size that no table can have. -/
  | outOfRange
deriving Repr, DecidableEq

namespace Error

private def inGate : Option String → String
  | none => ""
  | some gate => " (gate: " ++ gate ++ ")"

def message : Error → String
  | dimensionMismatch operation left right =>
      s!"Dimension mismatch in {operation}: {left} vs {right}"
  | notSquare rows cols => s!"Matrix must be square, got {rows}x{cols}"
  | invalidDimension dimension => s!"Qudit dimension must be at least 2, got {dimension}"
  | emptyRegister => "Register must contain at least one qudit"
  | quditNotFound qudit gate => s!"Qudit {qudit.text} not found in register{inGate gate}"
  | duplicateQudit qudit gate => s!"Duplicate qudit {qudit.text} in operation{inGate gate}"
  | quditCountMismatch gate expected actual =>
      s!"Gate '{gate}' requires {expected} qudits, got {actual}"
  | levelOutOfRange gate level dimension =>
      s!"Gate '{gate}' addresses level {level} on a qudit of dimension {dimension}"
  | invalidLevels gate first second =>
      s!"Gate '{gate}' needs two distinct levels, got {first} and {second}"
  | controlOnTarget position =>
      s!"Invalid control specification: qudit {position} is both target and control"
  | controlLevelOutOfRange level dimension position =>
      s!"Invalid control specification: control level {level} exceeds dimension {dimension} " ++
        s!"of qudit {position}"
  | controlCountMismatch none qudits levels =>
      s!"Invalid control specification: {qudits} control qudits but {levels} control levels"
  | controlCountMismatch (some gate) qudits levels =>
      s!"Invalid control specification: '{gate}' has {qudits} control qudits " ++
        s!"but {levels} control levels"
  | nonUnitary instruction => s!"Instruction '{instruction}' is not unitary"
  | outOfRange => "index out of range"

end Error
end QuditSynth
