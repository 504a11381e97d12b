import QuditSynth.Circuit
import QuditSynth.Document.Gate
import QuditSynth.Document.Printer
import QuditSynth.Document.Reader

namespace QuditSynth

/-! # Circuits in documents

Registers, instructions and circuits, and the texts of circuits.
-/

namespace Register

def toDocument (register : Register) : Document := .ofList .ofNat register.dims

def dims? : Document → Option (List Nat) := Document.asList (Document.asNat wordLimit)

def ofDocument? (document : Document) : Option Register := do
  (ofDims (← dims? document)).toOption

/-- Reads the text of a register. -/
def read (text : String) : Except DocumentError Register := Document.read text dims? ofDims

end Register

namespace Qudit

def toDocument (qudit : Qudit) : Document := .ofNat qudit.index

def ofDocument? (document : Document) : Option Qudit := (document.asNat limit).map Qudit.mk

end Qudit

namespace Controls

def toDocument (controls : Controls) : Document :=
  .ofFields [("qudits", .ofList Qudit.toDocument controls.qudits),
    ("levels", .ofList .ofNat controls.levels)]

def ofDocument? (document : Document) : Option Controls := do
  match ← document.required ["qudits", "levels"] with
  | [qudits, levels] =>
      return ⟨← qudits.asList Qudit.ofDocument?, ← levels.asList (Document.asNat wordLimit)⟩
  | _ => none

end Controls

namespace Action

def toDocument : Action Float → Document
  | .gate applied => .ofFields [("Gate", applied.toDocument)]
  | .measure => .text "Measure"

def ofDocument? (outer : Nat) : Document → Option (Action Float)
  | .text "Measure" => some .measure
  | .record [(some "Measure", .null)] => some .measure
  | .record [(some "Gate", document)] => (Gate.ofDocument? (outer + 1) document).map .gate
  | _ => none

end Action

namespace Instruction

/-- Controls are written only where there are some. -/
def toDocument (instruction : Instruction Float) : Document :=
  .ofFields ([("kind", instruction.action.toDocument),
    ("qudits", .ofList Qudit.toDocument instruction.qudits)] ++
    instruction.controls.toList.map fun controls => ("controls", controls.toDocument))

def controls? : Option Document → Option (Option Controls)
  | none | some .null => some none
  | some document => (Controls.ofDocument? document).map some

/-- Reads an instruction that lies inside some containers. -/
def ofDocument? (outer : Nat) (document : Document) : Option (Instruction Float) := do
  match ← document.fields ["kind", "qudits", "controls"] with
  | [some kind, some qudits, controls] =>
      return ⟨← Action.ofDocument? (outer + 1) kind, ← qudits.asList Qudit.ofDocument?,
        ← controls? controls⟩
  | _ => none

end Instruction

namespace Circuit

def toDocument (circuit : Circuit Float) : Document :=
  .ofFields [("name", .text circuit.name), ("dims", circuit.register.toDocument),
    ("instructions", .ofList Instruction.toDocument circuit.instructions)]

def instructions? : Option Document → Option (List (Instruction Float))
  | none => some []
  | some document => document.asList (Instruction.ofDocument? 2)

/-- The circuit of a document, whose instructions are still to be checked. -/
def ofDocument? (document : Document) : Option (Circuit Float) := do
  match ← document.fields ["name", "dims", "instructions"] with
  | [some name, some dims, instructions] =>
      return ⟨← name.asText, ← Register.ofDocument? dims, ← instructions? instructions⟩
  | _ => none

/-- A circuit all of whose instructions are valid. -/
def checked (circuit : Circuit Float) : Except Error (Circuit Float) :=
  circuit.withInstructions circuit.instructions

/-- Reads the text of a circuit. -/
def read (text : String) : Except DocumentError (Circuit Float) :=
  Document.read text ofDocument? checked

/-- The text of a circuit. -/
def write (circuit : Circuit Float) : String := circuit.toDocument.lines

end Circuit
end QuditSynth
