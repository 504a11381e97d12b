import QuditSynth.Document
import QuditSynth.Gate
import QuditSynth.Scalar.Double

namespace QuditSynth

/-! # Gates in documents

An operator is a record of a version, a shape and its entries row by row. A gate
is a record tagged with its kind.
-/

namespace Amplitude

def toDocument (z : Amplitude Float) : Document := .list [.ofFloat z.re, .ofFloat z.im]

def ofDocument? (document : Document) : Option (Amplitude Float) := do
  match ← document.asList Document.asFloat with
  | [re, im] => return ⟨re, im⟩
  | _ => none

end Amplitude

/-- A table of amplitudes as a document holds it, square or not. -/
structure Table where
  rows : Nat
  cols : Nat
  cells : List (Amplitude Float)

namespace Table

/-- The version of the format. -/
def version : Nat := 1

def shape? (document : Document) : Option (Nat × Nat) := do
  match ← document.asList (Document.asNat wordLimit) with
  | [rows, cols] => return (rows, cols)
  | _ => none

/-- The parts of a table, each read by its own rule. A part given more than once has to be right
each time, and the last one counts. Nothing else may be there. -/
def parts? (document : Document) : Option (Nat × (Nat × Nat) × List (Amplitude Float)) := do
  let entries ← match document with
    | .list [version, shape, cells] => some [("v", version), ("dim", shape), ("data", cells)]
    | .list _ => none
    | document => document.entries
  if entries.any fun entry => entry.1 ∉ ["v", "dim", "data"] then none
  let versions ← (Document.valuesOf "v" entries).mapM (Document.asNat 256)
  if versions.any (· ≠ version) then none
  let shapes ← (Document.valuesOf "dim" entries).mapM shape?
  let cells ← (Document.valuesOf "data" entries).mapM (Document.asList Amplitude.ofDocument?)
  return (← versions.getLast?, ← shapes.getLast?, ← cells.getLast?)

/-- A table whose entries fill its shape. The sides that are not zero have a product of 63 bits. -/
def ofDocument? (document : Document) : Option Table := do
  let (_, (rows, cols), cells) ← parts? document
  if cells.length = rows * cols ∧ product ([rows, cols].filter (· ≠ 0)) < Nat.pow 2 63 then
    return ⟨rows, cols, cells⟩
  else none

/-- A square table is an operator. -/
def operator (table : Table) : Except Error (Operator Float) :=
  Operator.ofTable table.rows table.cols table.cells

end Table

namespace Operator

def toDocument (u : Operator Float) : Document :=
  .ofFields [("v", .ofNat Table.version), ("dim", .list [.ofNat u.dim, .ofNat u.dim]),
    ("data", .ofList Amplitude.toDocument u.toList)]

def ofDocument? (document : Document) : Option (Operator Float) := do
  (← Table.ofDocument? document).operator.toOption

end Operator

namespace Gate

/-- The kind of a gate in a document. -/
def tag : Gate Float → String
  | unitary .. => "unitary"
  | gate => gate.name

def toFields : Gate Float → List (String × Document)
  | r theta phi a b =>
      [("theta", .ofFloat theta), ("phi", .ofFloat phi), ("lev_a", .ofNat a), ("lev_b", .ofNat b)]
  | rz theta a b => [("theta", .ofFloat theta), ("lev_a", .ofNat a), ("lev_b", .ofNat b)]
  | virtRz theta level => [("theta", .ofFloat theta), ("lev", .ofNat level)]
  | cex control a b phi =>
      [("ctrl_lev", .ofNat control), ("lev_a", .ofNat a), ("lev_b", .ofNat b),
        ("phi", .ofFloat phi)]
  | ms theta => [("theta", .ofFloat theta)]
  | h | x | csum => []
  | unitary name operator => [("name", .text name), ("matrix", operator.toDocument)]

def toDocument (gate : Gate Float) : Document :=
  .ofFields (("gate", .text gate.tag) :: gate.toFields)

/-- The level of a qudit in a document. -/
def level? : Document → Option Nat := Document.asNat wordLimit

/-- A gate of a kind, from the fields beside its tag. -/
def ofFields? (tag : String) (document : Document) : Option (Gate Float) := do
  match tag with
  | "r" =>
      match ← document.required ["theta", "phi", "lev_a", "lev_b"] with
      | [theta, phi, a, b] => return .r (← theta.asFloat) (← phi.asFloat) (← level? a) (← level? b)
      | _ => none
  | "rz" =>
      match ← document.required ["theta", "lev_a", "lev_b"] with
      | [theta, a, b] => return .rz (← theta.asFloat) (← level? a) (← level? b)
      | _ => none
  | "virtrz" =>
      match ← document.required ["theta", "lev"] with
      | [theta, level] => return .virtRz (← theta.asFloat) (← level? level)
      | _ => none
  | "cex" =>
      match ← document.required ["ctrl_lev", "lev_a", "lev_b", "phi"] with
      | [control, a, b, phi] =>
          return .cex (← level? control) (← level? a) (← level? b) (← phi.asFloat)
      | _ => none
  | "ms" =>
      match ← document.required ["theta"] with
      | [theta] => return .ms (← theta.asFloat)
      | _ => none
  | "h" => (document.required []).map fun _ => .h
  | "x" => (document.required []).map fun _ => .x
  | "csum" => (document.required []).map fun _ => .csum
  | "unitary" =>
      match ← document.required ["name", "matrix"] with
      | [name, matrix] => return .unitary (← name.asText) (← Operator.ofDocument? matrix)
      | _ => none
  | _ => none

/-- How many containers may lie inside one another in what is read. -/
def depthLimit : Nat := 127

/-- Reads a gate that lies inside some containers. The tag may come anywhere, so all of the record
is held before any field is looked at: every part of it has to be readable, and the depth of
each counts. -/
def ofDocument? (outer : Nat) (document : Document) : Option (Gate Float) := do
  if document.isReadable && outer + document.depth ≤ depthLimit then
    let (tag, fields) ← document.untag "gate"
    ofFields? tag fields
  else none

end Gate
end QuditSynth
