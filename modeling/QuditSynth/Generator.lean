import QuditSynth.CompileError

namespace QuditSynth

/-! # Native generators

A generator knows the exact pulse sequence for one family of two-qudit gates and
the operator of that family in closed form. Sequences act on the qudits 0 and 1.
-/

/-- A family of two-qudit gates with an angle and a phase. -/
structure Generator (R : Type) where
  name : String
  dims : Nat × Nat
  /-- One when the phase is ignored, else two. -/
  paramCount : Nat
  sequence : R → R → Except (CompileError R) (List (Instruction R))
  operator : R → R → Except (CompileError R) (Operator R)

namespace Generator

def localFirst : Qudit := ⟨0⟩

def localSecond : Qudit := ⟨1⟩

variable {R : Type} [Scalar R]

/-- A quarter turn. -/
def quarterTurn : R := Scalar.half Scalar.pi

def rotate (theta phi : R) (a b : Nat) (qudit : Qudit) : Instruction R :=
  .ofGate (Gate.r theta phi a b).canonicalize [qudit]

def exchange (control a b : Nat) (phi : R) (first second : Qudit) : Instruction R :=
  .ofGate (Gate.cex control a b phi).canonicalize [first, second]

/-- A rotation of the target while the control sits on a level. Elsewhere the two half rotations
cancel. -/
def controlledRotation (control target : Qudit) (level a b : Nat) (theta phi : R) :
    List (Instruction R) :=
  [rotate (Scalar.half theta) phi a b target,
    exchange level a b (phi + quarterTurn) control target,
    rotate (Scalar.half (-theta)) phi a b target,
    exchange level a b (phi - quarterTurn) control target]

end Generator

/-- Controlled rotations of the second qudit, for a pair of dimensions. -/
structure Crot where
  dims : Nat × Nat
deriving Repr, DecidableEq

namespace Crot

variable {R : Type}

def refuse {α : Type} (crot : Crot) (first second : Nat) : Except (CompileError R) α :=
  .error (.unsupportedLevels "crot" (first, second) crot.dims)

/-- The control level has to exist, and the target levels to exist and differ. -/
def check (crot : Crot) (control a b : Nat) : Except (CompileError R) Unit :=
  if crot.dims.1 ≤ control then crot.refuse control control
  else if a = b ∨ crot.dims.2 ≤ a ∨ crot.dims.2 ≤ b then crot.refuse a b
  else .ok ()

def ofDims (dims : Nat × Nat) : Except (CompileError R) Crot := do
  check ⟨dims⟩ 1 0 1
  return ⟨dims⟩

/-- The level above a target level. -/
def levelAbove (crot : Crot) (level : Nat) : Except (CompileError R) Nat := do
  if wordLimit ≤ level + 1 then crot.refuse level level
  else
    crot.check 1 level (level + 1)
    return level + 1

variable [Scalar R]

def sequence (crot : Crot) (control a b : Nat) (theta phi : R) :
    Except (CompileError R) (List (Instruction R)) := do
  crot.check control a b
  return Generator.controlledRotation Generator.localFirst Generator.localSecond control a b
    theta phi

/-- A block on the two target levels beside a control level. -/
def beside (crot : Crot) (control a b : Nat) (block : Operator.Block R) :
    Except Error (Operator R) :=
  let row := control * crot.dims.2
  Operator.blockOn (crot.dims.1 * crot.dims.2) (row + a) (row + b) block

def operator (crot : Crot) (control a b : Nat) (theta phi : R) :
    Except (CompileError R) (Operator R) := do
  crot.check control a b
  crot.beside control a b (Operator.rotationBlock theta phi)

/-- A controlled relative phase of neighbouring levels, with control level 1: the rotation axis is
turned before and back after. -/
def phaseSequence (crot : Crot) (level : Nat) (theta : R) :
    Except (CompileError R) (List (Instruction R)) := do
  let above ← crot.levelAbove level
  let turn (angle : R) := Generator.rotate angle 0 level above Generator.localSecond
  return turn (-Generator.quarterTurn) ::
    Generator.controlledRotation Generator.localFirst Generator.localSecond 1 level above theta
      Generator.quarterTurn ++ [turn Generator.quarterTurn]

def phaseOperator (crot : Crot) (level : Nat) (theta : R) :
    Except (CompileError R) (Operator R) := do
  let above ← crot.levelAbove level
  crot.beside 1 level above
    { aa := .polar 1 (Scalar.half (-theta))
      ab := 0
      ba := 0
      bb := .polar 1 (Scalar.half theta) }

def generator (crot : Crot) : Generator R where
  name := "crot"
  dims := crot.dims
  paramCount := 2
  sequence angle phase := crot.sequence 1 0 1 angle phase
  operator angle phase := crot.operator 1 0 1 angle phase

end Crot

/-- Rotations between `|a, b⟩` and `|b, a⟩`, for a pair of dimensions. -/
structure Pswap where
  dims : Nat × Nat
deriving Repr, DecidableEq

namespace Pswap

variable {R : Type}

/-- Both levels have to exist on both qudits, and to differ. -/
def check (pswap : Pswap) (a b : Nat) : Except (CompileError R) Unit :=
  let limit := min pswap.dims.1 pswap.dims.2
  if a = b ∨ limit ≤ a ∨ limit ≤ b then .error (.unsupportedLevels "pswap" (a, b) pswap.dims)
  else .ok ()

def ofDims (dims : Nat × Nat) : Except (CompileError R) Pswap := do
  check ⟨dims⟩ 0 1
  return ⟨dims⟩

variable [Scalar R]

/-- An exchange maps `|b, a⟩` to `|b, b⟩`, a rotation controlled by the second qudit mixes that
state with `|a, b⟩`, and the inverse exchange restores the labels. -/
def sequence (pswap : Pswap) (a b : Nat) (theta phi : R) :
    Except (CompileError R) (List (Instruction R)) := do
  pswap.check a b
  let swap (angle : R) :=
    Generator.exchange b a b angle Generator.localFirst Generator.localSecond
  return swap 0 ::
    Generator.controlledRotation Generator.localSecond Generator.localFirst b a b theta
      (phi - Generator.quarterTurn) ++ [swap Scalar.pi]

def operator (pswap : Pswap) (a b : Nat) (theta phi : R) :
    Except (CompileError R) (Operator R) := do
  pswap.check a b
  let d := pswap.dims.2
  Operator.blockOn (pswap.dims.1 * d) (a * d + b) (b * d + a) (Operator.rotationBlock theta phi)

def generator (pswap : Pswap) : Generator R where
  name := "pswap"
  dims := pswap.dims
  paramCount := 2
  sequence angle phase := pswap.sequence 0 1 angle phase
  operator angle phase := pswap.operator 0 1 angle phase

end Pswap

/-- Simultaneous flips of the lowest two levels, for a pair of dimensions. -/
structure Ms where
  dims : Nat × Nat
deriving Repr, DecidableEq

namespace Ms

variable {R : Type}

def ofDims (dims : Nat × Nat) : Except (CompileError R) Ms :=
  if dims.1 < 2 ∨ dims.2 < 2 then .error (.unsupportedLevels "ms" (0, 1) dims) else .ok ⟨dims⟩

variable [Scalar R]

def sequence (theta : R) : List (Instruction R) :=
  [.ofGate (Gate.ms theta).canonicalize [Generator.localFirst, Generator.localSecond]]

/-- On the lowest two levels of both qudits, a cosine on the diagonal and a sine between each state
and the one with both levels flipped. -/
def operator (ms : Ms) (theta : R) : Except Error (Operator R) := do
  let d := ms.dims.2
  let s := Scalar.sin (Scalar.half theta)
  let c := Scalar.cos (Scalar.half theta)
  Operator.checkDim (ms.dims.1 * d)
  return Operator.ofFn (ms.dims.1 * d) fun row col =>
    let i := row / d
    let j := row % d
    if i < 2 ∧ j < 2 then
      if row = col then .ofReal c
      else if col = (1 - i) * d + (1 - j) then ⟨0, -s⟩
      else 0
    else if row = col then 1 else 0

def generator (ms : Ms) : Generator R where
  name := "ms"
  dims := ms.dims
  paramCount := 1
  sequence angle _ := .ok (sequence angle)
  operator angle _ := ms.operator angle

end Ms

/-- The generator of a family for a pair of dimensions. -/
def Family.generator {R : Type} [Scalar R] (family : Family) (dims : Nat × Nat) :
    Except (CompileError R) (Generator R) :=
  match family with
  | .ms => do return (← Ms.ofDims dims).generator
  | .crot => do return (← Crot.ofDims dims).generator
  | .pswap => do return (← Pswap.ofDims dims).generator

end QuditSynth
