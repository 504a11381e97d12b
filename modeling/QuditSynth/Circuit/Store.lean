import QuditSynth.Circuit

namespace QuditSynth

/-! # Stores

The instructions of a circuit lie in a cell. A copy lies in the cell of its
original, so an instruction is added in place only where no other circuit lies
in the cell; otherwise the circuit first moves to a cell of its own. Circuits
are numbered in the order in which they came in.
-/

/-- A circuit without its instructions, and the cell in which they lie. -/
structure Handle where
  name : String
  register : Register
  cell : Nat

structure Store (R : Type) where
  cells : List (List (Instruction R)) := []
  handles : List Handle := []
  located : ∀ handle ∈ handles, handle.cell < cells.length := by simp

namespace Store

variable {R : Type}

def size (store : Store R) : Nat := store.handles.length

/-- What lies in a cell; every circuit lies in one of the cells. -/
def contents (store : Store R) (cell : Nat) : List (Instruction R) := store.cells.getD cell []

/-- How many circuits lie in a cell. -/
def owners (store : Store R) (cell : Nat) : Nat :=
  store.handles.countP fun handle => handle.cell = cell

def handle (store : Store R) (number : Nat) : Except Error Handle :=
  match store.handles[number]? with
  | some handle => .ok handle
  | none => .error .outOfRange

def circuit (store : Store R) (number : Nat) : Except Error (Circuit R) := do
  let handle ← store.handle number
  return ⟨handle.name, handle.register, store.contents handle.cell⟩

/-- Whether two circuits lie in the same cell. -/
def shares (store : Store R) (first second : Nat) : Except Error Bool := do
  return (← store.handle first).cell == (← store.handle second).cell

/-- Takes in a circuit with a cell of its own. -/
def add (store : Store R) (circuit : Circuit R) : Store R where
  cells := store.cells ++ [circuit.instructions]
  handles := store.handles ++ [⟨circuit.name, circuit.register, store.cells.length⟩]
  located := by
    intro handle member
    rw [List.length_append, List.length_singleton]
    rcases List.mem_append.mp member with older | new
    · exact Nat.lt_succ_of_lt (store.located handle older)
    · rw [List.mem_singleton.mp new]
      exact Nat.lt_succ_self _

/-- Takes in a further circuit in the cell of an existing one. -/
def share (store : Store R) (handle : Handle) (present : handle ∈ store.handles) : Store R where
  cells := store.cells
  handles := store.handles ++ [handle]
  located := by
    intro other member
    rcases List.mem_append.mp member with older | new
    · exact store.located other older
    · rw [List.mem_singleton.mp new]
      exact store.located handle present

/-- Moves a circuit to a cell of its own, which holds the same instructions. -/
def detach (store : Store R) (number : Nat) (handle : Handle) : Store R where
  cells := store.cells ++ [store.contents handle.cell]
  handles := store.handles.set number { handle with cell := store.cells.length }
  located := by
    intro other member
    rw [List.length_append, List.length_singleton]
    rcases List.mem_or_eq_of_mem_set member with older | rfl
    · exact Nat.lt_succ_of_lt (store.located other older)
    · exact Nat.lt_succ_self _

/-- Adds an instruction to a cell, and so to all circuits that lie in it. -/
def push (store : Store R) (cell : Nat) (instruction : Instruction R) : Store R where
  cells := store.cells.modify cell (· ++ [instruction])
  handles := store.handles
  located := by
    intro handle member
    rw [List.length_modify]
    exact store.located handle member

/-- A change of the store. One that fails leaves the store as it is at that moment. -/
abbrev Change (R α : Type) := EStateM Error (Store R) α

/-- A further circuit with the same contents. -/
def copy (number : Nat) : Change R Unit := do
  let store ← get
  match found : store.handles[number]? with
  | some handle => set (store.share handle (List.mem_of_getElem? found))
  | none => throw .outOfRange

/-- A further circuit on the register of an existing one, with other instructions. -/
def withInstructions (number : Nat) (instructions : List (Instruction R)) : Change R Unit := do
  let circuit ← MonadExcept.ofExcept ((← get).circuit number)
  let replaced ← MonadExcept.ofExcept (circuit.withInstructions instructions)
  modify (·.add replaced)

/-- Adds an instruction to one circuit. -/
def append (number : Nat) (instruction : Instruction R) : Change R Unit := do
  let handle ← MonadExcept.ofExcept ((← get).handle number)
  MonadExcept.ofExcept (instruction.validate handle.register)
  -- No other circuit may see the new instruction.
  if (← get).owners handle.cell ≠ 1 then modify (·.detach number handle)
  let own ← MonadExcept.ofExcept ((← get).handle number)
  modify (·.push own.cell instruction)

end Store
end QuditSynth
