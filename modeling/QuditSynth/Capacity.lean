import QuditSynth.Error

namespace QuditSynth

/-! # Capacity

A table is addressed by signed 64-bit byte offsets. One that would need more
bytes than that is refused before any of its cells is computed.
-/

/-- The number of bytes that no table reaches. -/
def byteLimit : Nat := Nat.pow 2 63

/-- Refuses a table of `count` cells of `width` bytes each if it is too large to be addressed. -/
def checkCapacity (count width : Nat) : Except Error Unit :=
  if count * width < byteLimit then .ok () else .error .outOfRange

/-- The cells of a table that has to grow: twice as many, unless it takes more. -/
def grownCells (cells count : Nat) : Nat := max (2 * cells) count

/-- The cells of a table that is filled one by one and doubles whenever it is full: the next power
of two. -/
def filledCells (count : Nat) : Nat := max 4 (Nat.pow 2 ((count - 1).log2 + 1))

end QuditSynth
