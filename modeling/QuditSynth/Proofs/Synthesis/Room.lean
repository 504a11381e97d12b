import QuditSynth.Synthesis.Search
import QuditSynth.Proofs.Operator.Axes

namespace QuditSynth

/-! # Room for the angles of a search

The number of parameters of an ansatz is worked out in words, and what comes out
is exact. A search makes room for so many angles, for the table in which those of
the previous number of layers grow to as many, and for the vertices of a simplex,
each time it comes to another number of layers.
-/

open Outcome (FailsAs)

theorem rounded_up_le {count bits : Nat} (two : 2 ≤ bits) (fits : count < 2 ^ bits) :
    max 4 (2 ^ (count.log2 + 1)) ≤ 2 ^ bits := by
  have digits : count.log2 + 1 ≤ bits := by
    by_cases none : count = 0
    · rw [none, Nat.log2_zero]
      omega
    · exact (Nat.log2_lt none).mpr fits
  exact max_le (Nat.pow_le_pow_right Nat.two_pos two) (Nat.pow_le_pow_right Nat.two_pos digits)

/-- A rectangle with sides of at least four is large for its perimeter. -/
theorem four_mul_add_le {a b : Nat} (first : 4 ≤ a) (second : 4 ≤ b) :
    4 * (a + b) ≤ a * b + 16 := by
  obtain ⟨x, rfl⟩ := Nat.exists_eq_add_of_le first
  obtain ⟨y, rfl⟩ := Nat.exists_eq_add_of_le second
  have area : (4 + x) * (4 + y) = 16 + 4 * x + 4 * y + x * y := by ring
  omega

theorem LocalLayer.countParams_of_lt {layer : LocalLayer} (positive : 0 < layer.dim)
    (fits : layer.dim * layer.dim < wordLimit) : layer.countParams = .ok layer.paramCount := by
  have square : layer.dim * layer.dim ≠ 0 := Nat.mul_ne_zero positive.ne' positive.ne'
  rw [countParams, word_of_lt fits, Outcome.ok_bind, if_neg square]
  rfl

theorem LocalLayer.countParams_fails (layer : LocalLayer) :
    FailsAs .outOfRange layer.countParams := by
  refine (word_fails _).bind fun square => ?_
  split
  · exact fun cause failed => (Except.error.inj failed).symm
  · exact .ok _ _

namespace Ansatz

variable {R : Type} {ansatz : Ansatz R}

theorem countParams_fails (ansatz : Ansatz R) : FailsAs .outOfRange ansatz.countParams :=
  ansatz.first.countParams_fails.bind fun _ => ansatz.second.countParams_fails.bind fun _ =>
    (word_fails _).bind fun _ => (word_fails _).bind fun _ => (word_fails _).bind fun _ =>
      (word_fails _).bind fun _ => word_fails _

/-- With two levels on each qudit no step on the way is larger than the number itself. -/
theorem countParams_of_lt (levels : 2 ≤ ansatz.generator.dims.1 ∧ 2 ≤ ansatz.generator.dims.2)
    (fits : ansatz.paramCount < wordLimit) : ansatz.countParams = .ok ansatz.paramCount := by
  have first : 4 ≤ ansatz.first.dim * ansatz.first.dim := Nat.mul_le_mul levels.1 levels.1
  have second : 4 ≤ ansatz.second.dim * ansatz.second.dim := Nat.mul_le_mul levels.2 levels.2
  have inner : ansatz.first.dim * ansatz.first.dim + ansatz.second.dim * ansatz.second.dim =
      ansatz.localParams + 2 := by
    rw [localParams, LocalLayer.paramCount, LocalLayer.paramCount]
    omega
  have layered : ansatz.localParams ≤ (ansatz.layers + 1) * ansatz.localParams :=
    Nat.le_mul_of_pos_left _ (Nat.succ_pos _)
  have counted : ansatz.layers + 1 ≤ (ansatz.layers + 1) * ansatz.localParams :=
    Nat.le_mul_of_pos_right _ (by omega)
  have total := fits
  rw [paramCount] at total
  rw [countParams, LocalLayer.countParams_of_lt (Nat.zero_lt_of_lt levels.1) (by omega),
    Outcome.ok_bind, LocalLayer.countParams_of_lt (Nat.zero_lt_of_lt levels.2) (by omega),
    Outcome.ok_bind]
  change (do
    let inner ← word ansatz.localParams
    let locals ← word ((← word (ansatz.layers + 1)) * inner)
    word (locals + (← word (ansatz.layers * ansatz.entanglerParams)))) = _
  rw [word_of_lt (by omega), Outcome.ok_bind, word_of_lt (by omega), Outcome.ok_bind,
    word_of_lt (by omega), Outcome.ok_bind, word_of_lt (by omega), Outcome.ok_bind]
  exact word_of_lt fits

/-- Where the matrices of two qudits can be addressed, the angles of one layer are not so many. -/
theorem paramCount_one_lt {generator : Generator R}
    (levels : 2 ≤ generator.dims.1 ∧ 2 ≤ generator.dims.2) (shared : generator.paramCount ≤ 2)
    (room : Operator.checkDim (generator.dims.1 * generator.dims.2) = .ok ()) :
    paramCount ⟨generator, 1⟩ < 2 ^ 58 := by
  rw [Operator.checkDim, checkCapacity_eq_ok_iff] at room
  simp only [Operator.amplitudeBytes, byteLimit, Nat.pow_eq, Nat.reducePow] at room
  -- The largest dimension whose square is below `2 ^ 59`.
  have side : generator.dims.1 * generator.dims.2 ≤ 759250124 := by
    by_contra large
    have square := Nat.mul_le_mul (Nat.not_le.mp large) (Nat.not_le.mp large)
    omega
  have area := Nat.mul_le_mul side side
  have first : 4 ≤ generator.dims.1 * generator.dims.1 := Nat.mul_le_mul levels.1 levels.1
  have second : 4 ≤ generator.dims.2 * generator.dims.2 := Nat.mul_le_mul levels.2 levels.2
  have sum := four_mul_add_le first second
  rw [Nat.mul_mul_mul_comm] at sum
  simp only [paramCount, localParams, LocalLayer.paramCount, Ansatz.first, Ansatz.second,
    entanglerParams, Nat.reducePow]
  omega

theorem paramCount_le {generator : Generator R} {few many : Nat} (le : few ≤ many) :
    paramCount ⟨generator, few⟩ ≤ paramCount ⟨generator, many⟩ :=
  Nat.add_le_add (Nat.mul_le_mul_right _ (Nat.succ_le_succ le)) (Nat.mul_le_mul_right _ le)

end Ansatz

namespace Search

variable {R : Type} {config : Config R} {generator : Generator R} {layers : Nat}
  {warm : Option (List R)}

/-- There is room for what a search needs at a number of layers: for the angles, for those of the
previous number of layers grown to as many, and for the vertices of a simplex, whose number is
rounded up to a power of two. -/
structure Roomy (config : Config R) (generator : Generator R) (layers : Nat) : Prop where
  angles : Ansatz.paramCount ⟨generator, layers⟩ * 8 < 2 ^ 63
  grown : 1 < layers → max (2 * Ansatz.paramCount ⟨generator, layers - 1⟩)
    (Ansatz.paramCount ⟨generator, layers⟩) * 8 < 2 ^ 63
  vertices : config.optimizer = .nelderMead →
    max 4 (2 ^ ((Ansatz.paramCount ⟨generator, layers⟩).log2 + 1)) * 24 < 2 ^ 63

/-- Angles to go on from are those of an earlier number of layers. -/
def Earlier (generator : Generator R) (layers : Nat) (warm : Option (List R)) : Prop :=
  ∀ previous, warm = some previous → ∃ before, 1 ≤ before ∧ before < layers ∧
    previous.length = Ansatz.paramCount ⟨generator, before⟩

/-- Angles to go on from are those of the previous number of layers, unless this is the first. -/
def Previous (generator : Generator R) (layers : Nat) : Option (List R) → Prop
  | none => layers = 1
  | some previous => 1 < layers ∧
      previous.length = Ansatz.paramCount ⟨generator, layers - 1⟩

theorem checkVertices_eq_ok_iff {count : Nat} {optimizer : Optimizer} :
    checkVertices count optimizer = .ok () ↔
      (optimizer = .nelderMead → max 4 (2 ^ (count.log2 + 1)) * 24 < 2 ^ 63) := by
  cases optimizer with
  | adam => simp [checkVertices]
  | nelderMead =>
      rw [checkVertices, checkCapacity_eq_ok_iff]
      exact ⟨fun fits _ => fits, fun fits => fits rfl⟩

theorem checkAngles_fails (config : Config R) (ansatz : Ansatz R) (warm : Option (List R)) :
    FailsAs .outOfRange (checkAngles config ansatz warm) := by
  refine ansatz.countParams_fails.bind fun count => (checkCapacity_fails _ _).bind fun _ =>
    FailsAs.bind ?_ fun _ => ?_
  · cases warm with
    | none => exact .ok _ _
    | some previous => exact checkCapacity_fails _ _
  · cases config.optimizer with
    | adam => exact .ok _ _
    | nelderMead => exact checkCapacity_fails _ _

theorem Previous.earlier (previous : Previous generator layers warm) :
    Earlier generator layers warm := by
  rintro params rfl
  obtain ⟨more, length⟩ := previous
  exact ⟨layers - 1, by omega, by omega, length⟩

section Levels

variable (levels : 2 ≤ generator.dims.1 ∧ 2 ≤ generator.dims.2)

include levels

theorem checkAngles_eq (angles : Ansatz.paramCount ⟨generator, layers⟩ * 8 < 2 ^ 63) :
    checkAngles config ⟨generator, layers⟩ warm = (do
      checkWarm (Ansatz.paramCount ⟨generator, layers⟩) warm
      checkVertices (Ansatz.paramCount ⟨generator, layers⟩) config.optimizer) := by
  have fits : Ansatz.paramCount ⟨generator, layers⟩ < wordLimit := by
    simp only [wordLimit, Nat.pow_eq, Nat.reducePow]
    omega
  have room : checkCapacity (Ansatz.paramCount ⟨generator, layers⟩) numberBytes = .ok () :=
    checkCapacity_eq_ok_iff.mpr angles
  rw [checkAngles, Ansatz.countParams_of_lt levels fits, Outcome.ok_bind, room, Outcome.ok_bind]

theorem checkAngles_of_roomy (earlier : Earlier generator layers warm)
    (roomy : Roomy config generator layers) :
    checkAngles config ⟨generator, layers⟩ warm = .ok () := by
  rw [checkAngles_eq levels roomy.angles, Outcome.check_bind_eq_ok_iff]
  refine ⟨?_, checkVertices_eq_ok_iff.mpr roomy.vertices⟩
  cases warm with
  | none => rfl
  | some previous =>
      obtain ⟨before, one, below, length⟩ := earlier previous rfl
      have fewer : previous.length ≤ Ansatz.paramCount ⟨generator, layers - 1⟩ :=
        length ▸ Ansatz.paramCount_le (by omega)
      have smaller : grownCells previous.length (Ansatz.paramCount ⟨generator, layers⟩) ≤
          grownCells (Ansatz.paramCount ⟨generator, layers - 1⟩)
            (Ansatz.paramCount ⟨generator, layers⟩) :=
        max_le_max (Nat.mul_le_mul_left 2 fewer) (Nat.le_refl _)
      exact checkCapacity_eq_ok_iff.mpr
        (Nat.lt_of_le_of_lt (Nat.mul_le_mul_right 8 smaller) (roomy.grown (by omega)))

/-- Where the matrices of two qudits can be addressed, there is room for the angles of one layer. -/
theorem roomy_one (shared : generator.paramCount ≤ 2)
    (room : Operator.checkDim (generator.dims.1 * generator.dims.2) = .ok ()) :
    Roomy config generator 1 := by
  have few := Ansatz.paramCount_one_lt levels shared room
  have cells := rounded_up_le (by decide) few
  exact ⟨by omega, fun more => absurd more (Nat.lt_irrefl 1), fun _ => by omega⟩

end Levels

end Search
end QuditSynth
