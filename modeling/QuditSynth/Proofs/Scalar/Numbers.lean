import Mathlib.Data.Prod.Lex
import QuditSynth.Proofs.Operator.Unitarity
import QuditSynth.Scalar.Double

namespace QuditSynth.Double

open Float.Model Float.Model.UnpackedFloat

/-! # Doubles that are numbers

Doubles that are numbers stand on a line, by their sign, then by exponent and
digits. What is not a number is on neither side of anything, and stays what it
is under every operation.
-/

/-! ## The order of numbers -/

/-- Where a number stands on the line. -/
def place : UnpackedFloat → ℤ ×ₗ ℤ ×ₗ ℤ
  | .infinity .negative => toLex (-2, toLex (0, 0))
  | .finite .negative mantissa exponent _ => toLex (-1, toLex (-exponent, -mantissa))
  | .zero _ | .notANumber => toLex (0, toLex (0, 0))
  | .finite .positive mantissa exponent _ => toLex (1, toLex (exponent, mantissa))
  | .infinity .positive => toLex (2, toLex (0, 0))

theorem compare_cast (m n : ℕ) : compare (m : ℤ) n = compare m n := by
  simp [Int.compare_eq_ite_lt, Nat.compare_eq_ite_lt]

theorem compare_neg_neg (m n : ℤ) : compare (-m) (-n) = (compare m n).swap := by
  simp only [Int.compare_eq_ite_lt, neg_lt_neg_iff]
  split_ifs
  · omega
  all_goals rfl

theorem compare_above (m : ℕ) (e : ℤ) (n : ℕ) (f : ℤ) : (compare e f).then (compare m n) =
    compare (toLex ((1 : ℤ), toLex (e, (m : ℤ)))) (toLex (1, toLex (f, (n : ℤ)))) := by
  rw [← compare_cast]
  rfl

theorem compare_below (m : ℕ) (e : ℤ) (n : ℕ) (f : ℤ) :
    ((compare e f).then (compare m n)).swap =
      compare (toLex ((-1 : ℤ), toLex (-e, -(m : ℤ)))) (toLex (-1, toLex (-f, -(n : ℤ)))) := by
  rw [Ordering.swap_then, ← compare_cast, ← compare_neg_neg, ← compare_neg_neg]
  rfl

section Unpacked

variable {u v : UnpackedFloat}

theorem compare_place (uNumber : u ≠ .notANumber) (vNumber : v ≠ .notANumber) :
    u.compare v = some (compare (place u) (place v)) := by
  -- Only two finite numbers of the same sign are not told apart by the first component.
  rcases u with ⟨⟨⟩⟩ | _ | _ | ⟨⟨⟩, m, e, _⟩ <;> rcases v with ⟨⟨⟩⟩ | _ | _ | ⟨⟨⟩, n, f, _⟩ <;>
    first
    | contradiction
    | rfl
    | exact congrArg some (compare_below m e n f)
    | exact congrArg some (compare_above m e n f)

theorem compare_undefined (either : u = .notANumber ∨ v = .notANumber) : u.compare v = none := by
  rcases either with rfl | rfl
  · rfl
  · cases u <;> rfl

theorem lt_iff_place : u.lt v = true ↔
    u ≠ .notANumber ∧ v ≠ .notANumber ∧ place u < place v := by
  by_cases numbers : u = .notANumber ∨ v = .notANumber
  · rw [UnpackedFloat.lt, compare_undefined numbers]
    grind
  · rw [not_or] at numbers
    simp [UnpackedFloat.lt, compare_place numbers.1 numbers.2, numbers, compare_lt_iff_lt]

theorem le_iff_place : u.le v = true ↔
    u ≠ .notANumber ∧ v ≠ .notANumber ∧ place u ≤ place v := by
  by_cases numbers : u = .notANumber ∨ v = .notANumber
  · rw [UnpackedFloat.le, compare_undefined numbers]
    grind
  · rw [not_or] at numbers
    simp [UnpackedFloat.le, compare_place numbers.1 numbers.2, numbers, Ordering.isLE_iff_ne_gt,
      compare_le_iff_le]

theorem beq_self_iff : u.beq u = true ↔ u ≠ .notANumber := by
  change (u.compare u == some .eq) = true ↔ _
  by_cases undefined : u = .notANumber
  · rw [compare_undefined (Or.inl undefined)]
    exact iff_of_false Bool.false_ne_true (not_not.mpr undefined)
  · rw [compare_place undefined undefined, compare_eq_iff_eq.mpr rfl]
    exact iff_of_true rfl undefined

end Unpacked

section Order

variable {x y z : Float}

theorem isNumber_eq_true_iff : Scalar.isNumber x = true ↔ x.toModel.unpack ≠ .notANumber :=
  beq_self_iff

theorem lt_iff : x < y ↔ Scalar.isNumber x = true ∧ Scalar.isNumber y = true ∧
    place x.toModel.unpack < place y.toModel.unpack := by
  rw [isNumber_eq_true_iff, isNumber_eq_true_iff, ← lt_iff_place]
  exact decide_eq_true_iff

theorem le_iff : x ≤ y ↔ Scalar.isNumber x = true ∧ Scalar.isNumber y = true ∧
    place x.toModel.unpack ≤ place y.toModel.unpack := by
  rw [isNumber_eq_true_iff, isNumber_eq_true_iff, ← le_iff_place]
  exact decide_eq_true_iff

theorem le_of_not_lt (xNumber : Scalar.isNumber x = true) (yNumber : Scalar.isNumber y = true)
    (above : ¬ x < y) : y ≤ x := by
  refine le_iff.mpr ⟨yNumber, xNumber, not_lt.mp fun below => ?_⟩
  exact above (lt_iff.mpr ⟨xNumber, yNumber, below⟩)

theorem ordered : Scalar.Ordered Float where
  zero := rfl
  number_of_lt _ _ below := (lt_iff.mp below).2.1
  lt_trans _ _ _ first second := by
    obtain ⟨xNumber, _, xy⟩ := lt_iff.mp first
    obtain ⟨_, zNumber, yz⟩ := lt_iff.mp second
    exact lt_iff.mpr ⟨xNumber, zNumber, xy.trans yz⟩
  lt_of_not_lt _ _ _ xNumber yNumber above below := by
    obtain ⟨_, zNumber, xz⟩ := lt_iff.mp below
    obtain ⟨_, _, yx⟩ := le_iff.mp (le_of_not_lt xNumber yNumber above)
    exact lt_iff.mpr ⟨yNumber, zNumber, yx.trans_lt xz⟩

/-- What is cut off at zero is never below zero. -/
theorem zero_le_larger (x : Float) : 0 ≤ Scalar.larger x 0 := by
  cases number : Scalar.isNumber x with
  | false =>
      rw [Scalar.larger_of_undefined number]
      decide
  | true =>
      rcases Scalar.larger_cases (y := 0) number with ⟨_, same⟩ | ⟨above, same⟩
      · rw [same]
        decide
      · rw [same]
        exact le_of_not_lt number ordered.zero above

end Order

/-! ## What is not a number -/

theorem isNumber_eq_false_iff {x : Float} :
    Scalar.isNumber x = false ↔ x.toModel.unpack = .notANumber := by
  rw [← not_iff_not, Bool.not_eq_false, isNumber_eq_true_iff]

theorem unpack_pack_undefined : (Float.Model.pack .notANumber).unpack = .notANumber := by
  rfl

/-- Every operation on doubles is done on what they stand for. If that keeps what is not a number,
so does the operation. -/
theorem undefined_of_kept {operation : UnpackedFloat → UnpackedFloat → UnpackedFloat}
    (left : ∀ v, operation .notANumber v = .notANumber)
    (right : ∀ u, operation u .notANumber = .notANumber) {x y : Float}
    (either : Scalar.isNumber x = false ∨ Scalar.isNumber y = false) :
    Scalar.isNumber (Float.ofModel (.pack (operation x.toModel.unpack y.toModel.unpack))) =
      false := by
  simp only [isNumber_eq_false_iff] at either ⊢
  rcases either with first | second
  · rw [first, left, unpack_pack_undefined]
  · rw [second, right, unpack_pack_undefined]

section Operations

variable {x y : Float}

theorem undefined_add (either : Scalar.isNumber x = false ∨ Scalar.isNumber y = false) :
    Scalar.isNumber (x + y) = false :=
  undefined_of_kept (fun _ => rfl) (fun u => by cases u <;> rfl) either

theorem undefined_sub (either : Scalar.isNumber x = false ∨ Scalar.isNumber y = false) :
    Scalar.isNumber (x - y) = false :=
  undefined_of_kept (fun _ => rfl) (fun u => by cases u <;> rfl) either

theorem undefined_mul (either : Scalar.isNumber x = false ∨ Scalar.isNumber y = false) :
    Scalar.isNumber (x * y) = false :=
  undefined_of_kept (fun _ => rfl) (fun u => by cases u <;> rfl) either

theorem undefined_div (either : Scalar.isNumber x = false ∨ Scalar.isNumber y = false) :
    Scalar.isNumber (x / y) = false :=
  undefined_of_kept (fun _ => rfl) (fun u => by cases u <;> rfl) either

theorem undefined_abs (undefined : Scalar.isNumber x = false) :
    Scalar.isNumber x.abs = false := by
  rw [isNumber_eq_false_iff] at undefined ⊢
  change (Float.Model.pack x.toModel.unpack.abs).unpack = _
  rw [undefined]
  rfl

theorem not_isInf_of_undefined (undefined : Scalar.isNumber x = false) : x.isInf = false := by
  change x.toModel.unpack.isInf = false
  rw [isNumber_eq_false_iff.mp undefined]
  rfl

theorem isNaN_of_undefined (undefined : Scalar.isNumber x = false) : x.isNaN = true := by
  change x.toModel.unpack.isNaN = true
  rw [isNumber_eq_false_iff.mp undefined]
  rfl

/-- A length is defined if one of the legs is infinite, but not if both are no numbers. -/
theorem undefined_hypot (first : Scalar.isNumber x = false) (second : Scalar.isNumber y = false) :
    Scalar.isNumber (hypot x y) = false := by
  have a := undefined_abs first
  have b := undefined_abs second
  have apart : ¬ x.abs < y.abs := by
    intro below
    rw [lt_iff, a] at below
    exact Bool.false_ne_true below.1
  simp only [hypot, not_isInf_of_undefined a, not_isInf_of_undefined b, isNaN_of_undefined a,
    apart, Bool.or_self, Bool.or_true, Bool.true_or, if_true, if_false, Bool.false_eq_true]
  exact undefined_add (Or.inl a)

end Operations
end QuditSynth.Double
