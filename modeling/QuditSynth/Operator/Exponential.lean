import QuditSynth.Operator
import QuditSynth.Scalar.Double

namespace QuditSynth

/-! # Operator exponentials

Gates generated by an interaction need the exponential of an operator. It is a
class of its own: `Operator.taylorExp` is the way it is computed, and exact
readings of gates may supply the exponential itself.
-/

/-- A choice of exponential for operators over a scalar type. -/
class Exponential (R : Type) where
  exp : Operator R → Operator R
  dim_exp : ∀ u, (exp u).dim = u.dim

namespace Operator

variable {R : Type} [Scalar R]

/-- The largest row sum of entry lengths. -/
def rowNorm (u : Operator R) : R :=
  u.dim.fold (fun row _ largest =>
    Scalar.larger largest (u.dim.fold (fun col _ total => total + (u.entry row col).norm) 0)) 0

/-- The terms of the exponential series are summed until they vanish, but no more than these. -/
def taylorTerms : Nat := 30

/-- A term has vanished when all its entries are shorter than this. -/
def taylorCutoff : R := 1e-18

/-- Adds further terms of the series, from the given order on. -/
def taylorSum (u : Operator R) : Nat → Nat → Operator R → Operator R → Operator R
  | 0, _, _, total => total
  | remaining + 1, order, term, total =>
      let next := (term * u).map (·.divide (Scalar.ofNat order))
      let total := total + next
      if next.cells.all fun cell => decide (cell.norm < taylorCutoff) then total
      else taylorSum u remaining (order + 1) next total

/-- How often the operator is halved before its series is summed. -/
def squarings (u : Operator R) : Nat :=
  let norm := u.rowNorm
  if 0.5 < norm then Scalar.ceilLog2 (norm / 0.5) else 0

/-- Squares an operator repeatedly. -/
def squareTimes : Nat → Operator R → Operator R
  | 0, u => u
  | count + 1, u => squareTimes count (u * u)

/-- The exponential by scaling, a truncated series and repeated squaring. -/
def taylorExp (u : Operator R) : Operator R :=
  let halvings := u.squarings
  let small := u.map (·.divide (Scalar.pow Scalar.two halvings))
  let one := identity u.dim
  squareTimes halvings (taylorSum small taylorTerms 1 one one)

theorem taylorSum_dim (u : Operator R) (remaining order : Nat) (term total : Operator R) :
    (taylorSum u remaining order term total).dim = total.dim := by
  induction remaining generalizing order term total with
  | zero => rfl
  | succ remaining ih =>
      simp only [taylorSum]
      split
      · rfl
      · rw [ih]
        rfl

theorem squareTimes_dim (count : Nat) (u : Operator R) : (squareTimes count u).dim = u.dim := by
  induction count generalizing u with
  | zero => rfl
  | succ count ih => exact ih (u * u)

theorem taylorExp_dim (u : Operator R) : u.taylorExp.dim = u.dim := by
  simp only [taylorExp, squareTimes_dim, taylorSum_dim]
  rfl

end Operator

/-- The exponential as it is computed. -/
@[reducible]
def Exponential.taylor {R : Type} [Scalar R] : Exponential R where
  exp := Operator.taylorExp
  dim_exp := Operator.taylorExp_dim

instance : Exponential Float := .taylor

end QuditSynth
