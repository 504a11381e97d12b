import Mathlib.Algebra.Order.Group.Int
import Mathlib.Algebra.Ring.Int.Defs
import Mathlib.Algebra.Ring.Nat

namespace QuditSynth.Double

open Float.Model Float.Model.UnpackedFloat

/-! # Finite doubles

Which operations on doubles stay finite. A result is rounded to 53 bits, which
moves its exponent by one at most, and it is packed as an infinity only if its
exponent is beyond that of every double.
-/

/-! ## Rounding -/

/-- The exponent of a number of 53 bits in the place of a given one, before a carry. -/
def roundedExponent (mantissa : Nat) (exponent : Int) : Int :=
  max exponent (max (totalExponent mantissa exponent - 53) (-1074))

theorem mantissa_shiftRight (extended : ExtendedMantissa) (amount : Nat) :
    (extended >>> amount).mantissa = extended.mantissa / 2 ^ amount := by
  induction amount with
  | zero => exact (Nat.div_one _).symm
  | succ amount ih =>
      change (extended >>> amount).mantissa / 2 = _
      rw [ih, Nat.div_div_eq_div_mul, Nat.pow_succ]

theorem roundedMantissa_bounds (extended : ExtendedMantissa) :
    extended.mantissa ≤ extended.roundedMantissa ∧
      extended.roundedMantissa ≤ extended.mantissa + 1 := by
  obtain ⟨mantissa, roundBit, stickyBit⟩ := extended
  cases roundBit <;> cases stickyBit <;>
    simp only [ExtendedMantissa.roundedMantissa, ExtendedMantissa.accuracy,
      Accuracy.roundToNearestEven] <;> omega

theorem mantissa_ofMantissaAndAccuracy (mantissa : Nat) (accuracy : Accuracy) :
    (ExtendedMantissa.ofMantissaAndAccuracy mantissa accuracy).mantissa = mantissa := by
  unfold ExtendedMantissa.ofMantissaAndAccuracy
  split <;> rfl

theorem exponent_shiftToTargetExponent (mantissa : Nat) (exponent : Int) (accuracy : Accuracy) :
    (shiftToTargetExponent Format.binary64 mantissa exponent accuracy).2 =
      roundedExponent mantissa exponent := by
  change exponent +
    ((max (totalExponent mantissa exponent - 53) (-1074) - exponent).toNat : Int) = _
  unfold roundedExponent
  omega

theorem mantissa_shiftToTargetExponent (mantissa : Nat) (exponent : Int) (accuracy : Accuracy) :
    (shiftToTargetExponent Format.binary64 mantissa exponent accuracy).1.mantissa =
      mantissa / 2 ^ (roundedExponent mantissa exponent - exponent).toNat := by
  change (ExtendedMantissa.ofMantissaAndAccuracy mantissa accuracy >>>
    (max (totalExponent mantissa exponent - 53) (-1074) - exponent).toNat).mantissa = _
  rw [mantissa_shiftRight, mantissa_ofMantissaAndAccuracy]
  congr 2
  unfold roundedExponent
  omega

theorem div_roundedExponent_lt (mantissa : Nat) (exponent : Int) :
    mantissa / 2 ^ (roundedExponent mantissa exponent - exponent).toNat < 2 ^ 53 := by
  rw [Nat.div_lt_iff_lt_mul (Nat.two_pow_pos _), ← Nat.pow_add]
  refine Nat.lt_of_lt_of_le Nat.lt_log2_self (Nat.pow_le_pow_right Nat.zero_lt_two ?_)
  unfold roundedExponent totalExponent
  omega

/-- Nothing is left to round, unless there is a carry. -/
theorem roundedExponent_small {mantissa : Nat} {exponent : Int} (small : mantissa < 2 ^ 53)
    (high : -1074 ≤ exponent) : roundedExponent mantissa exponent = exponent := by
  have bits : mantissa.log2 ≤ 52 := by
    by_cases zero : mantissa = 0
    · simp [zero]
    · exact Nat.lt_succ_iff.mp ((Nat.log2_lt zero).mpr small)
  unfold roundedExponent totalExponent
  omega

theorem roundedExponent_carry {exponent : Int} (high : -1074 ≤ exponent) :
    roundedExponent (2 ^ 53) exponent = exponent + 1 := by
  unfold roundedExponent totalExponent
  rw [Nat.log2_two_pow]
  omega

section Rounding

variable (sign : Sign) (mantissa : Nat) (exponent : Int) (accuracy : Accuracy)

theorem roundWithAccuracy_eq {digits final : Nat} {place : Int}
    (rounded : (shiftToTargetExponent Format.binary64 mantissa exponent
      accuracy).1.roundedMantissa = digits)
    (finalIs : digits / 2 ^ (roundedExponent digits (roundedExponent mantissa exponent) -
      roundedExponent mantissa exponent).toNat = final)
    (placeIs : roundedExponent digits (roundedExponent mantissa exponent) = place) :
    roundWithAccuracy Format.binary64 sign mantissa exponent accuracy =
      if zero : final = 0 then .zero sign
      else .finite sign final place (Nat.pos_of_ne_zero zero) := by
  have first := exponent_shiftToTargetExponent mantissa exponent accuracy
  -- Rounding may carry, so the digits are shifted a second time.
  let second := shiftToTargetExponent Format.binary64 digits
    (shiftToTargetExponent Format.binary64 mantissa exponent accuracy).2 .exact
  have digitsLeft : second.1.mantissa = final := by
    rw [mantissa_shiftToTargetExponent, first, finalIs]
  have placeLeft : second.2 = place := by
    rw [exponent_shiftToTargetExponent, first, placeIs]
  subst rounded digitsLeft placeLeft
  rfl

/-- What rounding can give: zero, the digits that fit or their successor, or a carry. -/
theorem roundWithAccuracy_cases :
    let place := roundedExponent mantissa exponent
    let kept := mantissa / 2 ^ (place - exponent).toNat
    let rounded := roundWithAccuracy Format.binary64 sign mantissa exponent accuracy
    kept = 0 ∧ rounded = .zero sign ∨
    (∃ digits positive, kept ≤ digits ∧ digits < 2 ^ 53 ∧
      rounded = .finite sign digits place positive) ∨
    ∃ positive, rounded = .finite sign (2 ^ 52) (place + 1) positive := by
  intro place kept rounded
  have keptSmall : kept < 2 ^ 53 := div_roundedExponent_lt mantissa exponent
  have high : -1074 ≤ place := le_max_of_le_right (le_max_right _ _)
  have bounds := roundedMantissa_bounds
    (shiftToTargetExponent Format.binary64 mantissa exponent accuracy).1
  rw [mantissa_shiftToTargetExponent] at bounds
  obtain ⟨least, most⟩ := bounds
  generalize digitsAre : (shiftToTargetExponent Format.binary64 mantissa exponent
    accuracy).1.roundedMantissa = digits at least most
  rcases Nat.lt_or_eq_of_le (Nat.le_trans most keptSmall) with small | carry
  · have stays : roundedExponent digits place = place := roundedExponent_small small high
    have whole : digits / 2 ^ (roundedExponent digits place - place).toNat = digits := by
      rw [stays, Int.sub_self]
      exact Nat.div_one digits
    have result : rounded = _ :=
      roundWithAccuracy_eq sign mantissa exponent accuracy digitsAre whole stays
    by_cases zero : digits = 0
    · rw [dif_pos zero] at result
      exact .inl ⟨Nat.eq_zero_of_le_zero (zero ▸ least), result⟩
    · rw [dif_neg zero] at result
      exact .inr (.inl ⟨digits, Nat.pos_of_ne_zero zero, least, small, result⟩)
  · have moves : roundedExponent digits place = place + 1 := by
      rw [carry, roundedExponent_carry high]
    have half : digits / 2 ^ (roundedExponent digits place - place).toNat = 2 ^ 52 := by
      rw [moves, carry, add_sub_cancel_left]
      rfl
    have result : rounded = _ :=
      roundWithAccuracy_eq sign mantissa exponent accuracy digitsAre half moves
    exact .inr (.inr ⟨Nat.two_pow_pos 52, result⟩)

end Rounding

/-! ## Packing -/

/-- Zero, or a number of 53 bits whose exponent is at most the limit. -/
inductive Fits (limit : Int) : UnpackedFloat → Prop
  | zero {sign : Sign} : Fits limit (.zero sign)
  | finite {sign : Sign} {mantissa : Nat} {exponent : Int} {positive : 0 < mantissa}
      (digits : mantissa < 2 ^ 53) (place : exponent ≤ limit) :
      Fits limit (.finite sign mantissa exponent positive)

theorem Fits.isFinite {limit : Int} {u : UnpackedFloat} (fits : Fits limit u) :
    u.isFinite = true := by
  cases fits <;> rfl

theorem Fits.mono {lower higher : Int} (ordered : lower ≤ higher) {u : UnpackedFloat}
    (fits : Fits lower u) : Fits higher u := by
  cases fits with
  | zero => exact .zero
  | finite digits place => exact .finite digits (Int.le_trans place ordered)

theorem Fits.neg {limit : Int} {u : UnpackedFloat} (fits : Fits limit u) : Fits limit u.neg := by
  cases fits with
  | zero => exact .zero
  | finite digits place => exact .finite digits place

theorem fits_roundWithAccuracy (sign : Sign) (mantissa : Nat) (exponent : Int)
    (accuracy : Accuracy) : Fits (roundedExponent mantissa exponent + 1)
      (roundWithAccuracy Format.binary64 sign mantissa exponent accuracy) := by
  rcases roundWithAccuracy_cases sign mantissa exponent accuracy with
    ⟨_, zero⟩ | ⟨digits, _, _, small, kept⟩ | ⟨_, carried⟩
  · rw [zero]
    exact .zero
  · rw [kept]
    exact .finite small (Int.le_add_one (Int.le_refl _))
  · rw [carried]
    exact .finite (by decide) (Int.le_refl _)

/-- Bits whose exponent is not that of the infinities are those of a finite number. -/
theorem fits_unpack (bits : BitVec Format.binary64.numBits)
    (finite : unpackExponent bits ≠ (-1#11 : BitVec 11)) :
    Fits (max 1 (unpackExponent bits).toNat - 1075)
      (UnpackedFloat.unpack Format.binary64 bits) := by
  have mantissa : (unpackMantissa bits).toNat < 2 ^ 52 := (unpackMantissa bits).isLt
  unfold UnpackedFloat.unpack
  dsimp only
  rw [if_neg finite]
  by_cases zero : unpackExponent bits = 0#11
  · rw [if_pos zero]
    by_cases none : unpackMantissa bits = 0#52
    · rw [dif_pos none]
      exact .zero
    · rw [dif_neg none]
      refine .finite (by omega) ?_
      rw [zero]
      decide
  · rw [if_neg zero]
    refine .finite ?_ ?_
    · exact (1#1 ++ unpackMantissa bits).isLt
    · change ((unpackExponent bits).toNat : Int) - 1075 ≤ _
      omega

theorem fits_packComponents {limit : Int} (sign : Sign) (exponent : BitVec 11)
    (mantissa : BitVec 52) (low : -1074 ≤ limit) (high : limit ≤ 971)
    (place : (exponent.toNat : Int) - 1075 ≤ limit) :
    Fits limit (UnpackedFloat.unpack Format.binary64
      (packComponents Format.binary64 sign exponent mantissa)) := by
  have exponentIs : unpackExponent (packComponents Format.binary64 sign exponent mantissa) =
      exponent := unpackExponent_packComponents
  have finite : exponent ≠ -1#11 := by
    rintro rfl
    have : (-1#11 : BitVec 11).toNat = 2047 := rfl
    omega
  refine (fits_unpack _ (by rw [exponentIs]; exact finite)).mono ?_
  rw [exponentIs]
  omega

/-- A number that fits keeps fitting when it is packed. -/
theorem Fits.pack {limit : Int} (low : -1074 ≤ limit) (high : limit ≤ 971) {u : UnpackedFloat}
    (fits : Fits limit u) : Fits limit (Float.Model.pack u).unpack := by
  change Fits limit (UnpackedFloat.unpack Format.binary64 (UnpackedFloat.pack Format.binary64 u))
  cases fits with
  | @zero sign => exact fits_packComponents sign 0 0 low high (by simp; omega)
  | @finite sign mantissa exponent positive digits place =>
      have biased : (exponent + 1023 + 52).toNat ≤ 2046 := by omega
      have inRange : ¬ 2 ^ 11 ≤ (exponent + 1023 + 52).toNat + 1 := by omega
      unfold UnpackedFloat.pack
      refine (congrArg (fun bits => Fits limit (UnpackedFloat.unpack Format.binary64 bits))
        (if_neg inRange)).mpr ?_
      split
      · refine fits_packComponents sign _ _ low high ?_
        rw [BitVec.toNat_ofNat]
        change (((exponent + 1023 + 52).toNat % 2 ^ 11 : Nat) : Int) - 1075 ≤ limit
        omega
      · exact fits_packComponents sign 0 _ low high (by simp; omega)

/-- A number beyond the largest exponent becomes infinite. -/
theorem isInf_pack {sign : Sign} {mantissa : Nat} {exponent : Int} (positive : 0 < mantissa)
    (beyond : 971 < exponent) :
    (Float.Model.pack (.finite sign mantissa exponent positive)).isInf = true := by
  have overflow : 2 ^ 11 ≤ (exponent + 1023 + 52).toNat + 1 := by omega
  have infinite : UnpackedFloat.pack Format.binary64 (.finite sign mantissa exponent positive) =
      packedInfinity Format.binary64 sign := if_pos overflow
  change (UnpackedFloat.unpack Format.binary64 (UnpackedFloat.pack Format.binary64 _)).isInf = true
  rw [infinite]
  cases sign <;> rfl

theorem isFinite_or_isInf_pack {limit : Int} {u : UnpackedFloat} (fits : Fits limit u) :
    (Float.Model.pack u).isFinite = true ∨ (Float.Model.pack u).isInf = true := by
  cases fits with
  | @zero sign => exact .inl (Fits.zero.pack (by decide) (by decide) : Fits 0 _).isFinite
  | @finite sign mantissa exponent positive digits place =>
      rcases Int.lt_or_le 971 exponent with beyond | within
      · exact .inr (isInf_pack positive beyond)
      · have : Fits 971 (.finite sign mantissa exponent positive) := .finite digits within
        exact .inl (this.pack (by decide) (by decide)).isFinite

theorem fits_of_isFinite (bits : BitVec Format.binary64.numBits)
    (finite : (UnpackedFloat.unpack Format.binary64 bits).isFinite = true) :
    Fits 971 (UnpackedFloat.unpack Format.binary64 bits) := by
  have notSpecial : unpackExponent bits ≠ (-1#11 : BitVec 11) := by
    intro special
    unfold UnpackedFloat.unpack at finite
    dsimp only at finite
    rw [if_pos special] at finite
    split at finite <;> cases finite
  have differs : (unpackExponent bits).toNat ≠ (-1#11 : BitVec 11).toNat :=
    fun same => notSpecial (BitVec.eq_of_toNat_eq same)
  have below : (unpackExponent bits).toNat < 2 ^ 11 := (unpackExponent bits).isLt
  have largest : (-1#11 : BitVec 11).toNat = 2047 := rfl
  refine (fits_unpack bits notSpecial).mono ?_
  omega

/-! ## Operations -/

variable {x y : Float}

theorem fits_toModel (finite : x.isFinite = true) : Fits 971 x.toModel.unpack :=
  fits_of_isFinite x.toModel.toBits.toBitVec finite

theorem isFinite_neg (finite : x.isFinite = true) : (-x).isFinite = true :=
  ((fits_toModel finite).neg.pack (by decide) (by decide)).isFinite

theorem roundedExponent_le {mantissa width : Nat} (exponent : Int) (small : mantissa < 2 ^ width) :
    roundedExponent mantissa exponent ≤ max exponent (max (width + exponent - 52) (-1074)) := by
  have bits : mantissa.log2 ≤ width := by
    by_cases zero : mantissa = 0
    · simp [zero]
    · exact ((Nat.log2_lt zero).mpr small).le
  unfold roundedExponent totalExponent
  omega

theorem Fits.mul {first second : Int} {u v : UnpackedFloat} (left : Fits first u)
    (right : Fits second v) :
    Fits (max (first + second + 54) (-1074) + 1) (UnpackedFloat.mul Format.binary64 u v) := by
  cases left with
  | zero => cases right <;> exact .zero
  | @finite _ m e _ digits place =>
      cases right with
      | zero => exact .zero
      | @finite _ n f _ otherDigits otherPlace =>
          have product : m * n < 2 ^ 106 := calc
            m * n < 2 ^ 53 * 2 ^ 53 := Nat.mul_lt_mul'' digits otherDigits
            _ = 2 ^ 106 := by decide
          have bound := roundedExponent_le (e + f) product
          exact (fits_roundWithAccuracy _ _ _ _).mono (by omega)

theorem isFinite_or_isInf_mul (finite : x.isFinite = true) (other : y.isFinite = true) :
    (x * y).isFinite = true ∨ (x * y).isInf = true :=
  isFinite_or_isInf_pack ((fits_toModel finite).mul (fits_toModel other))

/-- The place of the leading digit, for numbers that have one. -/
def leading? : UnpackedFloat → Option Int
  | .finite _ mantissa exponent _ => some (totalExponent mantissa exponent)
  | _ => none

/-- Whether a double is finite and has a magnitude of two or more. -/
def atLeastTwo (x : Float) : Bool := (leading? x.toModel.unpack).any (2 ≤ ·)

theorem atLeastTwo_iff :
    atLeastTwo x = true ↔ ∃ place, leading? x.toModel.unpack = some place ∧ 2 ≤ place := by
  simp [atLeastTwo, Option.any_eq_true]

theorem isFinite_of_atLeastTwo (large : atLeastTwo x = true) : x.isFinite = true := by
  obtain ⟨place, leads, _⟩ := atLeastTwo_iff.mp large
  change x.toModel.unpack.isFinite = true
  generalize x.toModel.unpack = u at leads
  cases u with
  | finite => rfl
  | _ => cases leads

theorem log2_div_le {num den shift : Nat} (divisor : den ≠ 0)
    (quotient : (num <<< shift) / den ≠ 0) :
    ((num <<< shift) / den).log2 + den.log2 ≤ num.log2 + shift := by
  have product : 2 ^ (((num <<< shift) / den).log2 + den.log2) < 2 ^ (num.log2 + shift + 1) := calc
    2 ^ (((num <<< shift) / den).log2 + den.log2)
      = 2 ^ ((num <<< shift) / den).log2 * 2 ^ den.log2 := Nat.pow_add ..
    _ ≤ (num <<< shift) / den * den :=
      Nat.mul_le_mul (Nat.log2_self_le quotient) (Nat.log2_self_le divisor)
    _ ≤ num <<< shift := Nat.div_mul_le_self ..
    _ = num * 2 ^ shift := Nat.shiftLeft_eq ..
    _ < 2 ^ (num.log2 + 1) * 2 ^ shift :=
      Nat.mul_lt_mul_of_pos_right Nat.lt_log2_self (Nat.two_pow_pos shift)
    _ = 2 ^ (num.log2 + shift + 1) := by rw [← Nat.pow_add, Nat.add_right_comm]
  exact Nat.lt_succ_iff.mp ((Nat.pow_lt_pow_iff_right (by decide)).mp product)

/-- The exponent of a rounded quotient, for a divisor from two on. -/
theorem roundedExponent_divCore_lt {m n : Nat} {e f : Int} (digits : m < 2 ^ 53) (place : e ≤ 971)
    (divisor : n ≠ 0) (large : 2 ≤ totalExponent n f) :
    let core := divCore Format.binary64 m e n f
    roundedExponent core.1 core.2.1 < 971 := by
  have bits : m.log2 ≤ 52 := by
    by_cases zero : m = 0
    · simp [zero]
    · exact Nat.lt_succ_iff.mp ((Nat.log2_lt zero).mpr digits)
  obtain ⟨target, targetIs⟩ : ∃ target, target =
    min (e - f) (max (totalExponent m e - totalExponent n f - 53) (-1074)) := ⟨_, rfl⟩
  obtain ⟨quotient, quotientIs⟩ : ∃ quotient, quotient =
    (m <<< (e - f - target).toNat) / n := ⟨_, rfl⟩
  have bound : quotient ≠ 0 → quotient.log2 + n.log2 ≤ m.log2 + (e - f - target).toNat := by
    rw [quotientIs]
    exact log2_div_le divisor
  have core : (divCore Format.binary64 m e n f).1 = quotient ∧
      (divCore Format.binary64 m e n f).2.1 = target := by
    rw [quotientIs, targetIs]
    exact ⟨rfl, rfl⟩
  dsimp only
  rw [core.1, core.2]
  unfold roundedExponent
  unfold totalExponent at *
  by_cases zero : quotient = 0
  · rw [zero, Nat.log2_zero]
    omega
  · have bound := bound zero
    omega

theorem isFinite_div (finite : x.isFinite = true) (large : atLeastTwo y = true) :
    (x / y).isFinite = true := by
  have dividend := fits_toModel finite
  obtain ⟨place, divisor, large⟩ := atLeastTwo_iff.mp large
  change (Float.Model.pack (UnpackedFloat.div Format.binary64 x.toModel.unpack
    y.toModel.unpack)).unpack.isFinite = true
  generalize x.toModel.unpack = u at dividend
  generalize y.toModel.unpack = v at divisor
  cases v with
  | infinity | notANumber | zero => cases divisor
  | finite ySign n f nPositive =>
      cases divisor
      cases dividend with
      | zero => exact (Fits.zero.pack (by decide) (by decide) : Fits 0 _).isFinite
      | @finite sign m e positive digits place =>
          have rounded := roundedExponent_divCore_lt digits place nPositive.ne' large
          exact ((fits_roundWithAccuracy ..).mono rounded |>.pack (by decide) (by decide)).isFinite

/-! ## Whole numbers -/

theorem fits_ofNat {n : Nat} (small : n < 2 ^ 53) :
    Fits 2 (UnpackedFloat.ofNat Format.binary64 n) := by
  rcases Nat.eq_zero_or_pos n with rfl | positive
  · exact .zero
  · let shift := (0 - Format.binary64.targetExponent (totalExponent n 0)).toNat
    have compared : compare (n : Int) 0 = .gt := Int.compare_eq_gt.mpr (by omega)
    have shifted : n <<< shift < 2 ^ (53 + shift) := by
      rw [Nat.shiftLeft_eq, Nat.pow_add]
      exact Nat.mul_lt_mul_of_pos_right small (Nat.two_pow_pos shift)
    have bound := roundedExponent_le (0 - shift) shifted
    unfold UnpackedFloat.ofNat UnpackedFloat.ofInt UnpackedFloat.normalize
    rw [compared]
    exact (fits_roundWithAccuracy .positive (n <<< shift) (0 - shift) .exact).mono (by omega)

theorem ofScientific_eq {n power : Nat} (nonzero : n ≠ 0) (moderate : power ≤ 2048) :
    UnpackedFloat.ofScientific Format.binary64 n power =
      roundWithAccuracy Format.binary64 .positive (n <<< 53 * 10 ^ power) (-53) .exact := by
  have notHuge : ¬ ((power : Int) > 2 ^ Format.binary64.exponentBits) := by
    change ¬ ((power : Int) > 2 ^ 11)
    omega
  have notTiny : ¬ ((power : Int) < -((2 ^ Format.binary64.exponentBits : Int) + n.log2)) := by
    change ¬ ((power : Int) < -((2 ^ 11 : Int) + n.log2))
    omega
  rw [UnpackedFloat.ofScientific, dif_neg nonzero, if_neg notHuge, if_neg notTiny,
    if_pos (Int.natCast_nonneg power)]
  rfl

theorem isFinite_ofScientific {n : Nat} (small : n < 2 ^ 64) :
    (Float.ofScientific n false 0).isFinite = true := by
  unfold Float.ofScientific
  split
  · next exact =>
    have word : n.toUInt64.toNat = n := Nat.mod_eq_of_lt small
    have factor : Fits 2 (n.toUInt64.toFloat).toModel.unpack := by
      have unpacked := fits_ofNat exact.1
      rw [← word] at unpacked
      exact unpacked.pack (by decide) (by decide)
    have one : Fits 0 (Float.ofBits 0x3FF0000000000000).toModel.unpack := by
      have unpacked : (Float.ofBits 0x3FF0000000000000).toModel.unpack =
        .finite .positive (2 ^ 52) (-52) (Nat.two_pow_pos 52) := by rfl
      rw [unpacked]
      exact .finite (by decide) (by decide)
    exact (((factor.mul one).mono (by decide)).pack (by decide) (by decide) : Fits 971 _).isFinite
  · next large =>
    have nonzero : n ≠ 0 := by
      rintro rfl
      exact large (by decide)
    have product : n <<< 53 * 10 ^ 0 < 2 ^ 117 := by
      rw [Nat.pow_zero, Nat.mul_one, Nat.shiftLeft_eq]
      omega
    have bound := roundedExponent_le (-53) product
    have rounded : Fits 971 (UnpackedFloat.ofScientific Format.binary64 n (0 : Nat)) := by
      rw [ofScientific_eq nonzero (by decide)]
      exact (fits_roundWithAccuracy ..).mono (by omega)
    exact (rounded.pack (by decide) (by decide)).isFinite

/-! ## Powers of ten -/

theorem leading?_unpack (bits : BitVec Format.binary64.numBits)
    (finite : unpackExponent bits ≠ (-1#11 : BitVec 11))
    (normal : unpackExponent bits ≠ (0#11 : BitVec 11)) :
    leading? (UnpackedFloat.unpack Format.binary64 bits) =
      some (((unpackExponent bits).toNat : Int) - 1022) := by
  have full : (1#1 ++ unpackMantissa bits).toNat.log2 = 52 := by
    have most : (1#1 ++ unpackMantissa bits).toNat < 2 ^ 53 := (1#1 ++ unpackMantissa bits).isLt
    have least : 2 ^ 52 ≤ (1#1 ++ unpackMantissa bits).toNat := by
      rw [BitVec.toNat_append]
      exact Nat.left_le_or
    exact (Nat.log2_eq_iff (by omega)).mpr ⟨least, most⟩
  unfold UnpackedFloat.unpack
  dsimp only
  rw [if_neg finite, if_neg normal]
  change some (((1#1 ++ unpackMantissa bits).toNat.log2 : Int) + 1 +
    (((unpackExponent bits).toNat : Int) - 1075)) = _
  rw [full]
  congr 1
  omega

/-- A number of exactly 53 bits keeps its exponent when it is packed. -/
theorem leading?_pack {sign : Sign} {mantissa : Nat} {exponent : Int} (positive : 0 < mantissa)
    (least : 2 ^ 52 ≤ mantissa) (most : mantissa < 2 ^ 53) (low : -1074 ≤ exponent)
    (high : exponent ≤ 971) :
    leading? (Float.Model.pack (.finite sign mantissa exponent positive)).unpack =
      some (53 + exponent) := by
  let biased := (exponent + 1023 + 52).toNat
  have inRange : ¬ 2 ^ 11 ≤ biased + 1 := by omega
  have full : mantissa.log2 + 1 = 53 := by
    rw [(Nat.log2_eq_iff positive.ne').mpr ⟨least, most⟩]
  have packed : UnpackedFloat.pack Format.binary64 (.finite sign mantissa exponent positive) =
      packComponents Format.binary64 sign (BitVec.ofNat 11 biased) (BitVec.ofNat 52 mantissa) :=
    (if_neg inRange).trans (if_pos full)
  have exponentIs : unpackExponent (packComponents Format.binary64 sign (BitVec.ofNat 11 biased)
      (BitVec.ofNat 52 mantissa)) = BitVec.ofNat 11 biased := unpackExponent_packComponents
  have biasedIs : (BitVec.ofNat 11 biased).toNat = biased := Nat.mod_eq_of_lt (by omega)
  change leading? (UnpackedFloat.unpack Format.binary64 (UnpackedFloat.pack Format.binary64 _)) = _
  rw [packed, leading?_unpack, exponentIs, biasedIs]
  · congr 1
    omega
  · rw [exponentIs]
    intro special
    have : biased = 2047 := by rw [← biasedIs, special]; rfl
    omega
  · rw [exponentIs]
    intro zero
    have : biased = 0 := by rw [← biasedIs, zero]; rfl
    omega

/-- A number of more than 53 bits is rounded at its own place. -/
theorem leading?_roundWithAccuracy (sign : Sign) (mantissa : Nat) (exponent : Int)
    (accuracy : Accuracy) (wide : 53 ≤ mantissa.log2)
    (low : -1021 ≤ totalExponent mantissa exponent)
    (high : totalExponent mantissa exponent ≤ 1023) :
    ∃ place, totalExponent mantissa exponent ≤ place ∧
      leading? (Float.Model.pack (roundWithAccuracy Format.binary64 sign mantissa exponent
        accuracy)).unpack = some place := by
  have placeIs : roundedExponent mantissa exponent = totalExponent mantissa exponent - 53 := by
    unfold roundedExponent totalExponent at *
    omega
  have shiftIs : (roundedExponent mantissa exponent - exponent).toNat = mantissa.log2 - 52 := by
    unfold totalExponent at placeIs
    omega
  have kept : 2 ^ 52 ≤ mantissa / 2 ^ (roundedExponent mantissa exponent - exponent).toNat := by
    have nonzero : mantissa ≠ 0 := by
      rintro rfl
      simp at wide
    rw [Nat.le_div_iff_mul_le (Nat.two_pow_pos _), ← Nat.pow_add, shiftIs,
      Nat.add_sub_of_le (by omega)]
    exact Nat.log2_self_le nonzero
  rcases roundWithAccuracy_cases sign mantissa exponent accuracy with
    ⟨none, _⟩ | ⟨digits, positive, least, most, rounded⟩ | ⟨positive, rounded⟩
  · omega
  · rw [rounded, leading?_pack positive (Nat.le_trans kept least) most (by omega) (by omega)]
    exact ⟨_, by omega, rfl⟩
  · rw [rounded, leading?_pack positive (Nat.le_refl _) (by decide) (by omega) (by omega)]
    exact ⟨_, by omega, rfl⟩

theorem atLeastTwo_ofScientific {power : Nat} (least : 23 ≤ power) (most : power ≤ 307) :
    atLeastTwo (Float.ofScientific 1 false power) = true := by
  have lower : 2 ^ 55 ≤ 1 <<< 53 * 10 ^ power := calc
    2 ^ 55 ≤ 1 <<< 53 * 10 ^ 23 := by decide
    _ ≤ 1 <<< 53 * 10 ^ power := Nat.mul_le_mul_left _ (Nat.pow_le_pow_right (by decide) least)
  obtain ⟨width, widthIs⟩ : ∃ width, width = 1075 := ⟨_, rfl⟩
  have upper : 1 <<< 53 * 10 ^ power < 2 ^ width := calc
    1 <<< 53 * 10 ^ power ≤ 1 <<< 53 * 10 ^ 307 :=
      Nat.mul_le_mul_left _ (Nat.pow_le_pow_right (by decide) most)
    _ < 2 ^ width := by
      rw [widthIs]
      decide +kernel
  have nonzero : 1 <<< 53 * 10 ^ power ≠ 0 := by omega
  have wide : 55 ≤ (1 <<< 53 * 10 ^ power).log2 := (Nat.le_log2 nonzero).mpr lower
  have narrow : (1 <<< 53 * 10 ^ power).log2 < width := (Nat.log2_lt nonzero).mpr upper
  -- powers up to 22 are products of exact doubles, the others are rounded once
  have slow : ¬ (1 < 2 ^ 53 ∧ power ≤ 22) := by omega
  have direct : (Float.ofScientific 1 false power).toModel =
      Float.Model.pack (UnpackedFloat.ofScientific Format.binary64 1 power) := by
    rw [Float.ofScientific, dif_neg slow]
    rfl
  have total : totalExponent (1 <<< 53 * 10 ^ power) (-53) =
      (1 <<< 53 * 10 ^ power).log2 - 52 := by
    unfold totalExponent
    omega
  obtain ⟨place, exceeds, leads⟩ := leading?_roundWithAccuracy .positive (1 <<< 53 * 10 ^ power)
    (-53) .exact (by omega) (by omega) (by omega)
  rw [atLeastTwo_iff, direct, ofScientific_eq (by decide) (by omega)]
  exact ⟨place, leads, by omega⟩

end QuditSynth.Double
