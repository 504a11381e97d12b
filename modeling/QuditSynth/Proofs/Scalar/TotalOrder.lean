import QuditSynth.Proofs.Scalar.Comparable
import QuditSynth.Proofs.Scalar.Numbers

namespace QuditSynth.Double

open Float.Model Float.Model.UnpackedFloat

/-! # The total order of doubles

The bits behind the sign of a double grow with its magnitude, so that the line on
which all doubles are placed by their bits has the numbers in their own order.
-/

theorem totalKey_inj {x y : Float} : totalKey x = totalKey y ↔ x = y := by
  constructor
  · intro same
    have bits : x.toBits = y.toBits := by
      have half : Nat.pow 2 63 = 9223372036854775808 := rfl
      have whole : Nat.pow 2 64 = 18446744073709551616 := rfl
      have xBits := x.toBits.toNat_lt
      have yBits := y.toBits.toNat_lt
      apply UInt64.toNat_inj.mp
      simp only [totalKey, half, whole] at same
      split_ifs at same <;> omega
    obtain ⟨⟨_, _⟩⟩ := x
    obtain ⟨⟨_, _⟩⟩ := y
    cases bits
    rfl
  · exact congrArg totalKey

theorem toNat_unpackExponent (bits : BitVec 64) :
    (@unpackExponent Format.binary64 bits).toNat = bits.toNat / 2 ^ 52 % 2 ^ 11 := by
  change (BitVec.extractLsb 62 52 bits).toNat = _
  simp [Nat.shiftRight_eq_div_pow]

theorem toNat_unpackMantissa (bits : BitVec 64) :
    (@unpackMantissa Format.binary64 bits).toNat = bits.toNat % 2 ^ 52 := by
  change (BitVec.extractLsb 51 0 bits).toNat = _
  simp

theorem toNat_unpackSign (bits : BitVec 64) :
    (@unpackSign Format.binary64 bits).toNat = bits.toNat / 2 ^ 63 % 2 := by
  change (BitVec.extractLsb 63 63 bits).toNat = _
  simp [Nat.shiftRight_eq_div_pow]

/-- The side on which a double stands is told by its uppermost bit. -/
def side (bits : ℕ) : Sign := if bits < 2 ^ 63 then .positive else .negative

theorem sign_unpackSign (bits : BitVec 64) :
    Sign.ofBitVec (@unpackSign Format.binary64 bits) = side bits.toNat := by
  have bound := bits.isLt
  have upper := toNat_unpackSign bits
  by_cases low : bits.toNat < 2 ^ 63
  · have clear : @unpackSign Format.binary64 bits = 0#1 := BitVec.eq_of_toNat_eq (by
      rw [upper, Nat.div_eq_of_lt low]
      rfl)
    rw [side, if_pos low, clear]
    rfl
  · have set : @unpackSign Format.binary64 bits ≠ 0#1 := by
      intro clear
      rw [clear] at upper
      simp at upper
      omega
    rw [side, if_neg low, Sign.ofBitVec, if_neg set]

/-- What a sign and the bits behind it stand for. -/
inductive Stands (sign : Sign) (magnitude : ℕ) : UnpackedFloat → Prop
  | undefined : Stands sign magnitude .notANumber
  | zero (none : magnitude = 0) : Stands sign magnitude (.zero sign)
  | infinity (full : magnitude = 2047 * 2 ^ 52) : Stands sign magnitude (.infinity sign)
  | finite {mantissa : ℕ} {exponent : ℤ} {positive : 0 < mantissa}
      (sum : (magnitude : ℤ) = (exponent + 1074) * 2 ^ 52 + mantissa) (low : -1074 ≤ exponent)
      (high : exponent ≤ 971) (digits : mantissa < 2 ^ 53)
      (normal : exponent = -1074 ∨ 2 ^ 52 ≤ mantissa) :
      Stands sign magnitude (.finite sign mantissa exponent positive)

theorem stands_unpack (bits : BitVec 64) :
    Stands (side bits.toNat) (bits.toNat % 2 ^ 63)
      (UnpackedFloat.unpack Format.binary64 bits) := by
  have exponent := toNat_unpackExponent bits
  have mantissa := toNat_unpackMantissa bits
  have bias : (Format.binary64.exponentBias : ℤ) +
      Format.binary64.mantissaBitsWithoutImplicit = 1075 := rfl
  unfold UnpackedFloat.unpack
  dsimp only
  rw [sign_unpackSign]
  by_cases large : @unpackExponent Format.binary64 bits = (-1#11 : BitVec 11)
  · rw [if_pos large]
    have full : (-1#11 : BitVec 11).toNat = 2047 := rfl
    rw [large, full] at exponent
    by_cases none : @unpackMantissa Format.binary64 bits = (0#52 : BitVec 52)
    · rw [if_pos none]
      rw [none, BitVec.toNat_zero] at mantissa
      exact .infinity (by omega)
    · rw [if_neg none]
      exact .undefined
  · rw [if_neg large]
    by_cases small : @unpackExponent Format.binary64 bits = (0#11 : BitVec 11)
    · rw [if_pos small]
      rw [small, BitVec.toNat_zero] at exponent
      by_cases none : @unpackMantissa Format.binary64 bits = (0#52 : BitVec 52)
      · rw [dif_pos none]
        rw [none, BitVec.toNat_zero] at mantissa
        exact .zero (by omega)
      · rw [dif_neg none, small, BitVec.toNat_zero, bias]
        refine .finite ?_ (by decide) (by decide) ?_ (Or.inl (by decide))
        all_goals omega
    · rw [if_neg small, bias]
      have digits : (1#1 ++ @unpackMantissa Format.binary64 bits).toNat =
          2 ^ 52 + bits.toNat % 2 ^ 52 := by
        rw [BitVec.toNat_append, mantissa,
          ← Nat.shiftLeft_add_eq_or_of_lt (Nat.mod_lt _ (by decide))]
        rfl
      have least : (@unpackExponent Format.binary64 bits).toNat ≠ 0 :=
        fun zero => small (BitVec.eq_of_toNat_eq zero)
      have most : (@unpackExponent Format.binary64 bits).toNat ≠ 2047 :=
        fun full => large (BitVec.eq_of_toNat_eq full)
      refine .finite ?_ ?_ ?_ ?_ (Or.inr ?_)
      all_goals omega

/-- Where a sign and the bits behind it are placed. -/
def line : Sign → ℕ → ℤ
  | .positive, magnitude => magnitude
  | .negative, magnitude => -1 - magnitude

theorem totalKey_eq (x : Float) :
    (totalKey x : ℤ) = 2 ^ 63 + line (side x.toBits.toNat) (x.toBits.toNat % 2 ^ 63) := by
  have half : Nat.pow 2 63 = 2 ^ 63 := rfl
  have whole : Nat.pow 2 64 = 2 ^ 64 := rfl
  have bound := x.toBits.toNat_lt
  simp only [totalKey, half, whole, side]
  by_cases low : x.toBits.toNat < 2 ^ 63
  · rw [if_pos low, if_pos low]
    dsimp only [line]
    omega
  · rw [if_neg low, if_neg low]
    dsimp only [line]
    omega

theorem line_lt_of_place_lt {u v : UnpackedFloat} {s t : Sign} {a b : ℕ}
    (uStands : Stands s a u) (vStands : Stands t b v) (uNumber : u ≠ .notANumber)
    (vNumber : v ≠ .notANumber) (below : place u < place v) : line s a < line t b := by
  -- Of two finite numbers the one with the higher exponent is normal, so that its mantissa is more
  -- than half of any other.
  cases uStands <;> cases vStands <;>
    first
    | exact absurd rfl uNumber
    | exact absurd rfl vNumber
    | cases s <;> cases t <;> dsimp only [place, line] at below ⊢ <;>
        simp only [Prod.Lex.toLex_lt_toLex] at below <;> omega

theorem totalKey_lt_of_lt {x y : Float} (below : x < y) : totalKey x < totalKey y := by
  obtain ⟨xNumber, yNumber, placed⟩ := lt_iff.mp below
  have ahead := line_lt_of_place_lt (stands_unpack x.toBits.toBitVec)
    (stands_unpack y.toBits.toBitVec) (isNumber_eq_true_iff.mp xNumber)
    (isNumber_eq_true_iff.mp yNumber) placed
  rw [← Int.ofNat_lt, totalKey_eq, totalKey_eq]
  exact Int.add_lt_add_left ahead _

/-! ## Doubles compared -/

theorem isNumber_of_isFinite {x : Float} (finite : Scalar.isFinite x = true) :
    Scalar.isNumber x = true := by
  cases number : Scalar.isNumber x with
  | true => rfl
  | false =>
      have undefined : (x - x).toModel.unpack = .notANumber :=
        isNumber_eq_false_iff.mp (undefined_sub (Or.inl number))
      change ((x - x).toModel.unpack.compare (0 : Float).toModel.unpack == some .eq) = true at finite
      rw [compare_undefined (Or.inl undefined)] at finite
      cases finite

theorem le_of_le_of_le {x y z : Float} (first : x ≤ y) (second : y ≤ z) : x ≤ z := by
  obtain ⟨xNumber, _, xy⟩ := le_iff.mp first
  obtain ⟨_, zNumber, yz⟩ := le_iff.mp second
  exact le_iff.mpr ⟨xNumber, zNumber, xy.trans yz⟩

theorem totalLe_iff {x y : Float} : Scalar.totalLe x y = true ↔ totalKey x ≤ totalKey y :=
  decide_eq_true_iff

theorem ranked : Scalar.Ranked Float where
  beq_self _ := isNumber_of_isFinite
  le_refl _ finite :=
    le_iff.mpr ⟨isNumber_of_isFinite finite, isNumber_of_isFinite finite, le_refl _⟩
  le_of_lt _ _ _ _ below := by
    obtain ⟨xNumber, yNumber, placed⟩ := lt_iff.mp below
    exact le_iff.mpr ⟨xNumber, yNumber, placed.le⟩
  le_of_not_lt _ _ xFinite yFinite :=
    le_of_not_lt (isNumber_of_isFinite xFinite) (isNumber_of_isFinite yFinite)
  le_trans _ _ _ _ _ _ := le_of_le_of_le
  le_bound _ _ _ := le_of_le_of_le
  totalLe_total x y := by
    rw [totalLe_iff, totalLe_iff]
    exact le_total _ _
  totalLe_trans x y z := by
    simp only [totalLe_iff]
    exact le_trans
  le_of_totalLe x y xFinite yFinite sorted := by
    apply le_of_not_lt (isNumber_of_isFinite yFinite) (isNumber_of_isFinite xFinite)
    intro below
    exact (totalKey_lt_of_lt below).not_ge (totalLe_iff.mp sorted)

end QuditSynth.Double
