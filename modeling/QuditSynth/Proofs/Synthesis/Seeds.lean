import QuditSynth.Random.SeedStream
import QuditSynth.Register
import Mathlib.Data.Nat.ModEq

namespace QuditSynth

/-! # Seeds of restarts

The seed of a restart mixes the number of layers and the number of the restart
into a given seed, each times an odd factor. An odd factor has no common divisor
with the word size, so that nothing is lost modulo `2 ^ 64`: of two different
numbers of layers, and of two different restarts, the seeds are different.
-/

theorem coprime_wordLimit_of_odd {factor : Nat} (odd : factor % 2 = 1) :
    wordLimit.gcd factor = 1 := by
  apply Nat.Coprime.pow_left
  rw [Nat.Coprime, Nat.gcd_rec, odd]
  exact Nat.gcd_one_left 2

/-- Multiplying words by an odd factor can be undone. -/
theorem mul_right_inj_of_odd {factor : UInt64} (odd : factor.toNat % 2 = 1) {first second : UInt64} :
    first * factor = second * factor ↔ first = second := by
  refine ⟨fun same => ?_, fun same => by rw [same]⟩
  have products : first.toNat * factor.toNat % wordLimit = second.toNat * factor.toNat % wordLimit :=
    calc first.toNat * factor.toNat % wordLimit
      _ = (first * factor).toNat := (UInt64.toNat_mul first factor).symm
      _ = (second * factor).toNat := congrArg UInt64.toNat same
      _ = second.toNat * factor.toNat % wordLimit := UInt64.toNat_mul second factor
  have remainders : first.toNat % wordLimit = second.toNat % wordLimit :=
    Nat.ModEq.cancel_right_of_coprime (coprime_wordLimit_of_odd odd) products
  have firstFits : first.toNat < wordLimit := first.toNat_lt
  have secondFits : second.toNat < wordLimit := second.toNat_lt
  rw [Nat.mod_eq_of_lt firstFits, Nat.mod_eq_of_lt secondFits] at remainders
  exact UInt64.toNat_inj.mp remainders

theorem toUInt64_inj {first second : Nat} :
    first.toUInt64 = second.toUInt64 ↔ first % wordLimit = second % wordLimit := by
  have firstWord : first.toUInt64.toNat = first % wordLimit := UInt64.toNat_ofNat'
  have secondWord : second.toUInt64.toNat = second % wordLimit := UInt64.toNat_ofNat'
  rw [← UInt64.toNat_inj, firstWord, secondWord]

namespace SeedStream

/-- Restarts share a seed exactly if words cannot tell their numbers apart. -/
theorem restartSeed_restart_inj (seed : UInt64) (layers : Nat) {first second : Nat} :
    restartSeed seed layers first = restartSeed seed layers second ↔
      first % wordLimit = second % wordLimit := by
  rw [restartSeed, restartSeed, UInt64.xor_right_inj, mul_right_inj_of_odd (by decide),
    UInt64.add_left_inj, toUInt64_inj]

theorem restartSeed_layers_inj (seed : UInt64) (restart : Nat) {first second : Nat} :
    restartSeed seed first restart = restartSeed seed second restart ↔
      first % wordLimit = second % wordLimit := by
  rw [restartSeed, restartSeed, UInt64.xor_left_inj, UInt64.xor_right_inj,
    mul_right_inj_of_odd (by decide), toUInt64_inj]

/-- Different restarts for one number of layers have different seeds, and so has one restart for
different numbers of layers. -/
theorem restart_seeds_distinct (seed : UInt64) :
    (∀ layers first second, first < wordLimit - 1 → second < wordLimit - 1 → first ≠ second →
      restartSeed seed layers first ≠ restartSeed seed layers second) ∧
    (∀ restart first second, first < wordLimit → second < wordLimit → first ≠ second →
      restartSeed seed first restart ≠ restartSeed seed second restart) := by
  constructor
  · intro layers first second firstFits secondFits different same
    rw [restartSeed_restart_inj, Nat.mod_eq_of_lt (Nat.lt_of_lt_pred firstFits),
      Nat.mod_eq_of_lt (Nat.lt_of_lt_pred secondFits)] at same
    exact different same
  · intro restart first second firstFits secondFits different same
    rw [restartSeed_layers_inj, Nat.mod_eq_of_lt firstFits, Nat.mod_eq_of_lt secondFits] at same
    exact different same

theorem restart_seeds_distinct_extreme :
    restartSeed 1 3 0 ≠ restartSeed 1 3 18446744073709551614 ∧
      restartSeed 1 0 18446744073709551615 ≠
        restartSeed 1 18446744073709551615 18446744073709551615 :=
  ⟨(restart_seeds_distinct 1).1 3 0 18446744073709551614 (by decide) (by decide) (by decide),
    (restart_seeds_distinct 1).2 18446744073709551615 0 18446744073709551615 (by decide)
      (by decide) (by decide)⟩

/-- With few layers and restarts, no two of all the seeds are the same. -/
example : ((List.range 4).flatMap fun layers =>
    (List.range 4).map (restartSeed 1 layers)).Nodup := by decide

end SeedStream
end QuditSynth
