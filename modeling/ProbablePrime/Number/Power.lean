/-
  ProbablePrime.Number.Power — powers in modular arithmetic.

  The exponent is read bit by bit from the top: each bit squares the power so far, and a bit that is
  set multiplies it by the base.
-/
import ProbablePrime.Number.Size

namespace ProbablePrime.Number

/-- Carries a power over the lowest `k` bits of the exponent. -/
def powModBits (base exponent modulus : Nat) : (k power : Nat) → Nat
  | 0, power => power
  | k + 1, power =>
    let square := power * power % modulus
    powModBits base exponent modulus k
      (if exponent.testBit k then square * base % modulus else square)

/-- The remainder of `base ^ exponent` by `modulus`. -/
def powMod (base exponent modulus : Nat) : Nat :=
  powModBits base exponent modulus (bitLength exponent) (1 % modulus)

end ProbablePrime.Number
