/-
  ProbablePrime.Number.Lemmas — sizes and modular powers in terms of plain powers.

  Main results:
    * `bitLength_le_iff` — a number has at most `k` bits exactly when it is below `2 ^ k`;
    * `bitLength_bounds` and `decimalDigits_bounds` — what the two lengths of a number say about it;
    * `bitLength_or` and `bitLength_mul` — the size of a number with bits set, and of a product;
    * `powMod_eq` — the modular power is the remainder of the power of natural numbers.
-/
import Mathlib
import ProbablePrime.Number.Power

namespace ProbablePrime.Number

/-! ## §1. Sizes. -/

/-- A number fits in `k` bits exactly when its length is at most `k`. -/
theorem bitLength_le_iff {n k : Nat} : bitLength n ≤ k ↔ n < 2 ^ k := by
  unfold bitLength
  split
  · next h => exact ⟨fun _ => h ▸ Nat.two_pow_pos k, fun _ => Nat.zero_le k⟩
  · next h => exact Nat.succ_le_iff.trans (Nat.log2_lt h)

theorem lt_two_pow_bitLength (n : Nat) : n < 2 ^ bitLength n := bitLength_le_iff.1 le_rfl

theorem bitLength_eq_succ_iff {n k : Nat} :
    bitLength n = k + 1 ↔ 2 ^ k ≤ n ∧ n < 2 ^ (k + 1) := by
  have hhigh := bitLength_le_iff (n := n) (k := k + 1)
  have hlow := bitLength_le_iff (n := n) (k := k)
  omega

theorem bitLength_eq_iff {n bits : Nat} (hbits : bits ≠ 0) :
    bitLength n = bits ↔ 2 ^ (bits - 1) ≤ n ∧ n < 2 ^ bits := by
  obtain ⟨k, rfl⟩ := Nat.exists_eq_succ_of_ne_zero hbits
  exact bitLength_eq_succ_iff

/-- A number lies between the powers of two that its length names; only zero has no length. -/
theorem bitLength_bounds (n : Nat) :
    n < 2 ^ bitLength n ∧ (n = 0 ∧ bitLength n = 0 ∨ 2 ^ (bitLength n - 1) ≤ n) := by
  refine ⟨bitLength_le_iff.1 le_rfl, ?_⟩
  cases hbits : bitLength n with
  | zero =>
    have hlt := bitLength_le_iff.1 hbits.le
    exact Or.inl ⟨by omega, rfl⟩
  | succ k => exact Or.inr (bitLength_eq_succ_iff.1 hbits).1

/-- A number lies between the powers of ten that the count of its digits names; zero has one digit. -/
theorem decimalDigits_bounds (n : Nat) :
    1 ≤ decimalDigits n ∧ n < 10 ^ decimalDigits n
      ∧ (n = 0 ∧ decimalDigits n = 1 ∨ 10 ^ (decimalDigits n - 1) ≤ n) := by
  have hle_iff {k : Nat} (hk : 0 < k) : decimalDigits n ≤ k ↔ n < 10 ^ k :=
    Nat.length_toDigits_le_iff (by decide) hk
  have hpositive : 1 ≤ decimalDigits n := Nat.length_toDigits_pos
  refine ⟨hpositive, (hle_iff hpositive).1 le_rfl, ?_⟩
  by_cases hone : decimalDigits n = 1
  · rw [hone, Nat.sub_self, pow_zero]
    omega
  · right
    have hshort := hle_iff (k := decimalDigits n - 1) (by omega)
    omega

theorem bitLength_shiftLeft_one (k : Nat) : bitLength (1 <<< k) = k + 1 := by
  rw [bitLength_eq_succ_iff, Nat.one_shiftLeft]
  exact ⟨le_rfl, Nat.pow_lt_pow_succ (by decide)⟩

/-- Setting bits below the highest bit does not make a number longer. -/
theorem bitLength_or {m n : Nat} (h : bitLength n ≤ bitLength m) :
    bitLength (m ||| n) = bitLength m := by
  apply Nat.le_antisymm
  · rw [bitLength_le_iff]
    exact Nat.or_lt_two_pow (bitLength_le_iff.1 le_rfl) (bitLength_le_iff.1 h)
  · rw [bitLength_le_iff]
    exact Nat.lt_of_le_of_lt Nat.left_le_or (bitLength_le_iff.1 le_rfl)

/-- The product of two numbers of the same size is twice as long, or one bit shorter than that. -/
theorem bitLength_mul {m n k : Nat} (hm : bitLength m = k + 1) (hn : bitLength n = k + 1) :
    bitLength (m * n) = 2 * k + 1 ∨ bitLength (m * n) = 2 * k + 2 := by
  obtain ⟨hmlow, hmhigh⟩ := bitLength_eq_succ_iff.1 hm
  obtain ⟨hnlow, hnhigh⟩ := bitLength_eq_succ_iff.1 hn
  have hlow : 2 ^ (2 * k) ≤ m * n := by
    calc 2 ^ (2 * k) = 2 ^ k * 2 ^ k := by ring
      _ ≤ m * n := Nat.mul_le_mul hmlow hnlow
  have hhigh : m * n < 2 ^ (2 * k + 2) := by
    calc m * n < 2 ^ (k + 1) * 2 ^ (k + 1) := Nat.mul_lt_mul'' hmhigh hnhigh
      _ = 2 ^ (2 * k + 2) := by ring
  -- Which of the two it is depends on whether the product reaches the next power of two.
  rcases Nat.lt_or_ge (m * n) (2 ^ (2 * k + 1)) with hlt | hge
  · exact Or.inl (bitLength_eq_succ_iff.2 ⟨hlow, hlt⟩)
  · exact Or.inr (bitLength_eq_succ_iff.2 ⟨hge, hhigh⟩)

/-! ## §2. Modular powers. -/

/-- What the lowest `k` bits make of a power that is a remainder already. -/
theorem powModBits_eq (base exponent modulus k : Nat) {power : Nat}
    (hpower : power % modulus = power) :
    powModBits base exponent modulus k power
      = power ^ 2 ^ k * base ^ (exponent % 2 ^ k) % modulus := by
  induction k generalizing power with
  | zero => simp [powModBits, Nat.mod_one, hpower]
  | succ k ih =>
    have hbits : exponent % 2 ^ (k + 1)
        = exponent % 2 ^ k + 2 ^ k * (exponent.testBit k).toNat := by
      rw [Nat.toNat_testBit, Nat.pow_succ, Nat.mod_mul]
    have hsquare : power ^ 2 ^ (k + 1) = (power * power) ^ 2 ^ k := by
      rw [← Nat.pow_two, ← Nat.pow_mul, Nat.pow_succ, Nat.mul_comm]
    have hmod (a b : Nat) :
        (a % modulus) ^ 2 ^ k * b % modulus = a ^ 2 ^ k * b % modulus := by
      rw [Nat.mul_mod, ← Nat.pow_mod, ← Nat.mul_mod]
    rw [powModBits, hbits, hsquare]
    cases exponent.testBit k with
    | false => simp [ih, hmod]
    | true =>
      simp only [if_true, Bool.toNat_true, Nat.mul_one, Nat.pow_add]
      rw [ih (by simp), hmod, Nat.mul_pow, Nat.mul_assoc, hmod, Nat.mul_comm (base ^ 2 ^ k)]

theorem powMod_eq (base exponent modulus : Nat) :
    powMod base exponent modulus = base ^ exponent % modulus := by
  have hlt : exponent < 2 ^ bitLength exponent := bitLength_le_iff.1 (Nat.le_refl _)
  have hone (k b : Nat) : (1 % modulus) ^ k * b % modulus = b % modulus := by
    rw [Nat.mul_mod, ← Nat.pow_mod, ← Nat.mul_mod, Nat.one_pow, Nat.one_mul]
  rw [powMod, powModBits_eq _ _ _ _ (by simp), Nat.mod_eq_of_lt hlt, hone]

end ProbablePrime.Number
