/-
  ProbablePrime.Proofs.Primality.StrongTest — what it means to pass a witness.

  A number passes a witness when the power of the witness to the odd part is one, or one of its
  squarings is minus one.  The loop that searches for minus one gives up at one; it misses nothing
  by that, for one only squares to itself.

  Main results:
    * `passesWitness_iff` — the test of one witness is the strong probable prime condition;
    * `StrongProbablePrime.of_prime` — a prime satisfies the condition for every witness that it
      does not divide.
-/
import Mathlib
import ProbablePrime.Number.Lemmas
import ProbablePrime.Primality.Lemmas
import ProbablePrime.Primality.MillerRabin

namespace ProbablePrime.Primality

open Number (powMod powMod_eq)

/-! ## §1. The search for minus one. -/

/-- A power of a remainder of a square is an even power. -/
theorem sq_mod_pow (n x i : Nat) : (x * x % n) ^ 2 ^ i % n = x ^ 2 ^ (i + 1) % n := by
  rw [← Nat.pow_mod, ← Nat.pow_two, ← Nat.pow_mul, Nat.pow_succ, Nat.mul_comm 2]

/-- **The search finds minus one exactly when one of the next `k` squarings is minus one.** -/
theorem reachesMinusOne_iff {n : Nat} (hn : 2 < n) (k x : Nat) :
    reachesMinusOne n k x = true ↔ ∃ i < k, x ^ 2 ^ (i + 1) % n = n - 1 := by
  induction k generalizing x with
  | zero => simp [reachesMinusOne]
  | succ k ih =>
    have hfirst : x ^ 2 ^ (0 + 1) % n = x * x % n := by
      rw [Nat.zero_add, Nat.pow_one, Nat.pow_two]
    rw [reachesMinusOne]
    split
    · next hminus =>
      exact ⟨fun _ => ⟨0, by omega, by rw [hfirst, hminus]⟩, fun _ => rfl⟩
    · next hminus =>
      split
      · next hone =>
        -- From one on, every squaring is one, so there is nothing to be found.
        constructor
        · intro h
          exact absurd h Bool.false_ne_true
        · intro h
          obtain ⟨i, -, hi⟩ := h
          exfalso
          cases i with
          | zero => exact hminus (hfirst ▸ hi)
          | succ i =>
            rw [← sq_mod_pow, hone, Nat.one_pow, Nat.mod_eq_of_lt (by omega)] at hi
            omega
      · rw [ih]
        constructor
        · intro h
          obtain ⟨i, hi, hroot⟩ := h
          exact ⟨i + 1, by omega, by rw [← sq_mod_pow, hroot]⟩
        · intro h
          obtain ⟨i, hi, hroot⟩ := h
          cases i with
          | zero => exact absurd (hfirst ▸ hroot) hminus
          | succ i => exact ⟨i, by omega, by rw [sq_mod_pow, hroot]⟩

/-! ## §2. Strong probable primes. -/

/-- To the base `a`, the number `n` with the given parts behaves like a prime: the odd power of `a`
is one, or one of its squarings is minus one. -/
def StrongProbablePrime (n : Nat) (parts : Decomposition) (a : Nat) : Prop :=
  a ^ parts.d % n = 1 ∨ ∃ i < parts.s, a ^ (parts.d * 2 ^ i) % n = n - 1

/-- **A witness is passed exactly when the number is a strong probable prime to that base.** -/
theorem passesWitness_iff {n : Nat} (hn : 2 < n) {parts : Decomposition} (hs : 0 < parts.s)
    (a : Nat) : passesWitness n parts a = true ↔ StrongProbablePrime n parts a := by
  have hsquare (i : Nat) :
      (a ^ parts.d % n) ^ 2 ^ (i + 1) % n = a ^ (parts.d * 2 ^ (i + 1)) % n := by
    rw [← Nat.pow_mod, ← Nat.pow_mul]
  rw [passesWitness]
  simp only [Bool.or_eq_true, decide_eq_true_eq, powMod_eq, reachesMinusOne_iff hn, hsquare]
  rw [StrongProbablePrime, or_assoc]
  -- The odd power itself is the squaring number zero, which the search does not make.
  refine or_congr_right ?_
  constructor
  · intro h
    rcases h with hminus | ⟨i, hi, hroot⟩
    · exact ⟨0, hs, by rw [Nat.pow_zero, Nat.mul_one, hminus]⟩
    · exact ⟨i + 1, by omega, hroot⟩
  · intro h
    obtain ⟨i, hi, hroot⟩ := h
    cases i with
    | zero => exact Or.inl (by rwa [Nat.pow_zero, Nat.mul_one] at hroot)
    | succ i => exact Or.inr ⟨i, by omega, hroot⟩

/-! ## §3. The condition among the residues. -/

theorem natCast_pow_eq_one_iff {n : Nat} (hn : 1 < n) (a k : Nat) :
    (a : ZMod n) ^ k = 1 ↔ a ^ k % n = 1 := by
  rw [← Nat.cast_pow, ← Nat.cast_one, ZMod.natCast_eq_natCast_iff', Nat.mod_eq_of_lt hn]

theorem natCast_pow_eq_neg_one_iff {n : Nat} (hn : 1 < n) (a k : Nat) :
    (a : ZMod n) ^ k = -1 ↔ a ^ k % n = n - 1 := by
  have hminus : ((n - 1 : Nat) : ZMod n) = -1 := by
    rw [Nat.cast_sub (by omega), ZMod.natCast_self, Nat.cast_one, zero_sub]
  rw [← Nat.cast_pow, ← hminus, ZMod.natCast_eq_natCast_iff',
    Nat.mod_eq_of_lt (show n - 1 < n by omega)]

theorem strongProbablePrime_iff_zmod {n : Nat} (hn : 1 < n) (parts : Decomposition) (a : Nat) :
    StrongProbablePrime n parts a
      ↔ (a : ZMod n) ^ parts.d = 1 ∨ ∃ i < parts.s, (a : ZMod n) ^ (parts.d * 2 ^ i) = -1 := by
  simp only [StrongProbablePrime, natCast_pow_eq_one_iff hn, natCast_pow_eq_neg_one_iff hn]

/-! ## §4. Primes. -/

/-- Where one has only itself and its negative as roots, repeated squaring arrives at one only from
one or by way of minus one. -/
theorem eq_one_or_exists_pow_eq_neg_one {R : Type} [CommRing R] [NoZeroDivisors R] (x : R) (s : Nat)
    (h : x ^ 2 ^ s = 1) : x = 1 ∨ ∃ i < s, x ^ 2 ^ i = -1 := by
  induction s with
  | zero => exact Or.inl (by rwa [pow_zero, pow_one] at h)
  | succ s ih =>
    rw [pow_succ, pow_mul, pow_two] at h
    rcases mul_self_eq_one_iff.1 h with hone | hminus
    · rcases ih hone with hx | ⟨i, hi, hx⟩
      · exact Or.inl hx
      · exact Or.inr ⟨i, by omega, hx⟩
    · exact Or.inr ⟨s, by omega, hminus⟩

/-- **A prime is a strong probable prime to every base that it does not divide.** -/
theorem StrongProbablePrime.of_prime {n : Nat} (hn : n.Prime) {parts : Decomposition}
    (hparts : Decomposition.Of n parts) {a : Nat} (ha : ¬ n ∣ a) :
    StrongProbablePrime n parts a := by
  have : Fact n.Prime := ⟨hn⟩
  have hne : (a : ZMod n) ≠ 0 := by
    rwa [Ne, ZMod.natCast_eq_zero_iff]
  have hfermat : ((a : ZMod n) ^ parts.d) ^ 2 ^ parts.s = 1 := by
    rw [← pow_mul, ← ZMod.pow_card_sub_one_eq_one hne]
    congr 1
    have := hparts.eq
    omega
  rw [strongProbablePrime_iff_zmod hn.one_lt]
  rcases eq_one_or_exists_pow_eq_neg_one _ _ hfermat with h | ⟨i, hi, h⟩
  · exact Or.inl h
  · exact Or.inr ⟨i, hi, by rwa [pow_mul]⟩

end ProbablePrime.Primality
