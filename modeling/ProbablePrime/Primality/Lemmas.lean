/-
  ProbablePrime.Primality.Lemmas — the parts of a number in terms of plain powers.

  Main results:
    * `oddPart_mul_two_pow` — the two parts of a number make it up;
    * `oddPart_odd` — the odd part of a positive number is odd;
    * `Decomposition.Of.of_decompose` — a decomposition makes up the number it was taken from;
    * `Decomposition.Of.decompose_eq` — no other parts make it up;
    * `decompose_eq_some_iff` — both in one statement;
    * `decompose_eq_none_iff` — only the numbers below two have none.
-/
import Mathlib
import ProbablePrime.Primality.Decomposition

namespace ProbablePrime.Primality

theorem oddPart_mul_two_pow (m : Nat) : oddPart m * 2 ^ twos m = m := by
  fun_induction oddPart m with
  | case1 m h ih =>
    rw [twos, if_pos h, Nat.pow_succ, ← Nat.mul_assoc, ih]
    omega
  | case2 m h => rw [twos, if_neg h]; simp

theorem oddPart_odd {m : Nat} (h : 0 < m) : oddPart m % 2 = 1 := by
  fun_induction oddPart m with
  | case1 m hm ih => exact ih (by omega)
  | case2 m hm => omega

/-- An odd number with factors of two has nothing but these to lose. -/
theorem oddPart_and_twos_of_odd {d : Nat} (hd : d % 2 = 1) (s : Nat) :
    oddPart (d * 2 ^ s) = d ∧ twos (d * 2 ^ s) = s := by
  induction s with
  | zero =>
    have hodd : ¬ (0 < d * 2 ^ 0 ∧ d * 2 ^ 0 % 2 = 0) := by
      rw [Nat.pow_zero, Nat.mul_one]
      omega
    rw [oddPart, twos, if_neg hodd, if_neg hodd, Nat.pow_zero, Nat.mul_one]
    exact ⟨rfl, rfl⟩
  | succ s ih =>
    have hdouble : d * 2 ^ (s + 1) = 2 * (d * 2 ^ s) := by
      rw [Nat.pow_succ, ← Nat.mul_assoc, Nat.mul_comm]
    have hpos : 0 < d * 2 ^ s := Nat.mul_pos (by omega) (Nat.two_pow_pos s)
    have heven : 0 < 2 * (d * 2 ^ s) ∧ 2 * (d * 2 ^ s) % 2 = 0 := by omega
    have hhalf : 2 * (d * 2 ^ s) / 2 = d * 2 ^ s := Nat.mul_div_cancel_left _ (by decide)
    obtain ⟨hpart, htwos⟩ := ih
    rw [oddPart, twos, hdouble, if_pos heven, if_pos heven, hhalf, hpart, htwos]
    exact ⟨rfl, rfl⟩

/-! ## Decompositions. -/

/-- The parts make up the predecessor of `n`, and the first is odd. -/
structure Decomposition.Of (n : Nat) (parts : Decomposition) : Prop where
  /-- The first part is odd. -/
  odd : parts.d % 2 = 1
  /-- The parts make up `n`. -/
  eq : n = parts.d * 2 ^ parts.s + 1

theorem Decomposition.Of.of_decompose {n : Nat} {parts : Decomposition}
    (h : decompose n = some parts) : Decomposition.Of n parts := by
  unfold decompose at h
  split at h
  · simp at h
  · obtain rfl := Option.some.inj h
    refine ⟨oddPart_odd (by omega), ?_⟩
    show n = oddPart (n - 1) * 2 ^ twos (n - 1) + 1
    rw [oddPart_mul_two_pow]
    omega

/-- The parts of a number are its decomposition: there are no others. -/
theorem Decomposition.Of.decompose_eq {n : Nat} {parts : Decomposition}
    (h : Decomposition.Of n parts) : decompose n = some parts := by
  obtain ⟨hpart, htwos⟩ := oddPart_and_twos_of_odd h.odd parts.s
  have hpos : 0 < parts.d * 2 ^ parts.s := by
    have := h.odd
    exact Nat.mul_pos (by omega) (Nat.two_pow_pos _)
  have hpred : n - 1 = parts.d * 2 ^ parts.s := by
    have := h.eq
    omega
  have htwo : ¬ n < 2 := by omega
  rw [decompose, if_neg htwo, hpred, hpart, htwos]

/-- The decomposition of a number is the one pair of parts that makes it up. -/
theorem decompose_eq_some_iff {n : Nat} {parts : Decomposition} :
    decompose n = some parts ↔ Decomposition.Of n parts :=
  ⟨Decomposition.Of.of_decompose, Decomposition.Of.decompose_eq⟩

theorem decompose_eq_none_iff {n : Nat} : decompose n = none ↔ n < 2 := by
  unfold decompose
  split
  · next h => exact iff_of_true rfl h
  · next h => exact iff_of_false (Option.some_ne_none _) h

/-- The predecessor of an odd number has a factor two. -/
theorem Decomposition.Of.s_pos {n : Nat} {parts : Decomposition} (h : Decomposition.Of n parts)
    (hn : n % 2 = 1) : 0 < parts.s := by
  rw [Nat.pos_iff_ne_zero]
  intro hs
  have hodd := h.odd
  have heq := h.eq
  rw [hs, Nat.pow_zero, Nat.mul_one] at heq
  omega

end ProbablePrime.Primality
