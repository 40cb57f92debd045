/-
  ProbablePrime.Proofs.Primality.Sieve — the sieve finds exactly the primes.

  When the walk reaches `i`, the table marks exactly the numbers that a prime below `i` crosses out:
  its multiples from its square on.  One turn keeps that up, so every number is marked or not as it
  should be when the walk comes to it.

  Main results:
    * `sieve_eq_filter` — the sieve lists the primes below its limit in ascending order;
    * `hasSmallFactor_iff` — trial division finds exactly the proper small prime divisors.
-/
import Mathlib
import ProbablePrime.Primality.Sieve

namespace ProbablePrime.Primality

/-! ## §1. What one sweep marks. -/

/-- A sweep adds the marks of an arithmetic progression and takes none away. -/
theorem markFrom_getElem {limit : Nat} (step : Nat) (step_pos : 0 < step)
    (marked : Vector Bool limit) (m j : Nat) (hj : j < limit) :
    (markFrom step step_pos marked m)[j] = true
      ↔ marked[j] = true ∨ m ≤ j ∧ step ∣ j - m := by
  fun_induction markFrom step step_pos marked m with
  | case1 marked m h ih =>
    rw [ih, Vector.getElem_set]
    by_cases hmj : m = j
    · subst hmj
      simp
    · rw [if_neg hmj]
      -- A place other than `m` that lies a multiple of `step` past it lies past `m + step` too.
      have hshift : m + step ≤ j ∧ step ∣ j - (m + step) ↔ m ≤ j ∧ step ∣ j - m := by
        constructor
        · intro h
          obtain ⟨hle, hdvd⟩ := h
          refine ⟨by omega, ?_⟩
          rw [show j - m = j - (m + step) + step by omega]
          exact Nat.dvd_add_self_right.2 hdvd
        · intro h
          obtain ⟨hle, hdvd⟩ := h
          have hfar : step ≤ j - m := Nat.le_of_dvd (by omega) hdvd
          refine ⟨by omega, ?_⟩
          rw [show j - (m + step) = j - m - step by omega]
          exact Nat.dvd_sub hdvd (Nat.dvd_refl step)
      rw [hshift]
  | case2 marked m h =>
    constructor
    · intro hold
      exact Or.inl hold
    · intro h
      rcases h with hold | hnew
      · exact hold
      · omega

/-! ## §2. The invariant of the walk. -/

/-- The primes below `i` have marked their multiples from their squares on, and nothing else is
marked. -/
def CrossedBelow {limit : Nat} (marked : Vector Bool limit) (i : Nat) : Prop :=
  ∀ (j : Nat) (hj : j < limit),
    marked[j] = true ↔ ∃ p, p.Prime ∧ p < i ∧ p ∣ j ∧ p * p ≤ j

/-- Nothing needs to be marked before the walk begins. -/
theorem crossedBelow_start (limit : Nat) :
    CrossedBelow (Vector.replicate limit false) 2 := by
  intro j hj
  rw [Vector.getElem_replicate]
  constructor
  · intro h
    exact absurd h Bool.false_ne_true
  · intro h
    obtain ⟨p, hp, hlt, -⟩ := h
    have := hp.two_le
    omega

/-- A number that the walk has come to, or has left behind, is marked exactly when it is not prime. -/
theorem CrossedBelow.marked_iff_not_prime {limit : Nat} {marked : Vector Bool limit} {i j : Nat}
    (hinv : CrossedBelow marked i) (htwo : 2 ≤ j) (hji : j ≤ i) (hj : j < limit) :
    marked[j] = true ↔ ¬ j.Prime := by
  rw [hinv j hj]
  constructor
  · intro h hprime
    obtain ⟨p, hp, -, hdvd, hle⟩ := h
    rcases (Nat.dvd_prime hprime).1 hdvd with h | h
    · exact hp.one_lt.ne' h
    · -- A prime does not reach its own square.
      subst h
      have hdouble : 2 * p ≤ p * p := Nat.mul_le_mul_right p htwo
      omega
  · intro hcomp
    -- The least prime factor has done it: its square is not beyond the number.
    have hsq : j.minFac ^ 2 ≤ j := Nat.minFac_sq_le_self (by omega) hcomp
    have hlt : j.minFac < j := (Nat.not_prime_iff_minFac_lt htwo).1 hcomp
    refine ⟨j.minFac, Nat.minFac_prime (by omega), by omega, Nat.minFac_dvd j, ?_⟩
    rw [← Nat.pow_two]
    exact hsq

/-- A number that is not marked when the walk comes to it is prime. -/
theorem CrossedBelow.prime_of_not_marked {limit : Nat} {marked : Vector Bool limit} {i : Nat}
    (hinv : CrossedBelow marked i) (htwo : 2 ≤ i) (hi : i < limit) (hmark : ¬ marked[i] = true) :
    i.Prime := by
  by_contra hcomp
  exact hmark ((hinv.marked_iff_not_prime htwo le_rfl hi).2 hcomp)

/-- Passing over a composite number asks for no marks. -/
theorem CrossedBelow.skip {limit : Nat} {marked : Vector Bool limit} {i : Nat}
    (hinv : CrossedBelow marked i) (hi : ¬ i.Prime) : CrossedBelow marked (i + 1) := by
  intro j hj
  rw [hinv j hj]
  constructor
  · intro h
    obtain ⟨p, hp, hlt, hmark⟩ := h
    exact ⟨p, hp, by omega, hmark⟩
  · intro h
    obtain ⟨p, hp, hlt, hmark⟩ := h
    have hne : p ≠ i := fun hpi => hi (hpi ▸ hp)
    exact ⟨p, hp, by omega, hmark⟩

/-- A prime adds its own marks. -/
theorem CrossedBelow.sweep {limit : Nat} {marked : Vector Bool limit} {i : Nat}
    (hinv : CrossedBelow marked i) (hi : i.Prime) (i_pos : 0 < i) :
    CrossedBelow (markFrom i i_pos marked (i * i)) (i + 1) := by
  intro j hj
  rw [markFrom_getElem, hinv j hj]
  have hmultiple (hle : i * i ≤ j) : i ∣ j - i * i ↔ i ∣ j :=
    ⟨fun h => (Nat.dvd_sub_iff_left hle (Nat.dvd_mul_right i i)).1 h,
      fun h => Nat.dvd_sub h (Nat.dvd_mul_right i i)⟩
  constructor
  · intro h
    rcases h with ⟨p, hp, hlt, hmark⟩ | ⟨hle, hdvd⟩
    · exact ⟨p, hp, by omega, hmark⟩
    · exact ⟨i, hi, by omega, (hmultiple hle).1 hdvd, hle⟩
  · intro h
    obtain ⟨p, hp, hlt, hdvd, hle⟩ := h
    by_cases hpi : p = i
    · subst hpi
      exact Or.inr ⟨hle, (hmultiple hle).2 hdvd⟩
    · exact Or.inl ⟨p, hp, by omega, hdvd, hle⟩

/-! ## §3. The walk. -/

/-- From `i` on, the walk lists the primes that are left. -/
theorem sieveFrom_eq_filter {limit : Nat} (marked : Vector Bool limit) (i : Nat) (i_pos : 0 < i)
    (htwo : 2 ≤ i) (hinv : CrossedBelow marked i) :
    sieveFrom marked i i_pos = (List.range' i (limit - i)).filter (Nat.Prime ·) := by
  fun_induction sieveFrom marked i i_pos with
  | case1 marked i i_pos h hmark ih =>
    have hcomp : ¬ i.Prime := (hinv.marked_iff_not_prime htwo le_rfl h).1 hmark
    rw [ih (by omega) (hinv.skip hcomp), show limit - i = limit - (i + 1) + 1 by omega,
      List.range'_succ, List.filter_cons_of_neg (by simpa using hcomp)]
  | case2 marked i i_pos h hmark ih =>
    have hprime : i.Prime := hinv.prime_of_not_marked htwo h hmark
    rw [ih (by omega) (hinv.sweep hprime i_pos), show limit - i = limit - (i + 1) + 1 by omega,
      List.range'_succ, List.filter_cons_of_pos (by simpa using hprime)]
  | case3 marked i i_pos h =>
    rw [show limit - i = 0 by omega]
    rfl

/-- **The sieve lists exactly the primes below its limit, in ascending order.** -/
theorem sieve_eq_filter (limit : Nat) :
    sieve limit = (List.range limit).filter (Nat.Prime ·) := by
  rw [sieve, sieveFrom_eq_filter _ _ _ (Nat.le_refl 2) (crossedBelow_start limit),
    List.range_eq_range']
  match limit with
  | 0 => rfl
  | 1 => rfl
  | limit + 2 =>
    rw [show limit + 2 - 2 = limit by omega, List.range'_succ, List.range'_succ,
      List.filter_cons_of_neg (by decide), List.filter_cons_of_neg (by decide)]

theorem mem_sieve {limit p : Nat} : p ∈ sieve limit ↔ p < limit ∧ p.Prime := by
  rw [sieve_eq_filter, List.mem_filter, List.mem_range, decide_eq_true_iff]

theorem sieve_ascending (limit : Nat) : (sieve limit).Pairwise (· < ·) := by
  rw [sieve_eq_filter]
  exact List.pairwise_lt_range.filter _

/-! ## §4. Trial division. -/

theorem mem_smallPrimes {p : Nat} : p ∈ smallPrimes ↔ p < trialLimit ∧ p.Prime := mem_sieve

/-- Below the limit, being in the table is being prime. -/
theorem contains_smallPrimes {n : Nat} (hn : n < trialLimit) :
    smallPrimes.contains n = decide n.Prime := by
  rw [Bool.eq_iff_iff, List.contains_iff_mem, mem_smallPrimes, decide_eq_true_iff]
  exact and_iff_right hn

/-- **Trial division finds exactly the small primes that divide a number properly.** -/
theorem hasSmallFactor_iff {n : Nat} :
    hasSmallFactor n = true ↔ ∃ p, p.Prime ∧ p < trialLimit ∧ p ∣ n ∧ p ≠ n := by
  rw [hasSmallFactor, List.any_eq_true]
  constructor
  · intro h
    obtain ⟨p, hmem, hp⟩ := h
    obtain ⟨hlt, hprime⟩ := mem_smallPrimes.1 hmem
    rw [Bool.and_eq_true, bne_iff_ne, beq_iff_eq] at hp
    exact ⟨p, hprime, hlt, Nat.dvd_of_mod_eq_zero hp.2, hp.1.symm⟩
  · intro h
    obtain ⟨p, hprime, hlt, hdvd, hne⟩ := h
    refine ⟨p, mem_smallPrimes.2 ⟨hlt, hprime⟩, ?_⟩
    rw [Bool.and_eq_true, bne_iff_ne, beq_iff_eq]
    exact ⟨hne.symm, Nat.mod_eq_zero_of_dvd hdvd⟩

/-- A number with a proper small factor is not prime. -/
theorem not_prime_of_hasSmallFactor {n : Nat} (h : hasSmallFactor n = true) : ¬ n.Prime := by
  intro hn
  obtain ⟨p, hp, -, hdvd, hne⟩ := hasSmallFactor_iff.1 h
  exact hne ((Nat.prime_dvd_prime_iff_eq hp hn).1 hdvd)

end ProbablePrime.Primality
