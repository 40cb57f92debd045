/-
  ProbablePrime.Proofs.Vectors.ScanBound — how far the walk over the small numbers goes.

  The walk has no counter: it stops when two lists are full that a probabilistic verdict fills.  The
  verdict never fails a prime, so the list of primes is full at the latest when so many primes were
  looked at; and it never passes an even number past two, so the list of composites is full at the
  latest when so many even numbers were.  The later of the two places is a bound for every source.

  Main results:
    * `Sifts.full_of_ceiling_lt` — past the ceiling both lists are full;
    * `le_ceiling_of_tests` — no number past it is tested.
-/
import ProbablePrime.Proofs.Vectors.Synthesis

namespace ProbablePrime.Vectors

open Entropy (Source)
open Primality (Passable)

/-! ## §1. Enough numbers of each kind. -/

/-- A list that holds the values of an injective function for all numbers below `count` has that many
numbers. -/
theorem le_length_of_injective {f : Nat → Nat} (hf : Function.Injective f) {count : Nat}
    {l : List Nat} (hmem : ∀ k < count, f k ∈ l) : count ≤ l.length := by
  have hnodup : ((List.range count).map f).Nodup := List.nodup_range.map hf
  have hsubset : (List.range count).map f ⊆ l := by
    intro x hx
    obtain ⟨k, hk, rfl⟩ := List.mem_map.1 hx
    exact hmem k (List.mem_range.1 hk)
  simpa using (hnodup.subperm hsubset).length_le

/-- No even number past two can pass. -/
theorem not_passable_of_even {n : Nat} (heven : 2 ∣ n) (hlt : 2 < n) : ¬ Passable n :=
  not_passable_of_dvd Nat.prime_two (by decide) hlt heven

/-- The last number that a walk for `count` numbers of each kind can look at: the prime of that
number, or the even number past two of that number. -/
noncomputable def ceiling (count : Nat) : Nat :=
  max (Nat.nth Nat.Prime (count - 1)) (2 * count + 2)

/-- **Past the ceiling both lists are full.** -/
theorem Sifts.full_of_ceiling_lt {n count : Nat} {ps cs : List Nat} (h : Sifts n ps cs)
    (hlt : ceiling count < n) : count ≤ ps.length ∧ count ≤ cs.length := by
  obtain ⟨hprime, heven⟩ := max_lt_iff.1 hlt
  have hinfinite := Nat.infinite_setOfPred_prime
  constructor
  · refine le_length_of_injective (Nat.nth_injective hinfinite) fun k hk => ?_
    have hle : Nat.nth Nat.Prime k ≤ Nat.nth Nat.Prime (count - 1) :=
      (Nat.nth_strictMono hinfinite).monotone (by omega)
    exact h.mem_passed_of_prime (Nat.prime_nth_prime k) (lt_of_le_of_lt hle hprime)
  · refine le_length_of_injective (f := fun k => 2 * k + 4) (fun i j hij => ?_) fun k hk => ?_
    · simp only at hij
      omega
    · exact h.mem_failed_of_not_passable (not_passable_of_even (by omega) (by omega)) (by omega)
        (by omega)

/-! ## §2. The numbers that are tested. -/

variable {σ : Type} [Source σ] {rounds count n : Nat} {session mid : Session σ} {place : Place}

/-- A walk from the session on tests the number `n`. -/
def Tests (rounds count : Nat) (session : Session σ) (n : Nat) : Prop :=
  ∃ place mid, Comes rounds count session place mid ∧ place.Open count ∧ place.n = n

/-- An open place is not past the ceiling: one of its lists lacks some. -/
theorem Comes.le_ceiling (h : Comes rounds count session place mid) (hopen : place.Open count) :
    place.n ≤ ceiling count := by
  obtain ⟨ps, cs, hsifts, hprimes, hcomposites⟩ := h.sifts
  by_contra hlt
  obtain ⟨hps, hcs⟩ := hsifts.full_of_ceiling_lt (Nat.lt_of_not_le hlt)
  rw [Place.Open, length_lt_iff_of_take hprimes, length_lt_iff_of_take hcomposites] at hopen
  omega

/-- **No number past the ceiling is tested**, whatever the source does. -/
theorem le_ceiling_of_tests (h : Tests rounds count session n) : n ≤ ceiling count := by
  obtain ⟨place, mid, hcomes, hopen, rfl⟩ := h
  exact hcomes.le_ceiling hopen

/-- A walk goes at most one number past its ceiling. -/
theorem Comes.le_ceiling_add_one (h : Comes rounds count session place mid) :
    place.n ≤ ceiling count + 1 := by
  cases h with
  | start =>
    have htwo : 2 * count + 2 ≤ ceiling count := le_max_right _ _
    show 2 ≤ _
    omega
  | next hcomes hopen _ =>
    have hle := hcomes.le_ceiling hopen
    rw [Place.next_n]
    omega

end ProbablePrime.Vectors
