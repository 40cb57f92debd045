/-
  ProbablePrime.Proofs.Primality.Passing — what a verdict says about its number.

  A number that was found composite is composite.  A number that passed is a small prime, or has no
  small factor; as long as it is below the square of the first prime past the table, that makes it
  prime.

  Main results:
    * `decompose_exact` — the decomposition that every verdict carries;
    * `not_prime_of_failed` — a number that fails a check is not prime;
    * `Passable.of_check` — what is left for a number that passes;
    * `Approves.passable` — the same of a check that ends with approval.
-/
import ProbablePrime.Proofs.Primality.Verdict

namespace ProbablePrime.Primality

open Entropy (Source)
open Draw (Ends)

variable {σ : Type} [Source σ] {fuel rounds n : Nat} {session session' : Session σ}
  {verdict : Verdict}

/-! ## §1. What every verdict has in common. -/

theorem rounds_ne_zero_of_check (h : (check fuel rounds n).runIn session = (.ok verdict, session')) :
    rounds ≠ 0 := by
  intro hrounds
  rw [check, if_pos hrounds] at h
  simp at h

/-- A verdict carries the decomposition of its number, whichever way the check went. -/
theorem decomposition_of_check (h : (check fuel rounds n).runIn session = (.ok verdict, session')) :
    verdict.decomposition = decompose n := by
  have hrounds : rounds ≠ 0 := rounds_ne_zero_of_check h
  by_cases hn : Settled n
  · rw [check_of_settled hrounds hn, Draw.runIn_pure_eq_ok] at h
    rw [← h.1]
  · have htwo : 2 ≤ n := by
      have := three_lt_of_not_settled hn
      omega
    rw [check_of_not_settled hrounds hn (decompose_of_two_le htwo), Draw.runIn_bind_eq_ok] at h
    obtain ⟨passed, mid, -, hpure⟩ := h
    rw [Draw.runIn_pure_eq_ok] at hpure
    rw [← hpure.1, decompose_of_two_le htwo]

/-- **There is one decomposition, and every verdict carries it.**  The decomposition of `n` is the only
way to write `n` as an odd number times a power of two, and one; none is there exactly below two.  A
check that ends with a verdict has put this decomposition into it, whether the number was looked up,
was found to have a small factor, passed the rounds or failed them. -/
theorem decompose_exact (n : Nat) :
    (∀ d s, decompose n = some ⟨d, s⟩ ↔ d % 2 = 1 ∧ n = d * 2 ^ s + 1)
    ∧ (decompose n = none ↔ n < 2)
    ∧ ∀ rounds fuel (session session' : Session σ) verdict,
      (check fuel rounds n).runIn session = (.ok verdict, session') →
        verdict.decomposition = decompose n := by
  refine ⟨?_, decompose_eq_none_iff, ?_⟩
  · intro d s
    rw [decompose_eq_some_iff]
    constructor
    · intro h
      exact ⟨h.odd, h.eq⟩
    · intro h
      exact ⟨h.1, h.2⟩
  · intro rounds fuel session session' verdict h
    exact decomposition_of_check h

/-- With two zero bytes the prime 1009 passes a round, and the verdict carries the parts 63 and 4. -/
theorem decompose_exact_1009 :
    (check 1 1 1009).runIn (Session.start (⟨[0, 0]⟩ : Entropy.Tape))
        = (.ok ⟨true, some ⟨63, 4⟩⟩, ⟨⟨[]⟩, ⟨1, 2⟩, []⟩)
      ∧ decompose 1009 = some ⟨63, 4⟩ := by
  have hrun : (check 1 1 1009).runIn (Session.start (⟨[0, 0]⟩ : Entropy.Tape))
      = (.ok ⟨true, some ⟨63, 4⟩⟩, ⟨⟨[]⟩, ⟨1, 2⟩, []⟩) := runIn_check_1009 0 [] ⟨0, 0⟩ []
  refine ⟨hrun, ?_⟩
  exact ((decompose_exact 1009).2.2 1 1 _ _ _ hrun).symm

/-- About a settled number the verdict is the truth. -/
theorem probablePrime_of_settled (hn : Settled n)
    (h : (check fuel rounds n).runIn session = (.ok verdict, session')) :
    verdict.probablePrime = decide n.Prime := by
  rw [check_of_settled (rounds_ne_zero_of_check h) hn, Draw.runIn_pure_eq_ok] at h
  rw [← h.1]

/-! ## §2. Failing. -/

/-- **A number that fails a check is not prime.** -/
theorem not_prime_of_failed (h : (check fuel rounds n).runIn session = (.ok verdict, session'))
    (hfail : verdict.probablePrime = false) : ¬ n.Prime := by
  intro hn
  have hpass : verdict.probablePrime = true := probablePrime_of_prime hn h
  rw [hfail] at hpass
  exact Bool.false_ne_true hpass

/-! ## §3. Passing. -/

/-- What is left for a number that passes: a prime of the table, or a number that no prime of the
table divides. -/
structure Passable (n : Nat) : Prop where
  /-- The number is a small prime or has no small factor. -/
  small : n.Prime ∧ n < 1000 ∨ ∀ r, r.Prime → r < 1000 → ¬ r ∣ n
  /-- Below the square of the first prime past the table it is prime. -/
  prime_of_lt : n < 1018081 → n.Prime

/-- A composite number that no prime of the table divides has two prime factors past the table. -/
theorem le_of_not_settled (hn : ¬ Settled n) (hcomp : ¬ n.Prime) : 1018081 ≤ n := by
  have hlarge : 3 < n := three_lt_of_not_settled hn
  have hprime : n.minFac.Prime := Nat.minFac_prime (by omega)
  have hleast : 1009 ≤ n.minFac :=
    le_of_prime_of_lt hprime (lt_of_dvd_of_not_settled hn hprime (Nat.minFac_dvd n))
  have hsquare : 1009 ^ 2 ≤ n.minFac ^ 2 := Nat.pow_le_pow_left hleast 2
  have hself : n.minFac ^ 2 ≤ n := Nat.minFac_sq_le_self (by omega) hcomp
  omega

theorem Passable.of_prime (hn : n.Prime) : Passable n where
  small := by
    by_cases hlt : n < 1000
    · exact Or.inl ⟨hn, hlt⟩
    · refine Or.inr fun r hr hsmall hdvd => ?_
      have hself : r = n := (Nat.prime_dvd_prime_iff_eq hr hn).1 hdvd
      omega
  prime_of_lt := fun _ => hn

theorem Passable.of_not_settled (hn : ¬ Settled n) : Passable n where
  small := Or.inr fun r hr hsmall hdvd => hn (settled_iff.2 (Or.inr ⟨r, hr, hsmall, hdvd⟩))
  prime_of_lt := by
    intro hlt
    by_contra hcomp
    have := le_of_not_settled hn hcomp
    omega

/-- **A number that passes a check is a small prime or has no small factor**, and is prime as long
as it is not too large. -/
theorem Passable.of_check (h : (check fuel rounds n).runIn session = (.ok verdict, session'))
    (hpass : verdict.probablePrime = true) : Passable n := by
  by_cases hn : Settled n
  · have hprime : n.Prime := by
      have := probablePrime_of_settled hn h
      exact of_decide_eq_true (this.symm.trans hpass)
    exact Passable.of_prime hprime
  · exact Passable.of_not_settled hn

/-- The prime factors of a composite number that can pass lie past the table. -/
theorem Passable.lt_of_dvd (hn : Passable n) (hcomp : ¬ n.Prime) {r : Nat} (hr : r.Prime)
    (hdvd : r ∣ n) : 997 < r := by
  rcases hn.small with ⟨hprime, -⟩ | hfree
  · exact absurd hprime hcomp
  · by_contra hle
    exact hfree r hr (by omega) hdvd

/-! ## §4. Approval. -/

variable {after : Session σ}

/-- A check of the number ends in the session `after` with the verdict that it is probably prime. -/
def Approves (rounds n : Nat) (session after : Session σ) : Prop :=
  ∃ verdict, Ends (fun fuel => check fuel rounds n) session (.ok verdict) after
    ∧ verdict.probablePrime = true

theorem Approves.passable (h : Approves rounds n session after) : Passable n := by
  obtain ⟨verdict, ⟨least, hrun⟩, hpass⟩ := h
  exact Passable.of_check (hrun least le_rfl) hpass

/-- Of a prime that trial division decides about, a check approves without a draw. -/
theorem Approves.of_settled (hrounds : rounds ≠ 0) (hn : n.Prime) (hsettled : Settled n)
    (session : Session σ) : Approves rounds n session session :=
  ⟨_, ends_check_of_settled hrounds hsettled session, decide_eq_true hn⟩

/-- A check of a prime approves of it where it ends with a verdict. -/
theorem Approves.of_prime (hn : n.Prime)
    (h : Ends (fun fuel => check fuel rounds n) session (.ok verdict) after) :
    Approves rounds n session after := by
  obtain ⟨least, hrun⟩ := id h
  exact ⟨verdict, h, probablePrime_of_prime hn (hrun least le_rfl)⟩

end ProbablePrime.Primality
