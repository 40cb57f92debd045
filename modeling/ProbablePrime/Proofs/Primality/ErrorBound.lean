/-
  ProbablePrime.Proofs.Primality.ErrorBound — how often all rounds err.

  The draws of the rounds yield a tuple of witnesses, and the tuple alone decides what the rounds
  answer, whatever the source is.  Every tuple of numbers from `2` to `n - 2` can be drawn: there is a
  tape that holds it.  A composite number is accepted on those tuples whose members are all liars.

  Main results:
    * `answers_of_yields` — the drawn witnesses decide the answer of the rounds;
    * `yields_witnessBytes` — every list of witnesses can be drawn;
    * `acceptedTuples_eq` — the rounds accept the tuples of liars;
    * `rounds_error_bound` — at most one in `4 ^ rounds` tuples makes the rounds accept.
-/
import ProbablePrime.Proofs.Primality.Liars
import ProbablePrime.Proofs.Primality.Rounds
import ProbablePrime.Proofs.Sampling.Uniform

namespace ProbablePrime.Primality

open Entropy (Source Tape fill_tape_of_le)
open Number (bitLength lt_two_pow_bitLength)
open Draw (Ends)

/-! ## §1. Rounds on given witnesses. -/

section Streams

variable {σ : Type} [Source σ]

/-- From a session on, the draws of the rounds yield the given witnesses. -/
def Yields (n rounds : Nat) (session : Session σ) (as : List Nat) : Prop :=
  ∃ session', Ends (fun fuel => drawWitnesses fuel n rounds) session (.ok as) session'

/-- From a session on, the rounds end with the given answer. -/
def Answers (n : Nat) (parts : Decomposition) (rounds : Nat) (session : Session σ)
    (passed : Bool) : Prop :=
  ∃ session', Ends (fun fuel => passesRounds fuel n parts rounds) session (.ok passed) session'

/-- **The drawn witnesses decide the answer of the rounds.** -/
theorem answers_of_yields {n rounds : Nat} {session : Session σ} {as : List Nat}
    (h : Yields n rounds session as) (parts : Decomposition) :
    Answers n parts rounds session (as.all (passesWitness n parts)) := by
  obtain ⟨session', least, hrun⟩ := h
  have hrounds := passesRounds_of_drawWitnesses parts (hrun least le_rfl)
  exact ⟨_, (steady_passesRounds n parts rounds).ends (Prod.ext hrounds rfl)⟩

/-- Rounds give one answer. -/
theorem Answers.unique {n rounds : Nat} {parts : Decomposition} {session : Session σ}
    {passed passed' : Bool} (h : Answers n parts rounds session passed)
    (h' : Answers n parts rounds session passed') : passed = passed' := by
  obtain ⟨s, hends⟩ := h
  obtain ⟨s', hends'⟩ := h'
  exact Except.ok.inj (hends.unique hends').1

end Streams

/-! ## §2. Every tuple can be drawn. -/

/-- The bytes of a tape from which the given witnesses are drawn. -/
def witnessBytes (n : Nat) (as : List Nat) : List UInt8 :=
  as.flatMap fun a => toBigEndian (attemptSize (n - 3)) (a - 2)

/-- The first number of a tape that begins with a small number is that number. -/
theorem ends_randomBelow_toBigEndian {bound v : Nat} (hv : v < bound) {session : Session Tape}
    {rest : List UInt8} (h : session.source = ⟨toBigEndian (attemptSize bound) v ++ rest⟩) :
    ∃ session', Ends (fun fuel => randomBelow fuel bound) session (.ok v) session'
      ∧ session'.source = ⟨rest⟩ := by
  have hfill : Source.fill (attemptSize bound) session.source
      = (.ok (toBigEndian (attemptSize bound) v), ⟨rest⟩) := by
    rw [h, fill_tape_of_le (by simp), List.take_left' (length_toBigEndian _ _),
      List.drop_left' (length_toBigEndian _ _)]
  have hkept : ofBuffer (bitLength bound) (toBigEndian (attemptSize bound) v) = v :=
    ofBuffer_toBigEndian (hv.trans (lt_two_pow_bitLength bound))
  refine ⟨session.asked (attemptSize bound), ?_, ?_⟩
  · have hends := ends_randomBelow_of_accepted (congrArg Prod.fst hfill) (by rwa [hkept])
    rwa [hkept] at hends
  · rw [Session.asked, hfill]

/-- **Every list of witnesses is drawn from some tape.** -/
theorem yields_witnessBytes {n : Nat} (as : List Nat) (has : ∀ a ∈ as, 2 ≤ a ∧ a ≤ n - 2)
    {session : Session Tape} (h : session.source = ⟨witnessBytes n as⟩) :
    Yields n as.length session as := by
  induction as generalizing session with
  | nil => exact ⟨session, Ends.of_const rfl⟩
  | cons a as ih =>
    -- The first buffer holds `a - 2`, which is accepted at once; the others follow it on the tape.
    have ha := has a List.mem_cons_self
    obtain ⟨mid, hdraw, hmid⟩ := ends_randomBelow_toBigEndian (show a - 2 < n - 3 by omega) h
    obtain ⟨session', hmore⟩ := ih (fun b hb => has b (List.mem_cons_of_mem a hb)) hmid
    refine ⟨session', hdraw.bind (hmore.bind (Ends.of_const ?_))⟩
    rw [Nat.sub_add_cancel ha.1]
    rfl

/-! ## §3. The error bound. -/

/-- The tuples of witnesses that `rounds` rounds can draw. -/
def witnessTuples (n rounds : Nat) : Finset (Fin rounds → Nat) :=
  Fintype.piFinset fun _ => Finset.Icc 2 (n - 2)

theorem mem_witnessTuples {n rounds : Nat} {as : Fin rounds → Nat} :
    as ∈ witnessTuples n rounds ↔ ∀ i, 2 ≤ as i ∧ as i ≤ n - 2 := by
  simp only [witnessTuples, Fintype.mem_piFinset, Finset.mem_Icc]

/-- Every tuple of witnesses is drawn from a tape. -/
theorem exists_yields {n rounds : Nat} {as : Fin rounds → Nat} (has : as ∈ witnessTuples n rounds) :
    ∃ session : Session Tape, Yields n rounds session (List.ofFn as) := by
  have hall : ∀ a ∈ List.ofFn as, 2 ≤ a ∧ a ≤ n - 2 := by
    rw [List.forall_mem_ofFn_iff]
    exact mem_witnessTuples.1 has
  let session : Session Tape := Session.start ⟨witnessBytes n (List.ofFn as)⟩
  have hyields : Yields n (List.ofFn as).length session (List.ofFn as) :=
    yields_witnessBytes (List.ofFn as) hall rfl
  rw [List.length_ofFn] at hyields
  exact ⟨session, hyields⟩

/-- Whichever source yields the tuple, the rounds accept. -/
def AcceptedTuple (n : Nat) (parts : Decomposition) (rounds : Nat) (as : Fin rounds → Nat) : Prop :=
  ∀ (σ : Type) [Source σ] (session : Session σ),
    Yields n rounds session (List.ofFn as) → Answers n parts rounds session true

open Classical in
/-- The tuples of witnesses on which the rounds accept `n`. -/
noncomputable def acceptedTuples (n : Nat) (parts : Decomposition) (rounds : Nat) :
    Finset (Fin rounds → Nat) :=
  (witnessTuples n rounds).filter (AcceptedTuple n parts rounds)

/-- A tuple is accepted when each of its witnesses is passed: one source that yields it tells, and
there is one. -/
theorem acceptedTuple_iff {n rounds : Nat} {parts : Decomposition} {as : Fin rounds → Nat}
    (has : as ∈ witnessTuples n rounds) :
    AcceptedTuple n parts rounds as ↔ (List.ofFn as).all (passesWitness n parts) = true := by
  constructor
  · intro haccepted
    obtain ⟨session, hyields⟩ := exists_yields has
    exact (answers_of_yields hyields parts).unique (haccepted Tape session hyields)
  · intro hall σ _ session hyields
    rw [← hall]
    exact answers_of_yields hyields parts

theorem mem_acceptedTuples {n rounds : Nat} {parts : Decomposition} {as : Fin rounds → Nat} :
    as ∈ acceptedTuples n parts rounds
      ↔ as ∈ witnessTuples n rounds ∧ (List.ofFn as).all (passesWitness n parts) = true := by
  classical
  unfold acceptedTuples
  rw [Finset.mem_filter]
  exact and_congr_right acceptedTuple_iff

/-- **The rounds accept the tuples of liars.** -/
theorem acceptedTuples_eq (n : Nat) (parts : Decomposition) (rounds : Nat) :
    acceptedTuples n parts rounds = Fintype.piFinset fun _ => liars n parts := by
  ext as
  rw [mem_acceptedTuples, mem_witnessTuples, List.all_eq_true, List.forall_mem_ofFn_iff,
    Fintype.mem_piFinset, ← forall_and]
  simp only [liars, Finset.mem_filter, Finset.mem_Icc]

/-- **The error bound.**  Of the tuples of witnesses that the rounds can draw for a composite number
without small factors, at most one in `4 ^ rounds` makes them accept.  Every tuple is drawn from some
source, and what the rounds answer then does not depend on the source. -/
theorem rounds_error_bound {n : Nat} (hn : 1 < n) (hcomp : ¬ n.Prime)
    (hfactors : ∀ p, p.Prime → p ∣ n → 1000 ≤ p) {parts : Decomposition}
    (hparts : decompose n = some parts) (rounds : Nat) :
    4 ^ rounds * (acceptedTuples n parts rounds).card ≤ (n - 3) ^ rounds
    ∧ ∀ as ∈ witnessTuples n rounds,
        (∃ session : Session Tape, Yields n rounds session (List.ofFn as))
        ∧ ∀ (σ : Type) [Source σ] (session : Session σ), Yields n rounds session (List.ofFn as) →
            Answers n parts rounds session (decide (as ∈ acceptedTuples n parts rounds)) := by
  constructor
  · have hquarter : 4 * (liars n parts).card ≤ n - 3 := by
      apply four_mul_card_liars_le hn hcomp ?_ (Decomposition.Of.of_decompose hparts)
      intro p hp hdvd
      have := hfactors p hp hdvd
      omega
    rw [acceptedTuples_eq, Fintype.card_piFinset_const, ← Nat.mul_pow]
    exact Nat.pow_le_pow_left hquarter rounds
  · intro as has
    refine ⟨exists_yields has, ?_⟩
    intro σ _ session hyields
    have hmem : as ∈ acceptedTuples n parts rounds
        ↔ (List.ofFn as).all (passesWitness n parts) = true :=
      mem_acceptedTuples.trans (and_iff_right has)
    simp only [hmem, Bool.decide_eq_true]
    exact answers_of_yields hyields parts

/-- The product of the first two primes past a thousand, in two rounds. -/
theorem rounds_error_bound_two_primes :
    1 < 1009 * 1013 ∧ ¬ Nat.Prime (1009 * 1013)
      ∧ (∀ p, p.Prime → p ∣ 1009 * 1013 → 1000 ≤ p)
      ∧ 4 ^ 2 * (acceptedTuples (1009 * 1013) ⟨oddPart 1022116, twos 1022116⟩ 2).card
          ≤ 1022114 ^ 2 := by
  have hcomp : ¬ Nat.Prime (1009 * 1013) := by norm_num
  have hfactors : ∀ p, p.Prime → p ∣ 1009 * 1013 → 1000 ≤ p := by
    intro p hp hdvd
    rcases (Nat.Prime.dvd_mul hp).1 hdvd with h | h
    · rw [(Nat.prime_dvd_prime_iff_eq hp (by norm_num)).1 h]
      norm_num
    · rw [(Nat.prime_dvd_prime_iff_eq hp (by norm_num)).1 h]
      norm_num
  have hparts : decompose (1009 * 1013) = some ⟨oddPart 1022116, twos 1022116⟩ := by
    rw [decompose, if_neg (by norm_num)]
  exact ⟨by norm_num, hcomp, hfactors, (rounds_error_bound (by norm_num) hcomp hfactors hparts 2).1⟩

end ProbablePrime.Primality
