/-
  ProbablePrime.Proofs.Primality.Verdict — what the verdict of a check is worth.

  A check settles small numbers and multiples of small primes without a draw, and it is right about
  them.  About the others it can err in one direction only: a prime is never found composite.  So a
  wrong verdict is about a composite number without small factors, and such a number is large.

  Main results:
    * `check_of_prime` — a prime passes, whatever the source of the witnesses does, unless the draw of
      a witness has no end;
    * `check_exact` — the verdict is exact below the square of the first prime past the table, and on
      every multiple of a prime of the table;
    * `endless_check_of_ones` — over bytes of ones no check ends that needs a witness.
-/
import ProbablePrime.Proofs.Primality.Rounds
import ProbablePrime.Proofs.Primality.Sieve
import ProbablePrime.Proofs.Sampling.Ones

namespace ProbablePrime.Primality

open Entropy (Ones Source Tape)
open Entropy.Source (NeverRefuses Reaches Refuses)
open Draw (Ends Endless Faithful Steady)

variable {σ : Type} [Source σ]

/-! ## §1. The two ways of a check. -/

theorem decompose_of_two_le {n : Nat} (hn : 2 ≤ n) :
    decompose n = some ⟨oddPart (n - 1), twos (n - 1)⟩ := by
  rw [decompose, if_neg (by omega)]

/-- A number is settled when trial division decides about it. -/
def Settled (n : Nat) : Prop := n < trialLimit ∨ hasSmallFactor n = true

/-- A number that is small, or a multiple of a small prime, is settled. -/
theorem settled_iff {n : Nat} :
    Settled n ↔ n < trialLimit ∨ ∃ p, p.Prime ∧ p < trialLimit ∧ p ∣ n := by
  rw [Settled, hasSmallFactor_iff]
  constructor
  · intro h
    rcases h with h | ⟨p, hp, hlt, hdvd, -⟩
    · exact Or.inl h
    · exact Or.inr ⟨p, hp, hlt, hdvd⟩
  · intro h
    rcases h with h | ⟨p, hp, hlt, hdvd⟩
    · exact Or.inl h
    · by_cases hpn : p = n
      · exact Or.inl (hpn ▸ hlt)
      · exact Or.inr ⟨p, hp, hlt, hdvd, hpn⟩

/-- A prime past the table is not settled: trial division leaves a number itself out. -/
theorem not_settled_of_prime {n : Nat} (hn : n.Prime) (hlarge : trialLimit ≤ n) : ¬ Settled n := by
  intro hsettled
  rcases hsettled with hsmall | hfactor
  · omega
  · exact not_prime_of_hasSmallFactor hfactor hn

/-- **A settled number gets the right verdict, and nothing is drawn for it.** -/
theorem check_of_settled {n rounds : Nat} (hrounds : rounds ≠ 0) (hn : Settled n) (fuel : Nat) :
    (check fuel rounds n : Draw σ PrimeError Verdict) = pure ⟨decide n.Prime, decompose n⟩ := by
  rw [check, if_neg hrounds]
  by_cases htwo : n < 2
  · have hcomp : ¬ n.Prime := fun h => by
      have := h.two_le
      omega
    rw [decompose, if_pos htwo, decide_eq_false hcomp]
  · rw [decompose_of_two_le (by omega)]
    dsimp only
    by_cases hsmall : n < trialLimit
    · rw [if_pos hsmall, contains_smallPrimes hsmall]
    · have hfactor : hasSmallFactor n = true := hn.resolve_left hsmall
      rw [if_neg hsmall, if_pos hfactor, decide_eq_false (not_prime_of_hasSmallFactor hfactor)]

theorem ends_check_of_settled {n rounds : Nat} (hrounds : rounds ≠ 0) (hn : Settled n)
    (session : Session σ) :
    Ends (fun fuel => check fuel rounds n) session (.ok ⟨decide n.Prime, decompose n⟩) session := by
  simp only [check_of_settled hrounds hn]
  exact Ends.of_const rfl

/-- A number that is not settled meets the rounds. -/
theorem check_of_not_settled {n rounds : Nat} (hrounds : rounds ≠ 0) (hn : ¬ Settled n)
    {parts : Decomposition} (hparts : decompose n = some parts) (fuel : Nat) :
    (check fuel rounds n : Draw σ PrimeError Verdict)
      = passesRounds fuel n parts rounds >>= fun passed => pure ⟨passed, some parts⟩ := by
  obtain ⟨hsmall, hfactor⟩ := not_or.1 hn
  rw [check, if_neg hrounds, hparts]
  dsimp only
  rw [if_neg hsmall, if_neg hfactor]

theorem three_lt_of_not_settled {n : Nat} (hn : ¬ Settled n) : 3 < n := by
  have h := (not_or.1 hn).1
  simp only [trialLimit] at h
  omega

/-! ## §2. Fuel, refusals and endless checks. -/

theorem steady_check (rounds n : Nat) :
    Steady fun fuel => (check fuel rounds n : Draw σ PrimeError Verdict) := by
  by_cases hrounds : rounds = 0
  · simp only [check, if_pos hrounds]
    exact Draw.steady_const _
  · by_cases hn : Settled n
    · simp only [check_of_settled hrounds hn]
      exact Draw.steady_const _
    · have htwo : 2 ≤ n := by
        have := three_lt_of_not_settled hn
        omega
      simp only [check_of_not_settled hrounds hn (decompose_of_two_le htwo)]
      exact (steady_passesRounds n _ rounds).bind fun _ => Draw.steady_const _

/-- A check with rounds fails only where its source does. -/
theorem faithful_check {rounds : Nat} (hrounds : rounds ≠ 0) (n fuel : Nat) :
    Faithful (check fuel rounds n : Draw σ PrimeError Verdict) := by
  by_cases hn : Settled n
  · rw [check_of_settled hrounds hn]
    exact Draw.faithful_pure _
  · have hlarge : 3 < n := three_lt_of_not_settled hn
    rw [check_of_not_settled hrounds hn (decompose_of_two_le (by omega))]
    exact (faithful_passesRounds hlarge _ fuel rounds).bind fun _ => Draw.faithful_pure _

/-- A check of `n` that begins in one session draws a witness in another: trial division does not
decide about the number, and its rounds come to that draw. -/
def DrawsWitness (rounds n : Nat) (session drawing : Session σ) : Prop :=
  ¬ Settled n ∧ ∃ parts, decompose n = some parts ∧ DrawsIn n parts rounds session drawing

/-- A check goes on for ever when the draw of one of its witnesses does. -/
theorem endless_check_iff {n rounds : Nat} (hrounds : rounds ≠ 0) {session : Session σ} :
    Endless (fun fuel => check fuel rounds n) session
      ↔ ∃ drawing, DrawsWitness rounds n session drawing
        ∧ Endless (fun fuel => randomBelow fuel (n - 3)) drawing := by
  by_cases hn : Settled n
  · constructor
    · intro h
      exact absurd (h 0) (by simp [check_of_settled hrounds hn])
    · rintro ⟨drawing, hwitness, -⟩
      exact absurd hn hwitness.1
  · have hlarge : 3 < n := three_lt_of_not_settled hn
    obtain ⟨parts, hparts⟩ : ∃ parts, decompose n = some parts :=
      ⟨_, decompose_of_two_le (by omega)⟩
    have hverdict (passed : Bool) :
        Steady fun _ => (pure ⟨passed, some parts⟩ : Draw σ PrimeError Verdict) :=
      Draw.steady_const _
    -- What is behind the rounds ends at once, so only the rounds count.
    have hrest : Endless (fun fuel => check fuel rounds n) session
        ↔ Endless (fun fuel => passesRounds fuel n parts rounds) session := by
      simp only [check_of_not_settled hrounds hn hparts]
      refine (Draw.endless_bind_iff (steady_passesRounds n parts rounds) hverdict).trans ?_
      refine or_iff_left ?_
      rintro ⟨passed, mid, -, hpure⟩
      exact absurd (hpure 0) (by simp)
    rw [hrest, endless_passesRounds_iff]
    refine exists_congr fun drawing => and_congr_left fun _ => ?_
    simp [DrawsWitness, hn, hparts]

/-- A check that goes on for ever is stuck in the draw of one witness, after draws that the source has
served. -/
theorem exists_endless_of_check {n rounds : Nat} (hrounds : rounds ≠ 0) {session : Session σ}
    (h : Endless (fun fuel => check fuel rounds n) session) :
    ∃ mid : Session σ, Reaches session.source mid.source
      ∧ Endless (fun fuel => randomBelow fuel (n - 3)) mid := by
  obtain ⟨drawing, ⟨hn, parts, -, hin⟩, hendless⟩ := (endless_check_iff hrounds).1 h
  exact ⟨drawing, hin.reaches (three_lt_of_not_settled hn), hendless⟩

/-- From bytes of ones, no check of a number that is not settled comes to an end. -/
theorem endless_check_of_ones {n rounds : Nat} (hrounds : rounds ≠ 0) (hn : ¬ Settled n)
    (session : Session Ones) : Endless (fun fuel => check fuel rounds n) session := by
  have hlarge : 3 < n := three_lt_of_not_settled hn
  have hdraw : Endless (fun fuel => randomBelow fuel (n - 3)) session :=
    endless_randomBelow_of_ones (by omega) session
  obtain ⟨rounds, rfl⟩ : ∃ k, rounds = k + 1 := ⟨rounds - 1, by omega⟩
  -- The draw of the first witness begins where the check does.
  refine (endless_check_iff hrounds).2 ⟨session, ⟨hn, _, decompose_of_two_le (by omega), ?_⟩, hdraw⟩
  exact .first

/-! ## §3. Primes pass. -/

/-- A check never finds a prime composite. -/
theorem probablePrime_of_prime {n rounds fuel : Nat} (hn : n.Prime) {session session' : Session σ}
    {verdict : Verdict} (h : (check fuel rounds n).runIn session = (.ok verdict, session')) :
    verdict.probablePrime = true := by
  by_cases hrounds : rounds = 0
  · simp [check, hrounds] at h
  by_cases hsettled : Settled n
  · rw [check_of_settled hrounds hsettled, Draw.runIn_pure_eq_ok] at h
    rw [← h.1]
    exact decide_eq_true hn
  · have hparts := decompose_of_two_le hn.two_le
    rw [check_of_not_settled hrounds hsettled hparts, Draw.runIn_bind_eq_ok] at h
    obtain ⟨passed, mid, hrounds, hpure⟩ := h
    rw [Draw.runIn_pure_eq_ok] at hpure
    rw [← hpure.1]
    cases passed with
    | true => rfl
    | false =>
      exact absurd hrounds (passesRounds_ne_false_of_prime hn (three_lt_of_not_settled hsettled)
        (Decomposition.Of.of_decompose hparts))

/-- The first prime past the table is not settled. -/
theorem not_settled_1009 : ¬ Settled 1009 := not_settled_of_prime (by norm_num) (by decide)

/-- Its check is that of its rounds. -/
theorem check_1009 {rounds : Nat} (hrounds : rounds ≠ 0) (fuel : Nat) :
    (check fuel rounds 1009 : Draw σ PrimeError Verdict)
      = passesRounds fuel 1009 ⟨63, 4⟩ rounds >>= fun passed => pure ⟨passed, some ⟨63, 4⟩⟩ := by
  have hparts : Decomposition.Of 1009 ⟨63, 4⟩ := ⟨by decide, by decide⟩
  exact check_of_not_settled hrounds not_settled_1009 hparts.decompose_eq fuel

/-- Two zero bytes of a tape stand for the witness two, with which it passes. -/
theorem runIn_check_1009 (fuel : Nat) (rest : List UInt8) (meter : Meter) (events : List Log.Event) :
    (check (fuel + 1) 1 1009).runIn (⟨⟨0 :: 0 :: rest⟩, meter, events⟩ : Session Tape)
      = (.ok ⟨true, some ⟨63, 4⟩⟩, ⟨⟨rest⟩, meter.add 2, events⟩) := by
  have hserved : (Source.fill (attemptSize 1006) (⟨0 :: 0 :: rest⟩ : Tape)).1 = .ok [0, 0] := rfl
  have hdraw : (randomBelow (fuel + 1) 1006).runIn
      (⟨⟨0 :: 0 :: rest⟩, meter, events⟩ : Session Tape)
      = (.ok 0, ⟨⟨rest⟩, meter.add 2, events⟩) := by
    rw [congrFun (randomBelow_of_pos (by decide)) (fuel + 1),
      runIn_randomBelowLoop_of_served (by decide) fuel hserved, if_pos (by decide)]
    rfl
  have hround : (passesRounds (fuel + 1) 1009 ⟨63, 4⟩ 1).runIn
      (⟨⟨0 :: 0 :: rest⟩, meter, events⟩ : Session Tape)
      = (.ok true, ⟨⟨rest⟩, meter.add 2, events⟩) := by
    rw [runIn_passesRounds_succ (fuel + 1) 1009 0 ⟨63, 4⟩ hdraw, if_pos (by decide +kernel)]
    rfl
  rw [check_1009 one_ne_zero, Draw.runIn_bind_of_ok hround]
  rfl

/-- **No false negatives.**  A check of a prime with at least one round ends with the verdict that it
passed, or ends with the cause for which the source refused a request; or it draws a witness without
an end, because the source serves numbers that are too large for ever, and then it has no end either.
In no run is the verdict that the prime is composite. -/
theorem check_of_prime {n rounds : Nat} (hn : n.Prime) (hrounds : 1 ≤ rounds)
    (session : Session σ) :
    ((∃ verdict session', Ends (fun fuel => check fuel rounds n) session (.ok verdict) session'
        ∧ verdict.probablePrime = true)
      ∨ (∃ cause session', Ends (fun fuel => check fuel rounds n) session (.error cause) session'
        ∧ Refuses session.source cause session'.source)
      ∨ (Endless (fun fuel => check fuel rounds n) session
        ∧ ∃ drawing, DrawsWitness rounds n session drawing
          ∧ Endless (fun fuel => randomBelow fuel (n - 3)) drawing))
    ∧ ∀ fuel verdict session', (check fuel rounds n).runIn session = (.ok verdict, session') →
        verdict.probablePrime = true := by
  have hpositive : rounds ≠ 0 := by omega
  constructor
  · -- Fuel decides only whether a check ends, so it ends in one way or in none.
    rcases (steady_check rounds n).ends_or_endless session with ⟨answer, session', hends⟩ | hendless
    · obtain ⟨least, hrun⟩ := id hends
      cases answer with
      | ok verdict =>
        exact Or.inl ⟨verdict, session', hends, probablePrime_of_prime hn (hrun least le_rfl)⟩
      | error cause =>
        exact Or.inr (Or.inl ⟨cause, session', hends,
          (faithful_check hpositive n least).refuses_of_error (hrun least le_rfl)⟩)
    · exact Or.inr (Or.inr ⟨hendless, (endless_check_iff hpositive).1 hendless⟩)
  · intro fuel verdict session' h
    exact probablePrime_of_prime hn h

/-- Two zero bytes are a witness that 1009 passes.  On a tape whose first number is too large for a
witness and whose third is cut short, the check ends with the refusal. -/
theorem check_of_prime_1009 :
    Nat.Prime 1009 ∧ 1 ≤ 1 ∧ 1 ≤ 2
      ∧ (∃ verdict session', Ends (fun fuel => check fuel 1 1009)
          (Session.start (⟨[0, 0]⟩ : Tape)) (.ok verdict) session'
        ∧ verdict.probablePrime = true)
      ∧ ∃ session', Ends (fun fuel => check fuel 2 1009)
          (Session.start (⟨[3, 255, 0, 7, 0]⟩ : Tape)) (.error (.entropy "tape exhausted")) session'
        ∧ Refuses (⟨[3, 255, 0, 7, 0]⟩ : Tape) (.entropy "tape exhausted") session'.source := by
  have hprime : Nat.Prime 1009 := by norm_num
  have hends : Ends (fun fuel => check fuel 1 1009) (Session.start (⟨[0, 0]⟩ : Tape))
      (.ok ⟨true, some ⟨63, 4⟩⟩) ⟨⟨[]⟩, ⟨1, 2⟩, []⟩ :=
    (steady_check 1 1009).ends (runIn_check_1009 0 [] ⟨0, 0⟩ [])
  have hrefused : (check 2 2 1009).runIn (Session.start (⟨[3, 255, 0, 7, 0]⟩ : Tape))
      = ((.error (.entropy "tape exhausted") : Except PrimeError Verdict).mapError Stop.error,
        ⟨⟨[0]⟩, ⟨3, 6⟩, []⟩) := by
    rw [check_1009 two_ne_zero]
    rfl
  have hends' := (steady_check 2 1009).ends hrefused
  refine ⟨hprime, le_rfl, one_le_two, ?_, ?_⟩
  · rcases (check_of_prime hprime le_rfl (Session.start (⟨[0, 0]⟩ : Tape))).1 with
      haccepted | ⟨cause, after, herror, -⟩ | ⟨hendless, -⟩
    · exact haccepted
    · cases (herror.unique hends).1
    · exact absurd hendless hends.not_endless
  · rcases (check_of_prime hprime one_le_two
        (Session.start (⟨[3, 255, 0, 7, 0]⟩ : Tape))).1 with
      ⟨verdict, after, haccepted, -⟩ | ⟨cause, after, herror, hrefuses⟩ | ⟨hendless, -⟩
    · cases (haccepted.unique hends').1
    · obtain rfl := Except.error.inj (herror.unique hends').1
      exact ⟨after, herror, hrefuses⟩
    · exact absurd hendless hends'.not_endless

/-- **Not every check of a prime returns**: from bytes of ones, which are never refused, the check of
1009 has no end. -/
theorem endless_check_of_1009 :
    Nat.Prime 1009 ∧ NeverRefuses (⟨⟩ : Ones)
      ∧ Endless (fun fuel => check fuel 1 1009) (Session.start (⟨⟩ : Ones))
      ∧ ¬ ∀ n rounds, n.Prime → 1 ≤ rounds → ∀ session : Session Ones,
        (∃ verdict session', Ends (fun fuel => check fuel rounds n) session (.ok verdict) session'
            ∧ verdict.probablePrime = true)
          ∨ ∃ cause session', Ends (fun fuel => check fuel rounds n) session (.error cause) session'
            ∧ Refuses session.source cause session'.source := by
  have hprime : Nat.Prime 1009 := by norm_num
  have hendless : Endless (fun fuel => check fuel 1 1009) (Session.start (⟨⟩ : Ones)) :=
    endless_check_of_ones one_ne_zero not_settled_1009 _
  refine ⟨hprime, Ones.neverRefuses _, hendless, fun hall => ?_⟩
  rcases hall 1009 1 hprime le_rfl (Session.start ⟨⟩) with ⟨_, _, hends, -⟩ | ⟨_, _, hends, -⟩
  · exact hends.not_endless hendless
  · exact hends.not_endless hendless

/-! ## §4. Where the verdict is exact. -/

/-- The first prime past the table. -/
theorem le_of_prime_of_lt {p : Nat} (hp : p.Prime) (h : 997 < p) : 1009 ≤ p := by
  by_contra hlt
  have hupper : p < 1009 := by omega
  interval_cases p <;> norm_num at hp

/-- The prime factors of a number that is not settled lie past the table. -/
theorem lt_of_dvd_of_not_settled {n p : Nat} (hn : ¬ Settled n) (hp : p.Prime) (hdvd : p ∣ n) :
    997 < p := by
  by_contra hle
  refine hn (settled_iff.2 (Or.inr ⟨p, hp, ?_, hdvd⟩))
  rw [trialLimit]
  omega

/-- **Where the verdict is exact.**  Below a thousand, and on the multiples of the primes below a
thousand, a check answers at once with the truth.  Elsewhere a verdict that is not the truth is about
a composite number all of whose prime factors lie past the table. -/
theorem check_exact {n rounds : Nat} (hrounds : 1 ≤ rounds) :
    (n < 1000 ∨ (∃ p, p.Prime ∧ p < 1000 ∧ p ∣ n) → ∀ fuel (session : Session σ),
      (check fuel rounds n).runIn session = (.ok ⟨decide n.Prime, decompose n⟩, session))
    ∧ ∀ fuel (session session' : Session σ) verdict,
      (check fuel rounds n).runIn session = (.ok verdict, session') →
        verdict.probablePrime ≠ decide n.Prime →
          ¬ n.Prime ∧ (∀ p, p.Prime → p ∣ n → 997 < p) ∧ 1018081 ≤ n := by
  have hpositive : rounds ≠ 0 := by omega
  constructor
  · intro h fuel session
    rw [check_of_settled hpositive (settled_iff.2 h), Draw.runIn_pure]
  · intro fuel session session' verdict h hwrong
    have hopen : ¬ Settled n := by
      intro hsettled
      rw [check_of_settled hpositive hsettled, Draw.runIn_pure_eq_ok] at h
      exact hwrong (by rw [← h.1])
    have hcomp : ¬ n.Prime := by
      intro hn
      exact hwrong (by rw [probablePrime_of_prime hn h, decide_eq_true hn])
    have hlarge : 3 < n := three_lt_of_not_settled hopen
    -- A composite number is at least the square of its least prime factor.
    have hleast : 1009 ≤ n.minFac := by
      have hprime : n.minFac.Prime := Nat.minFac_prime (by omega)
      exact le_of_prime_of_lt hprime (lt_of_dvd_of_not_settled hopen hprime (Nat.minFac_dvd n))
    refine ⟨hcomp, fun p hp hdvd => lt_of_dvd_of_not_settled hopen hp hdvd, ?_⟩
    calc 1018081 = 1009 ^ 2 := by norm_num
      _ ≤ n.minFac ^ 2 := Nat.pow_le_pow_left hleast 2
      _ ≤ n := Nat.minFac_sq_le_self (by omega) hcomp

/-- With a source that serves nothing, a multiple of a small prime is still settled. -/
theorem check_exact_without_entropy :
    1 ≤ 40 ∧ ∀ fuel (session : Session Entropy.Failing),
      (check fuel 40 (997 * 1009)).runIn session
        = (.ok ⟨decide (Nat.Prime (997 * 1009)), decompose (997 * 1009)⟩, session) := by
  refine ⟨by decide, ?_⟩
  exact (check_exact (by decide)).1 (Or.inr ⟨997, by norm_num, by decide, ⟨1009, rfl⟩⟩)

end ProbablePrime.Primality
